import Mathlib.Data.List.TakeWhile
import RegAtlas.Proofs.Rename.Mention

/-!
# Texts as words

A name that holds neither white space nor a character that ends a mention is mentioned where it is a
whole word of the text. Changes of such words compose, and two of them give one text exactly if they
do the same to every word that is mentioned.
-/

namespace RegAtlas.Mention

open Text (isBlank)

/-! ### Words -/

/-- Characters inside of words: neither white space nor the end of a mention. -/
def joins (c : Char) : Bool := !isBlank c && !endsWord (some c)

theorem joins_iff {c : Char} : joins c ↔ isBlank c = false ∧ endsWord (some c) = false := by
  simp [joins]

-- What is defined with words is unfolded without a look at code points.
attribute [irreducible] joins

def IsJoined (w : List Char) : Prop := ∀ c ∈ w, joins c

/-- No word goes on at the beginning of the text. -/
def IsCut (cs : List Char) : Prop := ∀ c ∈ cs.head?, joins c = false

/-- A word and the text behind it. -/
structure IsWord (w rest : List Char) : Prop where
  ne_nil : w ≠ []
  joined : IsJoined w
  cut : IsCut rest

section

variable {w w' rest rest' cs : List Char} {c : Char} {last : Option Char}

theorem isCut_nil : IsCut [] := by simp [IsCut]

@[simp] theorem isCut_cons : IsCut (c :: cs) ↔ joins c = false := by
  simp [IsCut]

theorem isCut_of_endsWord (h : endsWord cs.head?) : IsCut cs := by
  intro c hc
  rw [Option.mem_def.1 hc] at h
  simp [← Bool.not_eq_true, joins_iff, h]

theorem IsJoined.shown (h : IsJoined w) : ∀ c ∈ w, isBlank c = false := fun c hc =>
  (joins_iff.1 (h c hc)).1

theorem takeWhile_of_isCut (h : IsCut cs) : cs.takeWhile joins = [] := by
  cases cs with
  | nil => rfl
  | cons c cs => exact List.takeWhile_cons_of_neg (by simp [isCut_cons.1 h])

theorem takeWhile_append (hw : IsJoined w) (hrest : IsCut rest) :
    (w ++ rest).takeWhile joins = w := by
  rw [List.takeWhile_append_of_pos hw, takeWhile_of_isCut hrest, List.append_nil]

/-- The word at the beginning of a text is found in it. -/
theorem append_inj_of_isCut (hw : IsJoined w) (hrest : IsCut rest) (hw' : IsJoined w')
    (hrest' : IsCut rest') : w ++ rest = w' ++ rest' ↔ w = w' ∧ rest = rest' := by
  constructor
  · intro heq
    obtain rfl : w = w' := by
      rw [← takeWhile_append hw hrest, heq, takeWhile_append hw' hrest']
    exact ⟨rfl, List.append_cancel_left heq⟩
  · rintro ⟨rfl, rfl⟩
    rfl

/-- A text is made of words and of the characters between them. -/
@[elab_as_elim]
theorem words_induction {motive : Option Char → List Char → Prop} (nil : ∀ last, motive last [])
    (gap : ∀ last c cs, joins c = false → motive (some c) cs → motive last (c :: cs))
    (word : ∀ last w rest, IsWord w rest → motive none rest → motive last (w ++ rest))
    (last : Option Char) (cs : List Char) : motive last cs := by
  match cs with
  | [] => exact nil last
  | c :: cs =>
    by_cases hc : joins c
    · have hword : IsWord (c :: cs.takeWhile joins) (cs.dropWhile joins) := {
        ne_nil := List.cons_ne_nil _ _
        joined := List.forall_mem_cons.2 ⟨hc, fun _ => List.mem_takeWhile_imp⟩
        cut := fun d hd => by
          simpa [Option.mem_def.1 hd] using List.head?_dropWhile_not joins cs }
      rw [← List.takeWhile_append_dropWhile (p := joins) (l := cs), ← List.cons_append]
      have hlength := (List.dropWhile_suffix (l := cs) joins).length_le
      exact word last _ _ hword (words_induction nil gap word none _)
    · exact gap last c cs (by simpa using hc) (words_induction nil gap word (some c) cs)
termination_by cs.length

end

/-! ### Changing words -/

/-- A word is changed if it stands behind white space and ends as a mention does. -/
def changeWord (change : List Char → List Char) (last : Option Char) (w rest : List Char) :
    List Char :=
  if last.any isBlank && endsWord rest.head? then change w else w

/-- The text with its words changed. -/
def mapWordsFrom (change : List Char → List Char) (last : Option Char) : List Char → List Char
  | [] => []
  | c :: cs =>
    if joins c then
      let word := c :: cs.takeWhile joins
      let rest := cs.dropWhile joins
      changeWord change last word rest ++ mapWordsFrom change none rest
    else c :: mapWordsFrom change (some c) cs
termination_by cs => cs.length
decreasing_by
  · exact Nat.lt_succ_of_le (List.dropWhile_suffix joins).length_le
  · exact Nat.lt_succ_self _

/-- A change of words that gives words. -/
def KeepsWords (change : List Char → List Char) : Prop := ∀ w, IsJoined w → IsJoined (change w)

section

variable {f g : List Char → List Char} {w rest cs : List Char} {c : Char} {last last' : Option Char}

theorem mapWordsFrom_gap (hc : joins c = false) (f : List Char → List Char) :
    mapWordsFrom f last (c :: cs) = c :: mapWordsFrom f (some c) cs := by
  simp [mapWordsFrom, hc]

theorem mapWordsFrom_word (h : IsWord w rest) (f : List Char → List Char) :
    mapWordsFrom f last (w ++ rest) = changeWord f last w rest ++ mapWordsFrom f none rest := by
  obtain ⟨c, w, rfl⟩ := List.exists_cons_of_ne_nil h.ne_nil
  obtain ⟨hc, hw⟩ := List.forall_mem_cons.1 h.joined
  have hdrop : (w ++ rest).dropWhile joins = rest := by
    have happend := List.takeWhile_append_dropWhile (p := joins) (l := w ++ rest)
    rw [takeWhile_append hw h.cut] at happend
    exact List.append_cancel_left happend
  rw [List.cons_append, mapWordsFrom, if_pos hc]
  simp only [takeWhile_append hw h.cut, hdrop]

/-- What stands before a text matters to a word at its beginning only. -/
theorem mapWordsFrom_of_isCut (h : IsCut cs) (f : List Char → List Char)
    (last last' : Option Char) : mapWordsFrom f last cs = mapWordsFrom f last' cs := by
  cases cs with
  | nil => simp [mapWordsFrom]
  | cons c cs => rw [mapWordsFrom_gap (isCut_cons.1 h), mapWordsFrom_gap (isCut_cons.1 h)]

theorem head?_mapWordsFrom (h : IsCut cs) (f : List Char → List Char) (last : Option Char) :
    (mapWordsFrom f last cs).head? = cs.head? := by
  cases cs with
  | nil => simp [mapWordsFrom]
  | cons c cs => rw [mapWordsFrom_gap (isCut_cons.1 h), List.head?_cons, List.head?_cons]

theorem isCut_mapWordsFrom (h : IsCut cs) (f : List Char → List Char) (last : Option Char) :
    IsCut (mapWordsFrom f last cs) := by
  rw [IsCut, head?_mapWordsFrom h]
  exact h

/-- A word that may have no characters. -/
theorem mapWordsFrom_append (hf : f [] = []) (hw : IsJoined w) (hrest : IsCut rest) :
    mapWordsFrom f last (w ++ rest) = changeWord f last w rest ++ mapWordsFrom f none rest := by
  by_cases hne : w = []
  · rw [hne, changeWord, hf, ite_self]
    exact mapWordsFrom_of_isCut hrest f last none
  · exact mapWordsFrom_word ⟨hne, hw, hrest⟩ f

theorem KeepsWords.changeWord (hf : KeepsWords f) (hw : IsJoined w) (last : Option Char)
    (rest : List Char) : IsJoined (changeWord f last w rest) := by
  rw [Mention.changeWord]
  split
  · exact hf w hw
  · exact hw

theorem mapWordsFrom_id (last : Option Char) (cs : List Char) : mapWordsFrom id last cs = cs := by
  induction last, cs using words_induction with
  | nil last => simp [mapWordsFrom]
  | gap last c cs hc ih => rw [mapWordsFrom_gap hc, ih]
  | word last w rest h ih => rw [mapWordsFrom_word h, ih, changeWord, id, ite_self]

/-- Changing words twice is changing them once, also where the first change leaves no word. -/
theorem mapWordsFrom_mapWordsFrom (hf : KeepsWords f) (hg : g [] = []) (last : Option Char)
    (cs : List Char) : mapWordsFrom g last (mapWordsFrom f last cs) =
      mapWordsFrom (g ∘ f) last cs := by
  induction last, cs using words_induction with
  | nil last => simp [mapWordsFrom]
  | gap last c cs hc ih =>
    rw [mapWordsFrom_gap hc, mapWordsFrom_gap hc, ih, mapWordsFrom_gap hc]
  | word last w rest h ih =>
    have hchange : changeWord g last (changeWord f last w rest) (mapWordsFrom f none rest) =
        changeWord (g ∘ f) last w rest := by
      simp only [changeWord, head?_mapWordsFrom h.cut]
      split <;> rfl
    rw [mapWordsFrom_word h, mapWordsFrom_append hg (hf.changeWord h.joined last rest)
      (isCut_mapWordsFrom h.cut f none), hchange, ih, mapWordsFrom_word h]

/-! ### Mentions are words -/

variable {name : List Char}

/-- A mention at the beginning of a text is the word there. -/
theorem mentionsHead_word (hname : IsJoined name) (h : IsWord w rest) :
    mentionsHead name last (w ++ rest) =
      ((last.any isBlank && endsWord rest.head?) && decide (name = w)) := by
  rw [Bool.eq_iff_iff, mentionsHead_iff]
  simp only [Bool.and_eq_true, decide_eq_true_eq]
  constructor
  · rintro ⟨after, heq, hlast, hends⟩
    obtain ⟨rfl, rfl⟩ :=
      (append_inj_of_isCut h.joined h.cut hname (isCut_of_endsWord hends)).1 heq
    exact ⟨⟨hlast, hends⟩, rfl⟩
  · rintro ⟨⟨hlast, hends⟩, rfl⟩
    exact ⟨rest, rfl, hlast, hends⟩

theorem mentionsHead_of_isCut (hne : name ≠ []) (hname : IsJoined name) (h : IsCut cs) :
    mentionsHead name last cs = false := by
  rw [Bool.eq_false_iff]
  intro hhead
  obtain ⟨after, rfl, -⟩ := mentionsHead_iff.1 hhead
  obtain ⟨c, name, rfl⟩ := List.exists_cons_of_ne_nil hne
  exact absurd (hname c (by simp)) (by simp [isCut_cons.1 h])

theorem mentionsFrom_gap (hne : name ≠ []) (hname : IsJoined name) (hc : joins c = false) :
    mentionsFrom name last (c :: cs) = mentionsFrom name (some c) cs := by
  rw [mentionsFrom, mentionsHead_of_isCut hne hname (isCut_cons.2 hc), Bool.false_or]

theorem mentionsFrom_of_isCut (hne : name ≠ []) (hname : IsJoined name) (h : IsCut cs)
    (last last' : Option Char) : mentionsFrom name last cs = mentionsFrom name last' cs := by
  cases cs with
  | nil => rw [mentionsFrom, mentionsFrom, mentionsHead_of_isCut hne hname h,
      mentionsHead_of_isCut hne hname h]
  | cons c cs =>
    rw [mentionsFrom_gap hne hname (isCut_cons.1 h), mentionsFrom_gap hne hname (isCut_cons.1 h)]

theorem mentionsFrom_word (hne : name ≠ []) (hname : IsJoined name) (h : IsWord w rest) :
    mentionsFrom name last (w ++ rest) =
      (((last.any isBlank && endsWord rest.head?) && decide (name = w)) ||
        mentionsFrom name none rest) := by
  rw [← mentionsHead_word hname h]
  obtain ⟨c, w, rfl⟩ := List.exists_cons_of_ne_nil h.ne_nil
  obtain ⟨hc, hw⟩ := List.forall_mem_cons.1 h.joined.shown
  rw [List.cons_append, mentionsFrom, mentionsFrom_append (by simpa using hc) hw,
    mentionsFrom_of_isCut hne hname h.cut _ none]

/-- Two changes of words give one text exactly if they do the same to all mentions. -/
theorem mapWordsFrom_eq_iff (hf : KeepsWords f) (hg : KeepsWords g) :
    mapWordsFrom f last cs = mapWordsFrom g last cs ↔
      ∀ name, name ≠ [] → IsJoined name → mentionsFrom name last cs → f name = g name := by
  induction last, cs using words_induction with
  | nil last =>
    refine iff_of_true (by simp [mapWordsFrom]) fun name hne hname hmention => ?_
    simp [mentionsFrom, mentionsHead_of_isCut hne hname isCut_nil] at hmention
  | gap last c cs hc ih =>
    rw [mapWordsFrom_gap hc, mapWordsFrom_gap hc, List.cons_inj_right, ih]
    refine forall₃_congr fun name hne hname => ?_
    rw [mentionsFrom_gap hne hname hc]
  | word last w rest h ih =>
    have hchange : changeWord f last w rest = changeWord g last w rest ↔
        (last.any isBlank && endsWord rest.head? → f w = g w) := by
      rw [changeWord, changeWord]
      split <;> simp_all
    rw [mapWordsFrom_word h, mapWordsFrom_word h, append_inj_of_isCut
      (hf.changeWord h.joined last rest) (isCut_mapWordsFrom h.cut f none)
      (hg.changeWord h.joined last rest) (isCut_mapWordsFrom h.cut g none), ih, hchange]
    constructor
    · rintro ⟨hword, hrest⟩ name hne hname hmention
      rw [mentionsFrom_word hne hname h, Bool.or_eq_true, Bool.and_eq_true,
        decide_eq_true_eq] at hmention
      obtain ⟨hbounded, rfl⟩ | hmention := hmention
      · exact hword hbounded
      · exact hrest name hne hname hmention
    · intro hall
      refine ⟨fun hbounded => hall w h.ne_nil h.joined ?_, fun name hne hname hmention =>
        hall name hne hname ?_⟩
      · rw [mentionsFrom_word h.ne_nil h.joined h, hbounded]
        simp
      · rw [mentionsFrom_word hne hname h, hmention, Bool.or_true]

end

end RegAtlas.Mention
