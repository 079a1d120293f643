import Mathlib.Data.List.Basic
import RegAtlas.Rename.Mention

/-!
# Mentions of names in a text

Where a text mentions a name, and the text in which all mentions of some names are replaced at once.
Replacing one name finds its mentions, all of them and nothing else, although the scan passes over
whole occurrences and looks back at what it has written.
-/

namespace RegAtlas.Mention

open Text (isBlank)

/-! ### Mentions -/

/-- A mention of the name stands at the beginning of a text that follows a character. -/
def mentionsHead (name : List Char) (last : Option Char) (cs : List Char) : Bool :=
  last.any isBlank && name.isPrefixOf cs && endsWord (cs.drop name.length).head?

/-- A mention of the name stands in a text that follows a character. -/
def mentionsFrom (name : List Char) (last : Option Char) : List Char → Bool
  | [] => mentionsHead name last []
  | c :: cs => mentionsHead name last (c :: cs) || mentionsFrom name (some c) cs

/-- The name stands in the text behind white space, and ends the text or precedes a character that
ends a mention. -/
def Mentions (name text : String) : Prop :=
  ∃ before after : List Char, text.toList = before ++ name.toList ++ after ∧
    before.getLast?.any isBlank ∧ endsWord after.head?

/-- The text with all mentions of old names replaced at once. Where several names are mentioned, the
first one counts. -/
def substituteFrom (pairs : List (List Char × List Char)) (last : Option Char) :
    List Char → List Char
  | [] => []
  | c :: cs =>
    match pairs.find? fun p => mentionsHead p.1 last (c :: cs) with
    | some (old, new) => new ++ substituteFrom pairs old.getLast? (cs.drop (old.length - 1))
    | none => c :: substituteFrom pairs (some c) cs
termination_by cs => cs.length
decreasing_by all_goals simp; try omega

/-- The characters of old and new names. -/
def charPairs (pairs : List (String × String)) : List (List Char × List Char) :=
  pairs.map (Prod.map String.toList String.toList)

def substitute (pairs : List (String × String)) (text : String) : String :=
  String.ofList (substituteFrom (charPairs pairs) none text.toList)

section

variable {name : List Char} {last : Option Char} {cs w : List Char} {c : Char}

theorem mentionsHead_iff : mentionsHead name last cs ↔
    ∃ after, cs = name ++ after ∧ last.any isBlank ∧ endsWord after.head? := by
  simp only [mentionsHead, Bool.and_eq_true, List.isPrefixOf_iff_prefix]
  constructor
  · rintro ⟨⟨hlast, after, rfl⟩, hends⟩
    exact ⟨after, rfl, hlast, by simpa using hends⟩
  · rintro ⟨after, rfl, hlast, hends⟩
    exact ⟨⟨hlast, after, rfl⟩, by simpa using hends⟩

theorem mentionsHead_of_last (h : last.any isBlank = false) :
    mentionsHead name last cs = false := by
  simp [mentionsHead, h]

theorem mentionsFrom_iff : mentionsFrom name last cs ↔
    ∃ before after, cs = before ++ name ++ after ∧ (before.getLast?.or last).any isBlank ∧
      endsWord after.head? := by
  induction cs generalizing last with
  | nil =>
    rw [mentionsFrom, mentionsHead_iff]
    constructor
    · rintro ⟨after, heq, hlast, hends⟩
      exact ⟨[], after, heq, hlast, hends⟩
    · rintro ⟨before, after, heq, hlast, hends⟩
      obtain rfl : before = [] := by simp_all
      exact ⟨after, heq, hlast, hends⟩
  | cons c cs ih =>
    rw [mentionsFrom, Bool.or_eq_true, mentionsHead_iff, ih]
    constructor
    · rintro (⟨after, heq, hlast, hends⟩ | ⟨before, after, rfl, hlast, hends⟩)
      · exact ⟨[], after, heq, hlast, hends⟩
      · exact ⟨c :: before, after, rfl, by simpa [List.getLast?_cons] using hlast, hends⟩
    · rintro ⟨before, after, heq, hlast, hends⟩
      cases before with
      | nil => exact .inl ⟨after, heq, hlast, hends⟩
      | cons d before =>
        obtain ⟨rfl, rfl⟩ := List.cons.inj heq
        exact .inr ⟨before, after, rfl, by simpa [List.getLast?_cons] using hlast, hends⟩

theorem mentions_iff {name text : String} :
    Mentions name text ↔ mentionsFrom name.toList none text.toList := by
  simp only [mentionsFrom_iff, Option.or_none, Mentions]

instance (name text : String) : Decidable (Mentions name text) :=
  decidable_of_iff' _ mentions_iff

end

/-! ### Characters in front of which no mention begins -/

section

variable {pairs : List (List Char × List Char)} {name : List Char} {last : Option Char}
  {w rest : List Char}

/-- Behind a character that is no white space, a text without white space is passed over. -/
theorem mentionsFrom_append (hlast : last.any isBlank = false) (hw : ∀ c ∈ w, isBlank c = false) :
    mentionsFrom name last (w ++ rest) = mentionsFrom name (w.getLast?.or last) rest := by
  induction w generalizing last with
  | nil => rfl
  | cons c w ih =>
    obtain ⟨hc, hw⟩ := List.forall_mem_cons.1 hw
    rw [List.cons_append, mentionsFrom, mentionsHead_of_last hlast, Bool.false_or,
      ih (by simpa using hc) hw, List.getLast?_cons]
    cases w.getLast? <;> rfl

theorem substituteFrom_append (hlast : last.any isBlank = false)
    (hw : ∀ c ∈ w, isBlank c = false) : substituteFrom pairs last (w ++ rest) =
      w ++ substituteFrom pairs (w.getLast?.or last) rest := by
  induction w generalizing last with
  | nil => rfl
  | cons c w ih =>
    obtain ⟨hc, hw⟩ := List.forall_mem_cons.1 hw
    have hnone : (pairs.find? fun p => mentionsHead p.1 last (c :: (w ++ rest))) = none :=
      List.find?_eq_none.2 fun p _ => by simp [mentionsHead_of_last hlast]
    rw [List.cons_append, substituteFrom, hnone]
    have hshown : (some c).any isBlank = false := hc
    simp only [ih hshown hw, List.getLast?_cons, List.cons_append]
    cases w.getLast? <;> rfl

end

/-! ### Replacing one name -/

/-- A name and its replacement: neither holds white space, and what the replacement leaves does not
begin with the name. -/
structure Replaces (old new : List Char) : Prop where
  ne_nil : old ≠ []
  old_shown : ∀ c ∈ old, isBlank c = false
  new_shown : ∀ c ∈ new, isBlank c = false
  apart : new ≠ [] ∨ ∀ c ∈ old.head?, endsWord (some c) = false

section

variable {old new : List Char} {last last' : Option Char} {cs : List Char}

theorem getLast?_or_shown {w : List Char} (hw : ∀ c ∈ w, isBlank c = false) (hne : w ≠ []) :
    (w.getLast?.or last).any isBlank = false := by
  rw [List.getLast?_eq_some_getLast hne]
  simpa using hw _ (List.getLast_mem hne)

/-- Behind a mention, the replacement lets no mention begin. -/
theorem Replaces.mentionsHead_behind (h : Replaces old new) (hends : endsWord cs.head?) :
    mentionsHead old (new.getLast?.or last) cs = mentionsHead old old.getLast? cs := by
  have hold : old.getLast?.any isBlank = false := by
    rw [← Option.or_none (o := old.getLast?)]
    exact getLast?_or_shown h.old_shown h.ne_nil
  rw [mentionsHead_of_last hold]
  by_cases hnew : new = []
  · obtain ⟨c, w, rfl⟩ := List.exists_cons_of_ne_nil h.ne_nil
    have hapart : endsWord (some c) = false := (h.apart.resolve_left (absurd hnew)) c rfl
    rw [Bool.eq_false_iff]
    intro hhead
    obtain ⟨after, rfl, -⟩ := mentionsHead_iff.1 hhead
    exact absurd hends (by simp [hapart])
  · exact mentionsHead_of_last (getLast?_or_shown h.new_shown hnew)

/-- One step of the replacement at once, where a mention begins. -/
theorem substituteFrom_of_mentionsHead {c : Char} (h : mentionsHead old last (c :: cs)) :
    substituteFrom [(old, new)] last (c :: cs) =
      new ++ substituteFrom [(old, new)] old.getLast? (cs.drop (old.length - 1)) := by
  simp [substituteFrom, h]

theorem substituteFrom_of_not_mentionsHead {c : Char}
    (h : mentionsHead old last (c :: cs) = false) : substituteFrom [(old, new)] last (c :: cs) =
      c :: substituteFrom [(old, new)] (some c) cs := by
  simp [substituteFrom, h]

theorem Replaces.eq_append (h : Replaces old new) {c : Char} (hbegins : old.isPrefixOf (c :: cs)) :
    ∃ w, old = c :: w ∧ cs = w ++ cs.drop (old.length - 1) := by
  obtain ⟨rest, heq⟩ := List.isPrefixOf_iff_prefix.1 hbegins
  obtain ⟨d, w, rfl⟩ := List.exists_cons_of_ne_nil h.ne_nil
  obtain ⟨rfl, rfl⟩ := List.cons.inj heq
  exact ⟨w, rfl, by simp⟩

/-- The scan looks back at what it has written, which decides about a mention as the text does. -/
theorem replaceFrom_eq (h : Replaces old new)
    (hhead : mentionsHead old last cs = mentionsHead old last' cs) :
    replaceFrom old new last cs =
      (substituteFrom [(old, new)] last' cs, mentionsFrom old last' cs) := by
  fun_induction replaceFrom old new last cs generalizing last' with
  | case1 =>
    have hnone : mentionsHead old last' [] = false := by
      simp [mentionsHead, List.isPrefixOf_iff_prefix, h.ne_nil]
    simp [substituteFrom, mentionsFrom, hnone]
  | case2 last c cs hbegins rest mention piece tail found hrec =>
    rename_i ih
    obtain ⟨w, hold, hcs⟩ := h.eq_append hbegins
    have hmention : mentionsHead old last' (c :: cs) = mention := by
      rw [← hhead, mentionsHead, hbegins]
      simp [mention, rest, hold]
    cases htrue : mention with
    | true =>
      have hends : endsWord rest.head? := (Bool.and_eq_true_iff.1 htrue).2
      rw [show piece = new from if_pos htrue] at hrec ih ⊢
      obtain ⟨rfl, -⟩ := Prod.mk.inj (hrec.symm.trans (ih (h.mentionsHead_behind hends)))
      rw [htrue] at hmention
      simp [substituteFrom_of_mentionsHead hmention, mentionsFrom, hmention, rest]
    | false =>
      -- The occurrence is written as it is, and no mention begins inside of it.
      rw [show piece = old from if_neg (by simp [htrue])] at hrec ih ⊢
      have hshown := h.old_shown
      rw [hold, List.forall_mem_cons] at hshown
      have hc : (some c).any isBlank = false := hshown.1
      have hlast : (w.getLast?.or (some c)).any isBlank = false := by
        cases hw : w.getLast? with
        | none => exact hc
        | some d => exact hshown.2 d (List.mem_of_getLast? hw)
      have hrest : mentionsHead old (old.getLast?.or last) rest =
          mentionsHead old (w.getLast?.or (some c)) rest := by
        rw [mentionsHead_of_last (getLast?_or_shown h.old_shown h.ne_nil),
          mentionsHead_of_last hlast]
      obtain ⟨rfl, rfl⟩ := Prod.mk.inj (hrec.symm.trans (ih hrest))
      rw [htrue] at hmention
      rw [substituteFrom_of_not_mentionsHead hmention, mentionsFrom, hmention, hcs]
      simp only [substituteFrom_append hc hshown.2, mentionsFrom_append hc hshown.2]
      simp [hold, rest]
  | case3 last c cs hbegins tail found hrec =>
    rename_i ih
    obtain ⟨rfl, rfl⟩ := Prod.mk.inj (hrec.symm.trans (ih rfl))
    have hnone : mentionsHead old last' (c :: cs) = false := by
      rw [← hhead, mentionsHead]
      simp [hbegins]
    rw [substituteFrom_of_not_mentionsHead hnone, mentionsFrom, hnone, Bool.false_or]

theorem substituteFrom_of_not_mentionsFrom (h : mentionsFrom old last cs = false) :
    substituteFrom [(old, new)] last cs = cs := by
  induction cs generalizing last with
  | nil => simp [substituteFrom]
  | cons c cs ih =>
    rw [mentionsFrom, Bool.or_eq_false_iff] at h
    rw [substituteFrom_of_not_mentionsHead h.1, ih h.2]

end

/-! ### Replacing one name after the other -/

section

variable {pairs : List (String × String)} {old new text : String}

/-- Old and new names of which each pair is a name and its replacement. -/
def Replacing (pairs : List (String × String)) : Prop :=
  ∀ p ∈ pairs, Replaces p.1.toList p.2.toList

theorem replace?_eq (h : Replaces old.toList new.toList) : replace? old new text =
    if mentionsFrom old.toList none text.toList then some (substitute [(old, new)] text)
    else none := by
  have hne : old.isEmpty = false := by
    rw [Bool.eq_false_iff, Ne, String.isEmpty_iff]
    rintro rfl
    exact h.ne_nil rfl
  rw [replace?, hne, replaceFrom_eq h rfl]
  rfl

theorem replace?_eq_none_iff (h : Replaces old.toList new.toList) :
    replace? old new text = none ↔ ¬Mentions old text := by
  rw [replace?_eq h, mentions_iff]
  split <;> simp_all

/-- Whether or not there is a mention, the text goes on with all of them replaced. -/
theorem getD_replace? (h : Replaces old.toList new.toList) :
    (replace? old new text).getD text = substitute [(old, new)] text := by
  rw [replace?_eq h]
  split
  case isTrue => rfl
  case isFalse hnone =>
    rw [Bool.not_eq_true] at hnone
    exact (String.ofList_toList.symm.trans (congrArg _
      (substituteFrom_of_not_mentionsFrom hnone).symm))

/-- Replacing names in turn replaces the mentions of each in what the ones before it left. -/
theorem getD_replaceAll? (h : Replacing pairs) :
    (replaceAll? pairs text).getD text = pairs.foldl (fun text p => substitute [p] text) text := by
  have hstep : ∀ done : Option String,
      (pairs.foldl (fun done p => (replace? p.1 p.2 (done.getD text)).or done) done).getD text =
        pairs.foldl (fun text p => substitute [p] text) (done.getD text) := by
    induction pairs with
    | nil => exact fun _ => rfl
    | cons p pairs ih =>
      intro done
      obtain ⟨hp, hpairs⟩ := List.forall_mem_cons.1 h
      rw [List.foldl_cons, List.foldl_cons, ih hpairs, ← getD_replace? hp]
      cases replace? p.1 p.2 (done.getD text) <;> simp
  exact hstep none

/-- A text is changed exactly if it mentions one of the old names: the first of them that it
mentions is looked for in the text as it was. -/
theorem replaceAll?_isSome_iff (h : Replacing pairs) :
    (replaceAll? pairs text).isSome ↔ ∃ p ∈ pairs, Mentions p.1 text := by
  have hkept : ∀ (pairs : List (String × String)) (done : String), (pairs.foldl
      (fun done p => (replace? p.1 p.2 (done.getD text)).or done) (some done)).isSome := by
    intro pairs
    induction pairs with
    | nil => exact fun _ => rfl
    | cons p pairs ih =>
      intro done
      rw [List.foldl_cons, Option.getD_some]
      cases replace? p.1 p.2 done with
      | none => exact ih done
      | some done' => exact ih done'
  induction pairs with
  | nil => simp [replaceAll?]
  | cons p pairs ih =>
    obtain ⟨old, new⟩ := p
    obtain ⟨hp, hpairs⟩ := List.forall_mem_cons.1 h
    refine Iff.trans ?_ (List.exists_mem_cons_iff ..).symm
    refine Iff.trans ?_ (or_congr_right (ih hpairs))
    simp only [replaceAll?, List.foldl_cons, Option.getD_none, Option.or_none]
    cases hreplace : replace? old new text with
    | none => simp [(replace?_eq_none_iff hp).1 hreplace]
    | some done =>
      have hmention : Mentions old text := by
        by_contra hnot
        simp [(replace?_eq_none_iff hp).2 hnot] at hreplace
      simp [hkept pairs done, hmention]

end

end RegAtlas.Mention
