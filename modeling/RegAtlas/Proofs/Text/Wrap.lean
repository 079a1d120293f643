import Mathlib.Algebra.GroupWithZero.Nat
import Mathlib.Algebra.Order.BigOperators.Group.List
import Mathlib.Algebra.Order.Group.Nat
import Mathlib.Data.List.Chain
import Mathlib.Data.List.Infix
import RegAtlas.Proofs.Text.Cut
import RegAtlas.Text.Wrap

/-!
# Lines filled greedily

Items are put on a line as long as they fit. No other way to cut them into lines needs fewer of
them: at the end of each line the greedy cut is never behind another one, so that what remains is an
end of what remains there. An item that is too large for the limit has a line of its own in both.
The lines of a text are such a cut of its words.

## Main definitions

* `Fits` — a line of several items is within the limit.
* `Packed` — items are cut into lines each of which holds as many items as fit.
* `Wrapped` — what the lines of a text are, told from the lines alone.
-/

namespace RegAtlas.Text

section

variable {α : Type} {size : α → Nat} {limit : Nat}

/-! ### Lines of items -/

/-- The size of a line: its items, and one unit between two of them. -/
def lineSize (size : α → Nat) (line : List α) : Nat := (line.map size).sum + (line.length - 1)

/-- A line is within the limit, or it has no more than one item. -/
def Fits (size : α → Nat) (limit : Nat) (line : List α) : Prop :=
  1 < line.length → lineSize size line ≤ limit

variable {line part : List α} {item : α} {items : List α}

theorem lineSize_singleton (item : α) : lineSize size [item] = size item := by
  simp [lineSize]

theorem lineSize_concat (h : line ≠ []) :
    lineSize size (line ++ [item]) = lineSize size line + 1 + size item := by
  have hpos := List.length_pos_of_ne_nil h
  simp only [lineSize, List.map_append, List.map_singleton, List.sum_append_nat,
    List.sum_singleton, List.length_append, List.length_singleton]
  omega

theorem lineSize_le_of_sublist (h : part.Sublist line) : lineSize size part ≤ lineSize size line :=
  Nat.add_le_add ((h.map size).sum_le_sum fun _ _ => Nat.zero_le _)
    (Nat.sub_le_sub_right h.length_le 1)

theorem Fits.of_sublist (h : Fits size limit line) (hpart : part.Sublist line) :
    Fits size limit part := by
  intro hlength
  have hle := hpart.length_le
  exact (lineSize_le_of_sublist hpart).trans (h (by omega))

theorem fits_singleton (item : α) : Fits size limit [item] := by
  simp [Fits]

/-! ### Packed items -/

/-- The items are cut into lines. Each line fits, and it would not with the next item. -/
inductive Packed (size : α → Nat) (limit : Nat) : List α → List (List α) → Prop
  | nil : Packed size limit [] []
  | cons {first rest : List α} {lines : List (List α)} (hne : first ≠ [])
      (hfits : Fits size limit first)
      (hfull : ∀ next ∈ rest.head?, limit < lineSize size (first ++ [next]))
      (hrest : Packed size limit rest lines) : Packed size limit (first ++ rest) (first :: lines)

theorem packed_packFrom (hne : line ≠ []) (hfits : Fits size limit line) :
    Packed size limit (line ++ items) (packFrom size limit line (lineSize size line) items) := by
  induction items generalizing line with
  | nil => exact .cons hne hfits (by simp) .nil
  | cons item items ih =>
    unfold packFrom
    rw [← lineSize_concat hne]
    split
    case isTrue hle =>
      have hfits' : Fits size limit (line ++ [item]) := fun _ => hle
      simpa using ih (by simp) hfits'
    case isFalse hlt =>
      have hnext : Packed size limit ([item] ++ items)
          (packFrom size limit [item] (lineSize size [item]) items) :=
        ih (by simp) (fits_singleton item)
      rw [lineSize_singleton] at hnext
      exact .cons hne hfits (by simpa using hlt) hnext

theorem packed_pack (size : α → Nat) (limit : Nat) (items : List α) :
    Packed size limit items (pack size limit items) := by
  cases items with
  | nil => exact .nil
  | cons item items =>
    have h : Packed size limit ([item] ++ items)
        (packFrom size limit [item] (lineSize size [item]) items) :=
      packed_packFrom (by simp) (fits_singleton item)
    rwa [lineSize_singleton] at h

/-- A line without room for its next item reaches at least as far as any line that fits. -/
theorem suffix_of_full {first rest start others : List α} (hne : first ≠ [])
    (hfull : ∀ next ∈ rest.head?, limit < lineSize size (first ++ [next]))
    (hfits : Fits size limit start) (h : first ++ rest = start ++ others) : rest <:+ others := by
  obtain ⟨more, rfl, hrest⟩ | ⟨more, -, hothers⟩ := List.append_eq_append_iff.1 h
  · cases more with
    | nil => exact hrest ▸ List.suffix_rfl
    | cons next more =>
      have hlength : 1 < (first ++ [next]).length := by
        simpa using List.length_pos_of_ne_nil hne
      have hpart : (first ++ [next]).Sublist (first ++ next :: more) :=
        (List.singleton_sublist.2 List.mem_cons_self).append_left first
      have hle := hfits.of_sublist hpart hlength
      have hlt := hfull next (by simp [hrest])
      omega
  · exact ⟨more, hothers.symm⟩

namespace Packed

variable {lines cuts : List (List α)}

theorem flatten_eq (h : Packed size limit items lines) : lines.flatten = items := by
  induction h with
  | nil => rfl
  | cons _ _ _ _ ih => rw [List.flatten_cons, ih]

theorem eq_nil (h : Packed size limit items lines) (hitems : items = []) : lines = [] := by
  cases h with
  | nil => rfl
  | cons hne => exact absurd (List.append_eq_nil_iff.1 hitems).1 hne

theorem ne_nil (h : Packed size limit items lines) (hline : line ∈ lines) : line ≠ [] := by
  induction h with
  | nil => simp at hline
  | cons hne _ _ _ ih => grind

theorem fits (h : Packed size limit items lines) (hline : line ∈ lines) :
    Fits size limit line := by
  induction h with
  | nil => simp at hline
  | cons _ hfits _ _ ih => grind

/-- Items that are all within the limit are on lines that are. -/
theorem lineSize_le (h : Packed size limit items lines) (hitems : ∀ item ∈ items, size item ≤ limit)
    (hline : line ∈ lines) : lineSize size line ≤ limit := by
  by_cases hseveral : 1 < line.length
  · exact h.fits hline hseveral
  · have hpos := List.length_pos_of_ne_nil (h.ne_nil hline)
    obtain ⟨item, rfl⟩ := List.length_eq_one_iff.1 (by omega : line.length = 1)
    have hmem : item ∈ lines.flatten := List.mem_flatten.2 ⟨[item], hline, by simp⟩
    rw [lineSize_singleton]
    exact hitems item (h.flatten_eq ▸ hmem)

/-- Any line with the first item of the next one is beyond the limit. -/
theorem isChain (h : Packed size limit items lines) : lines.IsChain fun line next =>
    ∃ item, next.head? = some item ∧ limit < lineSize size (line ++ [item]) := by
  induction h with
  | nil => exact .nil
  | @cons first rest lines _ _ hfull hrest ih =>
    cases hrest with
    | nil => exact .singleton _
    | @cons second rest _ hne _ _ _ =>
      obtain ⟨item, others, rfl⟩ := List.exists_cons_of_ne_nil hne
      exact .cons_cons ⟨item, rfl, hfull item (by simp)⟩ ih

/-- What is packed of the last items of any other cut is no more than the lines of that cut. The
induction is on the other cut: either the items begin behind its first line, or the first packed
line reaches at least as far. -/
theorem length_le_of_suffix (h : Packed size limit items lines)
    (hfits : ∀ cut ∈ cuts, Fits size limit cut) (hsuffix : items <:+ cuts.flatten) :
    lines.length ≤ cuts.length := by
  induction cuts generalizing items lines with
  | nil =>
    have hnil : lines = [] := h.eq_nil (by simpa using hsuffix)
    simp [hnil]
  | cons cut cuts ih =>
    obtain ⟨hcut, hcuts⟩ := List.forall_mem_cons.1 hfits
    rw [List.flatten_cons] at hsuffix
    obtain hbehind | ⟨start, hstart⟩ := List.suffix_or_suffix_of_suffix hsuffix
      (List.suffix_append cut cuts.flatten)
    · exact (ih h hcuts hbehind).trans (Nat.le_succ _)
    · -- The items begin on the first line of the other cut.
      have hsub : start.Sublist cut := by
        obtain ⟨before, hbefore⟩ := hsuffix
        rw [← hstart, ← List.append_assoc] at hbefore
        exact List.append_cancel_right hbefore ▸ List.sublist_append_right before start
      cases h with
      | nil => simp
      | cons hne _ hfull hrest =>
        have hbehind := suffix_of_full hne hfull (hcut.of_sublist hsub) hstart.symm
        exact Nat.succ_le_succ (ih hrest hcuts hbehind)

theorem length_le (h : Packed size limit items lines) (hcuts : cuts.flatten = items)
    (hfits : ∀ cut ∈ cuts, Fits size limit cut) : lines.length ≤ cuts.length :=
  h.length_le_of_suffix hfits (hcuts ▸ List.suffix_rfl)

end Packed

end

/-! ### Lines of a text -/

/-- The lines of a text: its words in their order, as many on each line as fit, and no other way to
cut them needs fewer lines. -/
structure Wrapped (limit : Nat) (text : String) (ls : List String) : Prop where
  words_eq : ls.flatMap words = words text
  /-- Single blanks stand between the words of a line, and nothing else. -/
  spaced : ∀ l ∈ ls, " ".intercalate (words l) = l
  ne_empty : ∀ l ∈ ls, l ≠ ""
  fits : ∀ l ∈ ls, 1 < (words l).length → l.utf8ByteSize ≤ limit
  /-- The first word of the next line does not fit. -/
  full : ls.IsChain fun l next =>
    ∃ word, (words next).head? = some word ∧ limit < (l ++ " " ++ word).utf8ByteSize
  fewest : ∀ cuts : List (List String), cuts.flatten = words text →
    (∀ cut ∈ cuts, 1 < cut.length → (" ".intercalate cut).utf8ByteSize ≤ limit) →
    ls.length ≤ cuts.length

/-- A line of words takes their bytes and one for each blank between them. -/
theorem utf8ByteSize_intercalate (ws : List String) :
    (" ".intercalate ws).utf8ByteSize = lineSize String.utf8ByteSize ws := by
  have hblank : " ".utf8ByteSize = 1 := by decide
  induction ws with
  | nil => rfl
  | cons w ws ih =>
    cases ws with
    | nil => simp [lineSize]
    | cons w' ws =>
      rw [String.intercalate_cons_cons, String.utf8ByteSize_append, String.utf8ByteSize_append, ih]
      simp only [lineSize, List.map_cons, List.sum_cons, List.length_cons]
      omega

theorem mem_words {word text : String} (h : word ∈ words text) :
    word.toList ≠ [] ∧ ∀ c ∈ word.toList, isBlank c = false := by
  obtain ⟨cs, hcs, rfl⟩ := List.mem_map.1 h
  simpa using mem_wordsChars hcs

theorem words_intercalate {ws : List String}
    (h : ∀ w ∈ ws, w.toList ≠ [] ∧ ∀ c ∈ w.toList, isBlank c = false) :
    words (" ".intercalate ws) = ws := by
  have hchars : ∀ cs ∈ ws.map String.toList, cs ≠ [] ∧ ∀ c ∈ cs, isBlank c = false :=
    List.forall_mem_map.2 h
  have hblank : " ".toList = [' '] := rfl
  rw [words, String.toList_intercalate, hblank, wordsChars_intercalate hchars]
  simp

/-- The lines of a text are a greedy cut of its words, and the words of a line are found again. -/
theorem exists_packed_words (limit : Nat) (text : String) : ∃ lines : List (List String),
    Packed String.utf8ByteSize limit (words text) lines ∧
    wrap limit text = lines.map (" ".intercalate ·) ∧
    ∀ line ∈ lines, words (" ".intercalate line) = line := by
  have hpacked := packed_pack String.utf8ByteSize limit (words text)
  refine ⟨_, hpacked, rfl, fun line hline => words_intercalate fun word hword => ?_⟩
  have hmem := List.mem_flatten.2 ⟨line, hline, hword⟩
  rw [hpacked.flatten_eq] at hmem
  exact mem_words hmem

/-- The words of the lines make up the same text as the words before they were cut into lines. -/
theorem intercalate_map_intercalate {lines : List (List String)} (h : ∀ line ∈ lines, line ≠ []) :
    " ".intercalate (lines.map (" ".intercalate ·)) = " ".intercalate lines.flatten := by
  induction lines with
  | nil => rfl
  | cons line lines ih =>
    obtain ⟨hline, hlines⟩ := List.forall_mem_cons.1 h
    cases lines with
    | nil => simp
    | cons next lines =>
      have hne : (next :: lines).flatten ≠ [] := by
        simp [(List.forall_mem_cons.1 hlines).1]
      calc " ".intercalate ((line :: next :: lines).map (" ".intercalate ·))
          = " ".intercalate line ++ " " ++
              " ".intercalate ((next :: lines).map (" ".intercalate ·)) :=
            String.intercalate_cons_cons
        _ = " ".intercalate line ++ " " ++ " ".intercalate (next :: lines).flatten := by
            rw [ih hlines]
        _ = " ".intercalate (line :: next :: lines).flatten :=
            (String.intercalate_append_of_ne_nil hline hne).symm

theorem intercalate_wrap (limit : Nat) (text : String) :
    " ".intercalate (wrap limit text) = " ".intercalate (words text) := by
  obtain ⟨lines, hpacked, hwrap, -⟩ := exists_packed_words limit text
  rw [hwrap, intercalate_map_intercalate fun _ hline => hpacked.ne_nil hline, hpacked.flatten_eq]

theorem utf8ByteSize_le_of_mem_wrap {limit : Nat} {text l : String}
    (hwords : ∀ word ∈ words text, word.utf8ByteSize ≤ limit) (hl : l ∈ wrap limit text) :
    l.utf8ByteSize ≤ limit := by
  obtain ⟨lines, hpacked, hwrap, -⟩ := exists_packed_words limit text
  rw [hwrap] at hl
  obtain ⟨line, hline, rfl⟩ := List.mem_map.1 hl
  rw [utf8ByteSize_intercalate]
  exact hpacked.lineSize_le hwords hline

/-- The lines of a text are its words filled greedily, and they are as few as can be. -/
theorem wrapped_wrap (limit : Nat) (text : String) : Wrapped limit text (wrap limit text) := by
  obtain ⟨lines, hpacked, hwrap, hwords⟩ := exists_packed_words limit text
  rw [hwrap]
  constructor
  case words_eq =>
    rw [List.flatMap_map, List.flatMap_congr hwords, ← hpacked.flatten_eq]
    exact List.flatMap_id
  case spaced =>
    intro l hl
    obtain ⟨line, hline, rfl⟩ := List.mem_map.1 hl
    rw [hwords line hline]
  case ne_empty =>
    intro l hl hempty
    obtain ⟨line, hline, rfl⟩ := List.mem_map.1 hl
    have hnone := hwords line hline
    rw [hempty] at hnone
    exact hpacked.ne_nil hline hnone.symm
  case fits =>
    intro l hl hseveral
    obtain ⟨line, hline, rfl⟩ := List.mem_map.1 hl
    rw [hwords line hline] at hseveral
    rw [utf8ByteSize_intercalate]
    exact hpacked.fits hline hseveral
  case full =>
    rw [List.isChain_map]
    refine hpacked.isChain.imp_of_mem_imp fun line next hline hnext => ?_
    rintro ⟨word, hhead, hlt⟩
    refine ⟨word, by rw [hwords next hnext, hhead], ?_⟩
    have hblank : " ".utf8ByteSize = 1 := by decide
    rw [lineSize_concat (hpacked.ne_nil hline)] at hlt
    rwa [String.utf8ByteSize_append, String.utf8ByteSize_append, utf8ByteSize_intercalate, hblank]
  case fewest =>
    intro cuts hcuts hfits
    rw [List.length_map]
    refine hpacked.length_le hcuts fun cut hcut hseveral => ?_
    exact utf8ByteSize_intercalate cut ▸ hfits cut hcut hseveral

example : wrap 4 "a lengthy word to cut" = ["a", "lengthy", "word", "to", "cut"] := by
  decide +kernel

end RegAtlas.Text
