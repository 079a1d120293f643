import Mathlib.Data.List.Chain
import RegAtlas.Proofs.Output.BitCells
import RegAtlas.Proofs.Output.Latex

/-!
# Merged cells

Merging equal texts of a row as a run-length code. The written cells are read back, each with its
number of columns, and give the texts again. Runs are as long as they can be, empty texts stay
apart, and the border at the left end belongs to the first column.
-/

namespace RegAtlas.Latex

open RegisterDoc (columnTexts columnTexts_mergeFrom)

/-! ### Reading a cell -/

def multicolumn : List Char := "\\multicolumn".toList

/-- The cell that a text was written for: number of columns, format and content stand in braces
behind the command, and any other text is a plain cell. -/
def Cell.read (s : String) : Cell :=
  match Text.stripStart? (multicolumn ++ ['\x7b']) s.toList with
  | none => .plain s
  | some rest =>
    let number := rest.takeWhile Char.isDigit
    let behind := rest.drop (number.length + 2)
    let format := behind.takeWhile (· != '\x7d')
    .spanning (Nat.ofDigitChars 10 number 0) (String.ofList format)
      (String.ofList (behind.drop (format.length + 2)).dropLast)

theorem Cell.read_render_plain {text : String} (h : ¬multicolumn <+: text.toList) :
    read (plain text).render = plain text := by
  have hstrip : Text.stripStart? (multicolumn ++ ['\x7b']) text.toList = none := by
    rw [Text.stripStart?, if_neg]
    rw [List.isPrefixOf_iff_prefix]
    exact fun hbegins => h ((List.prefix_append _ _).trans hbegins)
  rw [render, read, hstrip]

theorem Cell.read_render_spanning {n : Nat} {format text : String} (h : '\x7d' ∉ format.toList) :
    read (spanning n format text).render = spanning n format text := by
  have hstrip (rest : List Char) :
      Text.stripStart? (multicolumn ++ ['\x7b']) ("\\multicolumn\x7b".toList ++ rest) =
        some rest := rfl
  have hnumber (rest : List Char) : (Nat.toDigits 10 n ++ '\x7d' :: rest).takeWhile Char.isDigit =
      Nat.toDigits 10 n := by
    rw [List.takeWhile_append_of_pos fun d hd =>
      Nat.isDigit_of_mem_toDigits (by decide) (by decide) hd]
    simp
  have hformat (rest : List Char) : (format.toList ++ '\x7d' :: rest).takeWhile (· != '\x7d') =
      format.toList := by
    rw [List.takeWhile_append_of_pos fun c hc => by grind]
    simp
  rw [read, toList_render_spanning, hstrip]
  simp [hnumber, hformat]

/-! ### Runs -/

section

variable {first : Bool} {texts : List String}

theorem head?_mergeFrom (first : Bool) (texts : List String) :
    (mergeFrom first texts).head?.map Cell.text = texts.head? := by
  cases texts with
  | nil => simp [mergeFrom]
  | cons text rest =>
    rw [mergeFrom]
    split <;> rfl

/-- What stands behind a run does not go on with its text. -/
theorem head?_drop_run (text : String) (rest : List String) :
    ∀ next ∈ (rest.drop (rest.takeWhile (· == text)).length).head?, next ≠ text := by
  induction rest with
  | nil => simp
  | cons next rest ih =>
    rw [List.takeWhile_cons]
    split
    · exact ih
    · simp_all

/-- Neighbours do not carry the same text, unless it is empty. -/
theorem isChain_mergeFrom : (mergeFrom first texts).IsChain
    fun cell next => cell.text = next.text → cell.text = "" := by
  have hhead {rest : List String} {next : Cell} (h : next ∈ (mergeFrom false rest).head?) :
      next.text ∈ rest.head? := by
    rw [← head?_mergeFrom false rest]
    exact Option.mem_map_of_mem Cell.text h
  fun_induction mergeFrom first texts with
  | case1 => exact .nil
  | case2 first text rest run hrun ih =>
    refine List.isChain_cons.2 ⟨fun next hnext heq => ?_, ih⟩
    exact absurd heq.symm (head?_drop_run text rest _ (hhead hnext))
  | case3 first text rest run hrun ih =>
    refine List.isChain_cons.2 ⟨fun next hnext heq => ?_, ih⟩
    by_cases hempty : text = ""
    · exact hempty
    · -- The run of a text that is not merged ends at once.
      have hlength : (rest.takeWhile (· == text)).length = 0 := by
        by_contra hlong
        exact hrun (by simp [hempty]; omega)
      have hnot := head?_drop_run text rest
      rw [hlength, List.drop_zero] at hnot
      exact absurd heq.symm (hnot _ (hhead hnext))

/-- Only texts are merged, and at least two of them. -/
theorem of_spanning_mem_mergeFrom {n : Nat} {format text : String}
    (h : Cell.spanning n format text ∈ mergeFrom first texts) : 1 < n ∧ text ≠ "" := by
  fun_induction mergeFrom first texts with
  | case1 => simp at h
  | case2 first text' rest run hrun ih =>
    obtain ⟨hlong, hshown⟩ := Bool.and_eq_true_iff.1 hrun
    rcases List.mem_cons.1 h with heq | h
    · obtain ⟨rfl, -, rfl⟩ := Cell.spanning.inj heq
      exact ⟨by simpa using hlong, by simpa using hshown⟩
    · exact ih h
  | case3 first text' rest run hrun ih =>
    rcases List.mem_cons.1 h with heq | h
    · cases heq
    · exact ih h

/-- The format of a merged cell depends on whether cells stand before it. -/
theorem format_mergeFrom {before after : List Cell} {n : Nat} {format text : String}
    (h : mergeFrom first texts = before ++ .spanning n format text :: after) :
    format = if first ∧ before = [] then "|c|" else "c|" := by
  fun_induction mergeFrom first texts generalizing before with
  | case1 => simp at h
  | case2 first text' rest run hrun =>
    rename_i ih
    cases before with
    | nil =>
      obtain ⟨heq, -⟩ := List.cons.inj h
      obtain ⟨-, rfl, -⟩ := Cell.spanning.inj heq
      simp
    | cons cell before =>
      obtain ⟨-, h⟩ := List.cons.inj h
      simpa using ih h
  | case3 first text' rest run hrun =>
    rename_i ih
    cases before with
    | nil =>
      obtain ⟨heq, -⟩ := List.cons.inj h
      cases heq
    | cons cell before =>
      obtain ⟨-, h⟩ := List.cons.inj h
      simpa using ih h

theorem columns_pos_of_mem_mergeFrom {cell : Cell} (h : cell ∈ mergeFrom first texts) :
    0 < cell.columns := by
  cases cell with
  | plain => exact Nat.one_pos
  | spanning n format text => exact Nat.lt_of_succ_lt (of_spanning_mem_mergeFrom h).1

theorem plain_mem_mergeFrom {text : String} (h : Cell.plain text ∈ mergeFrom first texts) :
    text ∈ texts := by
  rw [← columnTexts_mergeFrom first texts]
  exact List.mem_flatMap.2 ⟨_, h, List.mem_singleton.2 rfl⟩

end

/-! ### The code -/

/-- The cells are the texts of a row with their runs merged. -/
structure MergesRuns (texts : List String) (cells : List Cell) : Prop where
  /-- Each cell stands for as many copies of its text as it has columns. -/
  expands : columnTexts cells = texts
  /-- Two texts at least are merged, and no empty ones. -/
  shown : ∀ n format text, .spanning n format text ∈ cells → 1 < n ∧ text ≠ ""
  /-- No text goes on in the next cell, unless it is empty. -/
  longest : cells.IsChain fun cell next => cell.text = next.text → cell.text = ""
  /-- A merged cell has a line at its left side in the first column only. -/
  border : ∀ before n format text after, cells = before ++ .spanning n format text :: after →
    format = if (before.map Cell.columns).sum = 0 then "|c|" else "c|"

theorem mergesRuns_merge (texts : List String) : MergesRuns texts (merge texts) where
  expands := columnTexts_mergeFrom true texts
  shown _ _ _ := of_spanning_mem_mergeFrom
  longest := isChain_mergeFrom
  border before n format text after h := by
    have hbefore : (before.map Cell.columns).sum = 0 ↔ before = [] := by
      cases before with
      | nil => simp
      | cons cell before =>
        have hmem : cell ∈ mergeFrom true texts := by
          rw [← merge, h]
          exact List.mem_cons_self
        have hpos := columns_pos_of_mem_mergeFrom hmem
        simp only [List.map_cons, List.sum_cons, List.cons_ne_nil, iff_false]
        omega
    simp only [format_mergeFrom h, hbefore, true_and]

/-- Merging is faithful: the written cells, each read on its own, are the texts with their runs
merged. A text must not look like a cell over several columns itself. -/
theorem merge_faithful {texts : List String}
    (h : ∀ text ∈ texts, ¬"\\multicolumn".toList <+: text.toList) :
    MergesRuns texts (((merge texts).map Cell.render).map Cell.read) := by
  have hread : ∀ cell ∈ merge texts, Cell.read cell.render = cell := by
    intro cell hcell
    cases cell with
    | plain text => exact Cell.read_render_plain (h text (plain_mem_mergeFrom hcell))
    | spanning n format text =>
      obtain ⟨before, after, hcut⟩ := List.append_of_mem hcell
      refine Cell.read_render_spanning ?_
      rw [format_mergeFrom hcut]
      split <;> decide
  have hcells : ((merge texts).map Cell.render).map Cell.read = merge texts := by
    rw [List.map_map]
    exact (List.map_congr_left hread).trans (List.map_id _)
  rw [hcells]
  exact mergesRuns_merge texts

/-- The first run touches the left border, the empty texts stay apart, and the last text stands
alone. -/
theorem merge_faithful_row :
    (∀ text ∈ ["A", "A", "", "", "B", "B", "C"], ¬"\\multicolumn".toList <+: text.toList) ∧
    MergesRuns ["A", "A", "", "", "B", "B", "C"] (["\\multicolumn\x7b2\x7d\x7b|c|\x7d\x7bA\x7d", "",
      "", "\\multicolumn\x7b2\x7d\x7bc|\x7d\x7bB\x7d", "C"].map Cell.read) := by
  have hplain : ∀ text ∈ ["A", "A", "", "", "B", "B", "C"],
      ¬"\\multicolumn".toList <+: text.toList := by decide
  have hrow : (merge ["A", "A", "", "", "B", "B", "C"]).map Cell.render =
      ["\\multicolumn\x7b2\x7d\x7b|c|\x7d\x7bA\x7d", "", "",
        "\\multicolumn\x7b2\x7d\x7bc|\x7d\x7bB\x7d", "C"] := by
    decide +kernel
  exact ⟨hplain, hrow ▸ merge_faithful hplain⟩

end RegAtlas.Latex
