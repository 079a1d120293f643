import RegAtlas.Proofs.Output.MergedCells
import RegAtlas.Proofs.Output.Tabular

/-!
# Texts in the tables of a text

What a written table shows, column by column, read off the lines of its rows: a row is cut into its
cells, and a cell shows its text once for every column that it takes. White space around a text is
not shown.
-/

namespace RegAtlas

open Text (trim trimStart trimChars)

namespace Latex

/-! ### Reading a row -/

/-- The texts that a cell shows, one for each of its columns. -/
def shownBy (cell : List Char) : List String :=
  let cell := Cell.read (trim (String.ofList cell))
  List.replicate cell.columns (trim cell.text)

/-- The texts that the line of a row shows. Two backslashes end the row. -/
def rowTexts (row : String) : List String :=
  (splitCells false row.toList.dropLast.dropLast).flatMap shownBy

/-! ### Trimmed texts -/

theorem trim_trim (s : String) : trim (trim s) = trim s := by
  rw [trim, trim, String.toList_ofList, Text.trimChars_trimChars]

theorem trim_eq_self_of_ends {s : String}
    (hfirst : ∀ c ∈ s.toList.head?, Text.isBlank c = false)
    (hlast : ∀ c ∈ s.toList.getLast?, Text.isBlank c = false) : trim s = s :=
  Text.trim_eq_self_iff.2 (Text.trimChars_eq_self_iff.2 ⟨hfirst, hlast⟩)

theorem head?_command (name argument : String) :
    (command name argument).toList.head? = some '\\' := by
  simp [command]

/-- A command is written without white space around it. -/
theorem trim_command (name argument : String) :
    trim (command name argument) = command name argument := by
  have hclosed : (command name argument).toList =
      ("\\" ++ name ++ "\x7b" ++ argument).toList ++ ['\x7d'] := by
    simp [command]
  refine trim_eq_self_of_ends (by simp [head?_command]; decide) ?_
  rw [hclosed, List.getLast?_concat]
  decide

theorem trim_render_spanning (n : Nat) (format text : String) :
    trim (Cell.spanning n format text).render = (Cell.spanning n format text).render := by
  have hclosed : (Cell.spanning n format text).render.toList =
      (command "multicolumn" (toString n) ++ "\x7b" ++ format ++ "\x7d\x7b" ++ text).toList ++
        ['\x7d'] := by
    simp [Cell.render]
  refine trim_eq_self_of_ends (by simp [Cell.render, command]; decide) ?_
  rw [hclosed, List.getLast?_concat]
  decide

/-! ### Reading back a row -/

theorem shownBy_cons_blank (c : Char) (cs : List Char) (hc : Text.isBlank c) :
    shownBy (c :: cs) = shownBy cs := by
  have htrim : trim (String.ofList (c :: cs)) = trim (String.ofList cs) := by
    rw [trim, trim, String.toList_ofList, String.toList_ofList, Text.trimChars_cons_of_isBlank hc]
  rw [shownBy, htrim, shownBy]

/-- A cell shows its text over its columns. -/
theorem shownBy_render {cell : Cell} (h : cell.Readable) :
    shownBy (cell.render.toList ++ [' ']) = List.replicate cell.columns (trim cell.text) := by
  have htrim : trim (String.ofList (cell.render.toList ++ [' '])) = trim cell.render := by
    rw [trim, trim, String.toList_ofList, Text.trimChars_append_eq_iff.2 (by decide)]
  rw [shownBy, htrim]
  cases cell with
  | plain text =>
    have hplain : ¬multicolumn <+: (trim text).toList := by
      obtain ⟨blanks, -, hstart⟩ := Text.trimStartChars_eq_append text.toList
      rw [trim, String.toList_ofList]
      intro hbegins
      refine CellText.beginsPlain h 'm' (by decide) (.trans ⟨_, rfl⟩ (hbegins.trans ?_))
      exact hstart ▸ List.prefix_append _ blanks
    have hread : Cell.read (trim text) = .plain (trim text) := Cell.read_render_plain hplain
    simp only [Cell.render, hread, Cell.columns, Cell.text, trim_trim]
  | spanning n format text =>
    rw [trim_render_spanning, Cell.read_render_spanning h.1]

/-- The line of a row shows the texts of its cells. -/
theorem rowTexts_renderRow {row : List Cell} (hne : row ≠ [])
    (h : ∀ cell ∈ row, cell.Readable) :
    rowTexts (trimStart (Table.renderRow row)) = (RegisterDoc.columnTexts row).map trim := by
  have hline : (trimStart (Table.renderRow row)).toList = Text.trimStartChars
      (" & ".toList.intercalate (row.map fun cell => cell.render.toList) ++ [' ']) ++
        ['\\'] ++ ['\\'] := by
    have hend : " \\\\".toList = [' '] ++ ['\\'] ++ ['\\'] := by decide
    rw [trimStart, String.toList_ofList, toList_renderRow, hend, ← List.append_assoc,
      ← List.append_assoc, Tabular.trimStartChars_concat (by decide),
      Tabular.trimStartChars_concat (by decide)]
  have hshown : ∀ cell ∈ row, shownBy (cell.render.toList ++ [' ']) =
      List.replicate cell.columns (trim cell.text) :=
    fun cell hcell => shownBy_render (h cell hcell)
  have hcells := map_splitCells_row shownBy_cons_blank hne h (by decide) hshown hshown
  rw [rowTexts, hline, List.dropLast_concat, List.dropLast_concat, List.flatMap_def,
    map_splitCells_trimStartChars shownBy_cons_blank, hcells, ← List.flatMap_def,
    RegisterDoc.columnTexts, List.map_flatMap]
  exact List.flatMap_congr fun cell _ => (List.map_replicate ..).symm

end Latex

namespace Tabular

open Latex

/-- The texts of the rows of a table. -/
def texts (t : Tabular) : List (List String) := t.rows.map rowTexts

theorem texts_tabular {t : Table} (h : t.WellFormed) :
    t.tabular.texts = t.rows.map fun row => (RegisterDoc.columnTexts row).map trim := by
  have hrow : ∀ row ∈ t.rows, rowTexts (trimStart (Table.renderRow row)) =
      (RegisterDoc.columnTexts row).map trim := by
    intro row hrow
    have hover := h.rows row hrow
    refine rowTexts_renderRow ?_ hover.readable
    rintro rfl
    exact h.nonempty (List.length_eq_zero_iff.1 hover.columns.symm)
  have hrows : t.tabular.rows = t.rows.map fun row => trimStart (Table.renderRow row) := rfl
  rw [texts, hrows, List.map_map]
  refine List.map_congr_left fun row hmem => ?_
  rw [Function.comp_apply, hrow row hmem]

/-! ### Tables in a text -/

/-- The text does not end within a table. -/
def Outside (w : LineWriter) : Prop :=
  ∀ lines, readFrom none (w.shown ++ lines) = ofWriter w ++ readFrom none lines

variable {ts : List Table} {w w' : LineWriter}

theorem outside_of_shown_eq_nil (h : w.shown = []) : Outside w := fun lines => by
  rw [ofWriter, ← LineWriter.shown, h]
  rfl

/-- The tables of a text are followed by those that are added to it, and then by those of any lines
behind them. -/
theorem Adds.readFrom_append (h : Adds ts w w') (hw : Outside w) (rest : List String) :
    readFrom none (w'.shown ++ rest) =
      ofWriter w ++ (ts.map Table.tabular ++ readFrom none rest) := by
  obtain ⟨lines, hshown, hread⟩ := h.lines
  rw [hshown, List.append_assoc, hw, hread]

theorem Adds.ofWriter_append (h : Adds ts w w') (hw : Outside w) :
    ofWriter w' = ofWriter w ++ ts.map Table.tabular := by
  have hread := h.readFrom_append hw []
  rw [List.append_nil] at hread
  rw [ofWriter, ← LineWriter.shown, hread]
  simp [readFrom]

end Tabular

end RegAtlas
