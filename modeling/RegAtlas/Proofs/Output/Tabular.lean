import RegAtlas.Proofs.LineWriter.Shown
import RegAtlas.Proofs.Output.Latex

/-!
# Tables in a generated text

The tables that a text holds, read off its lines: a table begins with the line that opens its
environment and ends with the line that closes it, and between them every line that is no rule is a
row. A line is what is written at once, whatever characters it holds.
-/

namespace RegAtlas

open Text (trimStart trimStartChars)

/-! ### Reading lines -/

/-- A table as the lines of a text show it. -/
structure Tabular where
  /-- The column specification. -/
  columns : String
  rows : List String

namespace Tabular

/-- The column specification of a line that opens a table. -/
def opening? (line : String) : Option String :=
  (Text.stripStart? "\\begin\x7btabular\x7d\x7b".toList line.toList).map fun rest =>
    String.ofList rest.dropLast

def closing : String := "\\end\x7btabular\x7d"

def rule : String := "\\hline"

/-- The tables of lines without indentation, behind a table that is still open. -/
def readFrom : Option Tabular → List String → List Tabular
  | t, [] => t.toList
  | none, line :: lines => match opening? line with
    | some columns => readFrom (some ⟨columns, []⟩) lines
    | none => readFrom none lines
  | some t, line :: lines =>
    if line = closing then t :: readFrom none lines
    else if line = rule then readFrom (some t) lines
    else readFrom (some { t with rows := t.rows ++ [line] }) lines

/-- The tables of a text being written. -/
def ofWriter (w : LineWriter) : List Tabular :=
  readFrom none (w.lines.toList.map trimStart)

/-- Every row takes as many columns as the column specification has. -/
def Full (t : Tabular) : Prop :=
  ∀ row ∈ t.rows, (Latex.spans row).sum = Latex.countColumns 0 t.columns.toList

end Tabular

/-! ### The lines of a writer -/

namespace LineWriter

variable (w : LineWriter)

@[simp] theorem shown_scope_writeLines (opener closer : String) (texts : List String) :
    (w.scope opener closer (·.writeLines texts)).shown =
      w.shown ++ (opener :: texts ++ [closer]).map trimStart := by
  have hindent : ∀ w : LineWriter, w.indent.shown = w.shown := fun _ => rfl
  have hdedent : ∀ w : LineWriter, w.dedent.shown = w.shown := fun _ => rfl
  simp [scope, openScope, closeScope, hindent, hdedent]

@[simp] theorem style_scope_writeLines (opener closer : String) (texts : List String) :
    (w.scope opener closer (·.writeLines texts)).style = w.style := by
  have hindent : ∀ w : LineWriter, w.indent.style = w.style := fun _ => rfl
  have hdedent : ∀ w : LineWriter, w.dedent.style = w.style := fun _ => rfl
  simp [scope, openScope, closeScope, hindent, hdedent]

theorem shown_note (text : String) : (w.comment (Output.note text)).shown = w.shown ++
    ((Output.note text).body w.marker (w.style.maxLineLength - w.commentLevel)).map trimStart :=
  shown_writeLines { w with level := w.commentLevel } _

theorem style_note (text : String) : (w.comment (Output.note text)).style = w.style :=
  style_writeLines { w with level := w.commentLevel } _

end LineWriter

/-! ### Reading back a table -/

namespace Tabular

open Latex

theorem opening?_of_beginsPlain {text : String} (h : BeginsPlain text.toList) :
    opening? (trimStart text) = none := by
  rw [opening?, Text.stripStart?, if_neg, Option.map_none]
  simp only [ List.isPrefixOf_iff_prefix, trimStart, String.toList_ofList]
  exact fun hstart => h 'b' (by decide) (.trans ⟨_, rfl⟩ hstart)

theorem readFrom_none_append {lines : List String} (h : ∀ line ∈ lines, opening? line = none)
    (rest : List String) : readFrom none (lines ++ rest) = readFrom none rest := by
  induction lines with
  | nil => rfl
  | cons line lines ih =>
    rw [List.forall_mem_cons] at h
    rw [List.cons_append, readFrom, h.1, ih h.2]

theorem trimStartChars_concat {cs : List Char} {c : Char} (hc : Text.isBlank c = false) :
    trimStartChars (cs ++ [c]) = trimStartChars cs ++ [c] := by
  induction cs with
  | nil => simp [trimStartChars, hc]
  | cons d cs ih =>
    simp only [trimStartChars, List.cons_append, List.dropWhile_cons] at ih ⊢
    split
    · exact ih
    · rfl

/-- A row ends with a backslash, unlike the lines that are no rows. -/
theorem trimStart_renderRow_ne {row : List Cell} {line : String}
    (h : line.toList.getLast? ≠ some '\\') : trimStart (Table.renderRow row) ≠ line := by
  rintro rfl
  refine h ?_
  have hrow : (Table.renderRow row).toList =
      ((" & ".intercalate (row.map Cell.render)).toList ++ " \\".toList) ++ ['\\'] := by
    simp [Table.renderRow]
  rw [trimStart, String.toList_ofList, hrow, trimStartChars_concat (by decide),
    List.getLast?_concat]

end Tabular

/-- The table as its lines show it. -/
def Latex.Table.tabular (t : Latex.Table) : Tabular :=
  ⟨t.format, t.rows.map fun row => trimStart (renderRow row)⟩

namespace Tabular

open Latex

theorem readFrom_rows (rows : List (List Cell)) (t : Tabular) (rest : List String) :
    readFrom (some t)
        ((rows.flatMap fun row => [Table.renderRow row, rule]).map trimStart ++ rest) =
      readFrom (some { t with
        rows := t.rows ++ rows.map fun row => trimStart (Table.renderRow row) }) rest := by
  induction rows generalizing t with
  | nil => simp
  | cons row rows ih =>
    have hclosing : trimStart (Table.renderRow row) ≠ closing := trimStart_renderRow_ne (by decide)
    have hrow : trimStart (Table.renderRow row) ≠ rule := trimStart_renderRow_ne (by decide)
    have hrule : trimStart rule = rule := by decide
    have hrule' : rule ≠ closing := by decide
    simp [readFrom, hclosing, hrow, hrule, hrule', ih]

theorem opening?_begin (format : String) :
    opening? (trimStart (command "begin" "tabular" ++ "\x7b" ++ format ++ "\x7d")) =
      some format := by
  have hopener : (command "begin" "tabular" ++ "\x7b" ++ format ++ "\x7d").toList =
      "\\begin\x7btabular\x7d\x7b".toList ++ (format.toList ++ ['\x7d']) := by
    simp [command]
  have htrim : (trimStart (command "begin" "tabular" ++ "\x7b" ++ format ++ "\x7d")).toList =
      "\\begin\x7btabular\x7d\x7b".toList ++ (format.toList ++ ['\x7d']) := by
    rw [trimStart, hopener]
    exact String.toList_ofList.trans (List.dropWhile_cons_of_neg (by decide))
  rw [opening?, htrim, Text.stripStart?_append]
  simp

/-- The lines of a table are read as the table. -/
theorem readFrom_table (t : Table) (rest : List String) :
    readFrom none (((command "begin" "tabular" ++ "\x7b" ++ t.format ++ "\x7d") ::
      ("\\hline" :: t.rows.flatMap fun row => [Table.renderRow row, "\\hline"]) ++
        [command "end" "tabular"]).map trimStart ++ rest) = t.tabular :: readFrom none rest := by
  have hrule : trimStart "\\hline" = rule := by decide
  have hrule' : rule ≠ closing := by decide
  have hclosing : trimStart (command "end" "tabular") = closing := by decide
  have hrows := readFrom_rows t.rows ⟨t.format, []⟩ (closing :: rest)
  simp only [List.map_append, List.map_cons, List.cons_append, List.map_nil, List.append_assoc,
    hrule, hclosing, readFrom, opening?_begin, hrule', if_false, if_true, List.nil_append]
    at hrows ⊢
  rw [show ("\\hline" : String) = rule from rfl, hrows]
  rfl

/-! ### Writing tables -/

/-- The text goes on with lines that show the tables and no other ones. -/
structure Adds (ts : List Table) (w w' : LineWriter) : Prop where
  style : w'.style = w.style
  lines : ∃ lines, w'.shown = w.shown ++ lines ∧
    ∀ rest, readFrom none (lines ++ rest) = ts.map Table.tabular ++ readFrom none rest

variable {ts ts' : List Table} {w w' w'' : LineWriter}

theorem Adds.refl (w : LineWriter) : Adds [] w w := ⟨rfl, [], by simp, fun _ => rfl⟩

theorem Adds.trans (h : Adds ts w w') (h' : Adds ts' w' w'') : Adds (ts ++ ts') w w'' := by
  obtain ⟨lines, hshown, hread⟩ := h.lines
  obtain ⟨lines', hshown', hread'⟩ := h'.lines
  refine ⟨h'.style.trans h.style, lines ++ lines', ?_, fun rest => ?_⟩
  · rw [hshown', hshown, List.append_assoc]
  · rw [List.append_assoc, hread, hread', List.map_append, List.append_assoc]

/-- Behind the tables, the text goes on without one. -/
theorem Adds.trans_nil (h : Adds ts w w') (h' : Adds [] w' w'') : Adds ts w w'' :=
  List.append_nil ts ▸ h.trans h'

/-- Lines that open no table. -/
theorem adds_nil (texts : List String) (hstyle : w'.style = w.style)
    (hshown : w'.shown = w.shown ++ texts.map trimStart)
    (h : ∀ text ∈ texts, opening? (trimStart text) = none) : Adds [] w w' :=
  ⟨hstyle, _, hshown, readFrom_none_append (List.forall_mem_map.2 h)⟩

theorem adds_line {text : String} (h : BeginsPlain text.toList) (w : LineWriter) :
    Adds [] w (w.line text) :=
  adds_nil [text] (w.style_line text) (w.shown_line text)
    (List.forall_mem_singleton.2 (opening?_of_beginsPlain h))

theorem adds_blank (w : LineWriter) : Adds [] w w.blank :=
  adds_nil [""] w.style_blank w.shown_blank (by decide)

theorem adds_table (t : Table) (w : LineWriter) : Adds [t] w (t.write w) where
  style := by simp [Table.write]
  lines := ⟨_, by simp [Table.write], readFrom_table t⟩

theorem adds_foldl {α : Type} {tables : α → List Table} {write : LineWriter → α → LineWriter}
    (as : List α) (h : ∀ w, ∀ a ∈ as, Adds (tables a) w (write w a)) (w : LineWriter) :
    Adds (as.flatMap tables) w (as.foldl write w) := by
  induction as generalizing w with
  | nil => exact .refl w
  | cons a as ih =>
    rw [List.foldl_cons, List.flatMap_cons]
    exact (h w a List.mem_cons_self).trans
      (ih (fun w a ha => h w a (List.mem_cons_of_mem _ ha)) _)

/-- A line behind the marker of a comment opens no table. -/
theorem beginsPlain_marker (hw : w.style.commentChar = '%') (text : String) :
    BeginsPlain (w.marker ++ " " ++ text).toList := by
  have hmarker : (w.marker ++ " " ++ text).toList = '%' :: ('%' :: ' ' :: text.toList) := by
    simp [LineWriter.marker, LineWriter.repeated, hw, List.replicate]
  intro letter _ hstart
  rw [hmarker, trimStartChars, List.dropWhile_cons_of_neg (by decide)] at hstart
  exact absurd (List.cons_prefix_cons.1 hstart).1 (by decide)

theorem adds_note (hw : w.style.commentChar = '%') (text : String) :
    Adds [] w (w.comment (Output.note text)) := by
  refine adds_nil _ (w.style_note text) (w.shown_note text) fun line hline => ?_
  simp only [LineWriter.Comment.body, Output.note, List.nil_append, if_true, List.mem_map] at hline
  obtain ⟨words, -, rfl⟩ := hline
  exact opening?_of_beginsPlain (beginsPlain_marker hw words)

theorem adds_commentLines (hw : w.style.commentChar = '%') (text : String) :
    Adds [] w (w.commentLines text) := by
  rw [LineWriter.commentLines]
  induction Text.lines text generalizing w with
  | nil => exact .refl w
  | cons line lines ih =>
    rw [List.foldl_cons]
    refine (adds_line (beginsPlain_trimEnd (beginsPlain_marker hw line)) w).trans (ih ?_)
    rw [LineWriter.style_line, hw]

theorem adds_preamble (hw : w.style.commentChar = '%') (license : Option String) :
    Adds [] w (Output.preamble license w) := by
  have hnote : ∀ w : LineWriter, w.style.commentChar = '%' →
      Adds [] w (w.comment (Output.note "This file is autogenerated, DO NOT EDIT!")).blank :=
    fun w hw => (adds_note hw _).trans (adds_blank _)
  cases license with
  | none => exact hnote w hw
  | some text =>
    have hlicense := (adds_commentLines hw text).trans (adds_blank _)
    refine hlicense.trans (hnote _ ?_)
    rw [hlicense.style, hw]

theorem ofWriter_eq (h : Adds ts w w') (hw : w.shown = []) :
    ofWriter w' = ts.map Table.tabular := by
  obtain ⟨lines, hshown, hread⟩ := h.lines
  have hall := hread []
  rw [List.append_nil] at hall
  rw [ofWriter, ← LineWriter.shown, hshown, hw, List.nil_append, hall, readFrom]
  simp

end Tabular

end RegAtlas
