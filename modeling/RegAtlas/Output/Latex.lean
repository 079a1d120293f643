import RegAtlas.Text.Basic
import RegAtlas.LineWriter

/-!
# LaTeX tables

Escaped text, cells that span columns, and tables as rows of cells.
-/

namespace RegAtlas.Latex

/-- A character of running text. Characters with a meaning of their own are written by a command or
behind a backslash. -/
def escapeChar (c : Char) : List Char :=
  if c == '_' || c == '&' || c == '%' || c == '#' || c == '$' || c == '\x7b' || c == '\x7d' then
    ['\\', c]
  else if c == '\\' then "\\textbackslash\x7b\x7d".toList
  else if c == '~' then "\\textasciitilde\x7b\x7d".toList
  else if c == '^' then "\\textasciicircum\x7b\x7d".toList
  else [c]

def escapeChars (cs : List Char) : List Char := cs.flatMap escapeChar

/-- Running text for a document. -/
def escape (s : String) : String := String.ofList (escapeChars s.toList)

/-- A command with one argument. -/
def command (name argument : String) : String := "\\" ++ name ++ "\x7b" ++ argument ++ "\x7d"

def bold (text : String) : String := command "textbf" text

/-- Text on a grey cell. -/
def grey (text : String) : String := command "cellcolor" "gray!25" ++ text

/-- A cell of a table. -/
inductive Cell where
  | plain (text : String)
  /-- A cell over several columns, with its own column format. -/
  | spanning (columns : Nat) (format text : String)
  deriving DecidableEq, Repr

namespace Cell

/-- Number of columns that a cell takes. -/
def columns : Cell → Nat
  | plain _ => 1
  | spanning n _ _ => n

def text : Cell → String
  | plain text => text
  | spanning _ _ text => text

def render : Cell → String
  | plain text => text
  | spanning n format text =>
    command "multicolumn" (toString n) ++ "\x7b" ++ format ++ "\x7d\x7b" ++ text ++ "\x7d"

end Cell

/-- Cells for texts, in which a run of equal texts becomes one cell over its columns. Empty texts
stay apart. `first` holds at the left border of the table. -/
def mergeFrom (first : Bool) : List String → List Cell
  | [] => []
  | text :: rest =>
    let run := (rest.takeWhile (· == text)).length + 1
    if 1 < run && !text.isEmpty then
      .spanning run (if first then "|c|" else "c|") text :: mergeFrom false (rest.drop (run - 1))
    else .plain text :: mergeFrom false rest
termination_by texts => texts.length
decreasing_by all_goals simp; try omega

def merge (texts : List String) : List Cell := mergeFrom true texts

/-- A table. -/
structure Table where
  /-- Formats of the columns. -/
  columns : List String
  rows : List (List Cell)
  deriving DecidableEq, Repr

namespace Table

def renderRow (row : List Cell) : String := " & ".intercalate (row.map Cell.render) ++ " \\\\"

/-- The column formats between vertical lines. -/
def format (t : Table) : String := "|" ++ String.join (t.columns.map (· ++ "|"))

/-- Writes a table with a horizontal line around every row. -/
def write (t : Table) (w : LineWriter) : LineWriter :=
  w.scope (command "begin" "tabular" ++ "\x7b" ++ t.format ++ "\x7d") (command "end" "tabular")
    fun w => w.writeLines ("\\hline" :: t.rows.flatMap fun row => [renderRow row, "\\hline"])

end Table

end RegAtlas.Latex
