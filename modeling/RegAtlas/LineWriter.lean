import RegAtlas.Bounded
import RegAtlas.Text.Wrap

/-!
# Writing indented lines

A writer holds the lines written so far, the current indentation and a queue of deferred closing
lines. Lines are only ever appended. The indentation has 64 bits: a step in that leaves them stops
the program, and there is no text.
-/

namespace RegAtlas

/-- Formatting of the written text. -/
structure Style where
  /-- Indentation step in characters. -/
  indent : Nat := 2
  /-- Indentation by blanks, otherwise by tabs. -/
  useSpaces : Bool := true
  /-- Written twice, it begins a comment line. -/
  commentChar : Char := '/'
  /-- Wrapped comments and rules stay within this width. -/
  maxLineLength : Nat := 80
  deriving DecidableEq, Inhabited, Repr

def Style.withCommentChar (style : Style) (c : Char) : Style := { style with commentChar := c }

/-- The state of a text being written. -/
structure LineWriter where
  style : Style := {}
  lines : Array String := #[]
  /-- Current indentation in characters. -/
  level : Nat := 0
  /-- Closing lines not yet written, oldest first. -/
  deferred : List String := []
  /-- The indentation has left 64 bits. The program has stopped there. -/
  stopped : Bool := false
  deriving Inhabited, Repr

namespace LineWriter

/-- Columns that a comment keeps for its marker and text, however deep the indentation. -/
def minCommentWidth : Nat := 24

def repeated (c : Char) (n : Nat) : String := String.ofList (List.replicate n c)

def push (w : LineWriter) (text : String) : LineWriter := { w with lines := w.lines.push text }

/-- Appends an empty line. -/
def blank (w : LineWriter) : LineWriter := w.push ""

/-- Appends a line at the current indentation. An empty line is not indented. -/
def line (w : LineWriter) (text : String) : LineWriter :=
  if text.isEmpty then w.blank
  else w.push (repeated (if w.style.useSpaces then ' ' else '\t') w.level ++ text)

/-- Queues a closing line. -/
def defer (w : LineWriter) (text : String) : LineWriter :=
  { w with deferred := w.deferred ++ [text] }

/-- Writes up to `count` deferred lines. -/
def flush (w : LineWriter) (count : Nat) : LineWriter :=
  (w.deferred.take count).foldl line { w with deferred := w.deferred.drop count }

/-- Writes every deferred line. -/
def flushAll (w : LineWriter) : LineWriter := w.flush w.deferred.length

def indentBy (w : LineWriter) (n : Nat) : LineWriter :=
  { w with
    level := w.level + n
    stopped := w.stopped || decide (Literal.bound ≤ w.level + n) }

def dedentBy (w : LineWriter) (n : Nat) : LineWriter := { w with level := w.level - n }

/-- One indentation step in. -/
def indent (w : LineWriter) : LineWriter := w.indentBy w.style.indent

/-- One indentation step out. -/
def dedent (w : LineWriter) : LineWriter := w.dedentBy w.style.indent

/-- The mark at the beginning of a comment line. -/
def marker (w : LineWriter) : String := repeated w.style.commentChar 2

/-- A line of the comment character. -/
def rule (w : LineWriter) (width : Nat) : LineWriter := w.line (repeated w.style.commentChar width)

/-- The shape of a comment block. -/
structure Comment where
  text : String
  /-- A title on a line of its own. -/
  caption : Option String := none
  /-- A framed block has a rule before and after it. -/
  framed : Bool := true
  /-- The text is filled into lines, otherwise written as one line. -/
  wrapped : Bool := true
  deriving Inhabited, Repr

/-- The indentation of a comment block. -/
def commentLevel (w : LineWriter) : Nat := min w.level (w.style.maxLineLength - minCommentWidth)

/-- The lines of a comment block without indentation, for a width in columns. -/
def Comment.body (c : Comment) (mark : String) (width : Nat) : List String :=
  let title := match c.caption with
    | some caption => [mark ++ " " ++ caption, mark]
    | none => []
  let text :=
    if c.wrapped then
      (Text.wrap (width - (mark.utf8ByteSize + 1)) c.text).map fun l => mark ++ " " ++ l
    else [Text.trimEnd (mark ++ " " ++ c.text)]
  title ++ text

/-- Writes a comment block. A block too deep for its text is written less indented than the lines
around it. -/
def comment (w : LineWriter) (c : Comment) : LineWriter :=
  let width := w.style.maxLineLength - w.commentLevel
  let ruled := fun (w : LineWriter) => if c.framed then w.rule width else w
  let body := (c.body w.marker width).foldl line (ruled { w with level := w.commentLevel })
  { ruled body with level := w.level }

/-- Writes every line of a text as a comment line, keeping its layout. -/
def commentLines (w : LineWriter) (text : String) : LineWriter :=
  (Text.lines text).foldl (fun w l => w.line (Text.trimEnd (w.marker ++ " " ++ l))) w

/-- Begins a construct. -/
def openScope (w : LineWriter) (opener : String) : LineWriter := (w.line opener).indent

/-- Ends a construct. -/
def closeScope (w : LineWriter) (closer : String) : LineWriter := w.dedent.line closer

/-- Writes a construct around its body. -/
def scope (w : LineWriter) (opener closer : String) (body : LineWriter → LineWriter) : LineWriter :=
  (body (w.openScope opener)).closeScope closer

/-- Appends lines at the current indentation. -/
def writeLines (w : LineWriter) (texts : List String) : LineWriter := texts.foldl line w

/-- The lines as a text. Every line ends with a line feed. -/
def finish (w : LineWriter) : String := w.lines.foldl (fun text l => text ++ l ++ "\n") ""

/-- The writer, unless the program has stopped on the way. -/
def checked (w : LineWriter) : Except Fault LineWriter :=
  if w.stopped then .error .outOfRange else .ok w

/-- The written text. -/
def text (w : LineWriter) : Except Fault String := do return (← w.checked).finish

end LineWriter

end RegAtlas
