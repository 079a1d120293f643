import RegAtlas.Yaml.Char

/-!
# Places in a text

What is left of a text, and where it begins.
-/

namespace RegAtlas.Yaml

/-- A place in a text. Lines and columns count from zero. -/
structure Cursor where
  rest : List Char
  line : Nat := 0
  column : Nat := 0
  /-- Number of characters before this place. -/
  index : Nat := 0
  deriving Repr

namespace Cursor

/-- The place behind one character. -/
def past (here : Cursor) (c : Char) : Cursor :=
  if isBreak c then
    { here with line := here.line + 1, column := 0, index := here.index + 1 }
  else { here with column := here.column + 1, index := here.index + 1 }

/-- The place behind so many characters. -/
def skip (n : Nat) (here : Cursor) : Cursor :=
  { (here.rest.take n).foldl past here with rest := here.rest.drop n }

/-- The longest run of characters with the property, and the place behind it. -/
def span (p : Char → Bool) (here : Cursor) : List Char × Cursor :=
  let run := here.rest.takeWhile p
  (run, here.skip run.length)

/-- The place behind the longest run of characters with the property. -/
def skipWhile (p : Char → Bool) (here : Cursor) : Cursor := (here.span p).2

/-- Whether a text stands here. -/
def sees (text : String) (here : Cursor) : Bool := text.toList.isPrefixOf here.rest

/-- Whether the mark of the beginning or end of a document stands here. -/
def atDocumentMark (here : Cursor) : Bool :=
  here.column == 0 && (here.sees "---" || here.sees "...") && isSpaced (here.rest.drop 3)

/-- The place behind blanks and a comment. -/
def skipComment (here : Cursor) : Cursor :=
  let behind := here.skipWhile isBlank
  if behind.sees "#" then behind.skipWhile (! isBreak ·) else behind

/-- The next line, if only blanks and a comment are left of this one. -/
def endLine? (here : Cursor) : Option Cursor :=
  let behind := here.skipComment
  match behind.rest with
  | [] => some behind
  | c :: _ => if isBreak c then some (behind.skip 1) else none

end Cursor

end RegAtlas.Yaml
