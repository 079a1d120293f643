import RegAtlas.Yaml.Cursor

/-!
# Scalars

The three ways to write a scalar: plain, between quotes, and as a block of lines. A line break
inside of a plain or quoted scalar is folded.
-/

namespace RegAtlas.Yaml

/-- How a scalar is written, as far as its meaning depends on it. -/
inductive ScalarStyle where
  | plain
  | literal
  | other
  deriving DecidableEq, Inhabited, Repr

/-- The text for blanks and line breaks inside of a scalar. The first break joins lines, further
ones are kept, and blanks are kept only where there is no break. -/
def fold (gap : List Char) : List Char :=
  match gap.filter isBreak with
  | [] => gap
  | ['\n'] => [' ']
  | '\n' :: breaks => breaks
  | breaks => breaks

/-! ### Quoted scalars -/

/-- The characters up to a single quote that ends the scalar. Two quotes stand for one. -/
def singleQuoted? : List Char → Option (List Char)
  | '\'' :: '\'' :: cs => (singleQuoted? cs).map ('\'' :: '\'' :: ·)
  | '\'' :: _ => some []
  | c :: cs => (singleQuoted? cs).map (c :: ·)
  | [] => none

/-- The characters up to the double quote that ends the scalar. -/
def doubleQuoted? : List Char → Option (List Char)
  | '\\' :: c :: cs => (doubleQuoted? cs).map ('\\' :: c :: ·)
  | '"' :: _ => some []
  | c :: cs => (doubleQuoted? cs).map (c :: ·)
  | [] => none

/-- Whether a line of a quoted scalar, not the first, begins with the mark of a document. -/
def holdsDocumentMark : List Char → Bool
  | [] => false
  | c :: cs =>
    (isBreak c && ([ "---", "..." ].any fun mark => mark.toList.isPrefixOf cs) &&
      (cs.drop 3).head?.any isGap) || holdsDocumentMark cs

/-- The text of a single quoted scalar. White space before the next character is held back. -/
def singleText (gap : List Char) : List Char → List Char
  | [] => fold gap.reverse
  | c :: cs =>
    if isGap c then singleText (c :: gap) cs
    else match c, cs with
      | '\'', '\'' :: cs => fold gap.reverse ++ '\'' :: singleText [] cs
      | c, cs => fold gap.reverse ++ c :: singleText [] cs

/-- What a backslash and one character stand for. -/
def escaped? (c : Char) : Option Char :=
  if c == '0' then some '\x00'
  else if c == 'a' then some '\x07'
  else if c == 'b' then some '\x08'
  else if c == 't' || c == '\t' then some '\t'
  else if c == 'n' then some '\n'
  else if c == 'v' then some '\x0b'
  else if c == 'f' then some '\x0c'
  else if c == 'r' then some '\r'
  else if c == 'e' then some '\x1b'
  else if c == ' ' || c == '"' || c == '/' || c == '\\' then some c
  else if c == 'N' then some '\x85'
  else if c == '_' then some '\xa0'
  else if c == 'L' then some '\u2028'
  else if c == 'P' then some '\u2029'
  else none

/-- The number of digits behind a backslash and this character. -/
def escapeWidth (c : Char) : Nat :=
  if c == 'x' then 2 else if c == 'u' then 4 else if c == 'U' then 8 else 0

def hexValue? (c : Char) : Option Nat :=
  if c.isDigit then some (c.toNat - 48)
  else if 'a' ≤ c && c ≤ 'f' then some (c.toNat - 87)
  else if 'A' ≤ c && c ≤ 'F' then some (c.toNat - 55)
  else none

/-- The number that hexadecimal digits denote. -/
def hexNumber? (digits : List Char) : Option Nat :=
  digits.foldlM (fun n c => (hexValue? c).map (16 * n + ·)) 0

/-- The character with a code. -/
def charOfCode? (n : Nat) : Option Char := if n.isValidChar then some (Char.ofNat n) else none

/-- The text of a double quoted scalar. White space before the next character is held back.
The first argument bounds the number of characters. -/
def doubleText? : Nat → List Char → List Char → Option (List Char)
  | _, gap, [] => some (fold gap.reverse)
  | 0, _, _ => none
  | n + 1, gap, c :: cs =>
    if isGap c then doubleText? n (c :: gap) cs
    else if c == '\\' then
      match cs with
      | [] => none
      | e :: cs =>
        if isBreak e then do
          let kept := (cs.takeWhile isGap).filter isBreak
          return fold gap.reverse ++ kept ++ (← doubleText? n [] (cs.dropWhile isGap))
        else
          let width := escapeWidth e
          if width == 0 then do
            return fold gap.reverse ++ (← escaped? e) :: (← doubleText? n [] cs)
          else if (cs.take width).length < width then none
          else do
            let c ← charOfCode? (← hexNumber? (cs.take width))
            return fold gap.reverse ++ c :: (← doubleText? n [] (cs.drop width))
    else return fold gap.reverse ++ c :: (← doubleText? n [] cs)

/-- Reads a quoted scalar. -/
def readQuoted? (here : Cursor) : Option (String × Cursor) := do
  match here.rest with
  | '\'' :: cs =>
    let raw ← singleQuoted? cs
    if holdsDocumentMark raw then none
    else return (String.ofList (singleText [] raw), here.skip (raw.length + 2))
  | '"' :: cs =>
    let raw ← doubleQuoted? cs
    if holdsDocumentMark raw then none
    else
      let text ← doubleText? raw.length [] raw
      return (String.ofList text, here.skip (raw.length + 2))
  | _ => none

/-! ### Plain scalars -/

/-- The characters of a plain scalar up to white space or a mark that ends it. -/
def plainRun? (inFlow : Bool) : List Char → Option (List Char)
  | [] => some []
  | c :: cs =>
    if isGap c || (c == ':' && isSpaced cs) || (inFlow && isFlowMark c) then some []
    else if inFlow && c == ':' && cs.head?.any (fun d => d == '?' || isFlowMark d) then none
    else (plainRun? inFlow cs).map (c :: ·)

/-- Whether a tab stands before a column in a line of the white space, not the first. -/
def tabBefore (column : Nat) : List Char → Bool
  | [] => false
  | c :: cs =>
    (isBreak c && ((cs.takeWhile isBlank).take column).contains '\t') || tabBefore column cs

/-- Reads a plain scalar from its first character or from white space inside of it. Its lines begin
at the column or behind it, except in flow style. The result tells whether a line break follows
the scalar. The first argument bounds the number of runs. -/
def readPlain? (inFlow : Bool) (column : Nat) : Nat → List Char → Cursor →
    Option (List Char × Bool × Cursor)
  | 0, _, _ => none
  | n + 1, gap, here => do
    let broken := gap.any isBreak
    if here.atDocumentMark || here.sees "#" then return ([], broken, here)
    let run ← plainRun? inFlow here.rest
    if run.isEmpty then return ([], broken, here)
    let (next, behind) := (here.skip run.length).span isGap
    let text := fold gap ++ run
    if next.isEmpty then return (text, false, behind)
    if tabBefore column next then none
    else if !inFlow && behind.column < column then return (text, next.any isBreak, behind)
    else
      let (more, broken, behind) ← readPlain? inFlow column n next behind
      return (text ++ more, broken, behind)

/-! ### Block scalars -/

/-- What becomes of the line breaks at the end of a block. -/
inductive Chomping where
  | strip
  | clip
  | keep
  deriving DecidableEq

/-- The header of a block scalar. -/
structure BlockHeader where
  chomping : Chomping := .clip
  /-- The given indentation. -/
  indent : Option Nat := none

def Chomping.ofChar? (c : Char) : Option Chomping :=
  if c == '+' then some .keep else if c == '-' then some .strip else none

/-- A given indentation. -/
def indentOfChar? (c : Char) : Option Nat :=
  if c.isDigit && c != '0' then some (c.toNat - 48) else none

/-- Reads a header, which has at most one mark of each kind. -/
def BlockHeader.read? (here : Cursor) : Option (BlockHeader × Cursor) := do
  let marks := here.rest.takeWhile fun c => c == '+' || c == '-' || c.isDigit
  let header ← match marks with
    | [] => some ({} : BlockHeader)
    | [c] =>
      match Chomping.ofChar? c, indentOfChar? c with
      | some chomping, _ => some { chomping }
      | none, some n => some { indent := some n }
      | none, none => none
    | [c, d] =>
      match Chomping.ofChar? c, indentOfChar? d, indentOfChar? c, Chomping.ofChar? d with
      | some chomping, some n, _, _ => some { chomping, indent := some n }
      | _, _, some n, some chomping => some { chomping, indent := some n }
      | _, _, _, _ => none
    | _ => none
  return (header, ← (here.skip marks.length).endLine?)

/-- Takes empty lines and the indentation of the next one. The results are the breaks, the place
behind and the widest indentation met. The first argument bounds the number of lines. -/
def blockBreaks? (indent : Option Nat) : Nat → Nat → Cursor → Option (List Char × Nat × Cursor)
  | 0, _, _ => none
  | n + 1, widest, here =>
    let spaces := (here.rest.takeWhile (· == ' ')).length
    let behind := here.skip (match indent with | some i => min spaces i | none => spaces)
    let widest := max widest behind.column
    match behind.rest with
    | [] => some ([], widest, behind)
    | c :: _ =>
      if c == '\t' && indent.all (behind.column < ·) then none
      else if isBreak c then
        (blockBreaks? indent n widest (behind.skip 1)).map fun (breaks, widest, behind) =>
          (c :: breaks, widest, behind)
      else some ([], widest, behind)

/-- What is left of the break of the last line and of the breaks of empty lines after it. -/
def Chomping.tail (chomping : Chomping) (ended breaks : List Char) : List Char :=
  match chomping with
  | .strip => []
  | .clip => ended
  | .keep => ended ++ breaks

/-- Line breaks before a line of a folded block. They are kept beside lines that begin with a
blank. -/
def foldLines (beside : Bool) (ended breaks : List Char) : List Char :=
  if ended == ['\n'] && !beside then if breaks.isEmpty then [' '] else breaks
  else ended ++ breaks

/-- Reads the lines of a block. The break of the line before, the breaks of empty lines after it,
and whether that line began with a blank are held back. The first argument bounds the number of
lines. -/
def blockLines? (literal : Bool) (chomping : Chomping) (indent : Nat) :
    Nat → List Char → List Char → Bool → Cursor → Option (List Char × Cursor)
  | 0, _, _, _, _ => none
  | n + 1, ended, breaks, afterBlank, here =>
    match here.rest with
    | [] => some (chomping.tail ended breaks, here)
    | c :: _ =>
      if here.column ≠ indent then some (chomping.tail ended breaks, here)
      else do
        let before := foldLines (literal || afterBlank || isBlank c) ended breaks
        let (line, behind) := here.span (! isBreak ·)
        let (empty, _, next) ← blockBreaks? (some indent) n 0 (behind.skip 1)
        let (more, last) ←
          blockLines? literal chomping indent n (behind.rest.take 1) empty (isBlank c) next
        return (before ++ line ++ more, last)

/-- Reads a block scalar behind its first mark. The column is the least one that its lines can
begin at, and the given indentation counts from the base. The first argument bounds the number of
lines. -/
def readBlock? (bound : Nat) (literal : Bool) (base column : Nat) (here : Cursor) :
    Option (String × Cursor) := do
  let (header, here) ← BlockHeader.read? here
  let given := header.indent.map (base + ·)
  let (breaks, widest, here) ← blockBreaks? given bound 0 here
  let indent := given.getD (max widest (max column 1))
  let (text, here) ← blockLines? literal header.chomping indent bound [] breaks false here
  return (String.ofList text, here)

end RegAtlas.Yaml
