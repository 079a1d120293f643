import RegAtlas.Text.Basic

/-!
# Lines of an entity declaration

A trimmed source line is recognised by its form: the first lines of an entity and of its lists, the
last line of either, rules of dashes, comments, and anything else as code.
-/

namespace RegAtlas.Entity

/-- What a source line is. -/
inductive Line where
  | entityStart
  | genericStart
  | portStart
  | entityEnd
  /-- Four or more dashes. -/
  | rule
  | comment (text : String)
  | listEnd
  | code (text : String)
  deriving DecidableEq, Repr

namespace Line

/-- Equality of letters in a keyword: case does not count, and the long s is an s. -/
def sameLetter (letter c : Char) : Bool :=
  c.toLower == letter || (letter == 's' && c == 'ſ')

/-- The rest of a text behind a keyword. -/
def dropKeyword? : List Char → List Char → Option (List Char)
  | [], cs => some cs
  | _ :: _, [] => none
  | letter :: letters, c :: cs =>
    if sameLetter letter c then dropKeyword? letters cs else none

/-- The rest of a text behind characters of a class. -/
def skip (p : Char → Bool) (cs : List Char) : List Char := cs.dropWhile p

/-- The rest of a text behind one or more characters of a class. -/
def skipSome? (p : Char → Bool) : List Char → Option (List Char)
  | c :: cs => if p c then some (skip p cs) else none
  | [] => none

/-- `entity NAME is` -/
def isEntityStart (cs : List Char) : Bool :=
  let rest := do
    let cs ← dropKeyword? ['e', 'n', 't', 'i', 't', 'y'] cs
    let cs ← skipSome? Text.isBlank cs
    let cs ← skipSome? Text.isWordChar cs
    let cs ← skipSome? Text.isBlank cs
    dropKeyword? ['i', 's'] cs
  rest == some []

/-- A keyword and an opening parenthesis. -/
def isListStart (keyword cs : List Char) : Bool :=
  match dropKeyword? keyword cs with
  | none => false
  | some cs => match skip Text.isBlank cs with
    | '(' :: cs => (skip Text.isBlank cs).isEmpty
    | _ => false

/-- Blanks and a semicolon that ends the line. -/
def isSemicolon (cs : List Char) : Bool := skip Text.isBlank cs == [';']

/-- `end entity NAME;` with or without a name. -/
def isEntityEnd (cs : List Char) : Bool :=
  let rest := do
    let cs ← dropKeyword? ['e', 'n', 'd'] cs
    let cs ← skipSome? Text.isBlank cs
    dropKeyword? ['e', 'n', 't', 'i', 't', 'y'] cs
  match rest with
  | none => false
  | some cs =>
    isSemicolon cs ||
      ((skipSome? Text.isBlank cs).bind (skipSome? Text.isWordChar)).any isSemicolon

/-- `);` -/
def isListEnd : List Char → Bool
  | ')' :: cs => isSemicolon cs
  | _ => false

/-- The text of a comment without the dashes around it. -/
def commentText (cs : List Char) : String :=
  String.ofList (Text.trimChars (Text.dropEndWhile (· == '-') (cs.dropWhile (· == '-'))))

/-- Recognises a trimmed line. -/
def classify (line : String) : Line :=
  let cs := line.toList
  if isEntityStart cs then .entityStart
  else if isListStart ['g', 'e', 'n', 'e', 'r', 'i', 'c'] cs then .genericStart
  else if isListStart ['p', 'o', 'r', 't'] cs then .portStart
  else if isEntityEnd cs then .entityEnd
  else if ['-', '-', '-', '-'].isPrefixOf cs then .rule
  else if ['-', '-'].isPrefixOf cs then .comment (commentText cs)
  else if isListEnd cs then .listEnd
  else .code line

end Line

end RegAtlas.Entity
