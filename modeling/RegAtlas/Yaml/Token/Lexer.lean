import RegAtlas.Yaml.Tag

/-!
# The tokens of a text

A lexer goes through a text once and keeps the open block collections. Whether a node is a key
is seen only at the colon behind it, so the places where a key may have begun are kept too, one
for each open bracket.
-/

namespace RegAtlas.Yaml

/-- A place where a key may have begun. -/
structure KeyStart where
  /-- Number of tokens before it. -/
  position : Nat
  /-- A node at this place has to be a key. -/
  required : Bool
  line : Nat
  column : Nat
  index : Nat

structure Lexer where
  here : Cursor
  /-- The tokens so far, backwards. -/
  tokens : List Token := []
  /-- Number of tokens so far. -/
  count : Nat := 0
  /-- Columns of the open block collections, innermost first. -/
  indents : List Nat := []
  /-- Where a key may have begun inside of the innermost bracket. -/
  start : Option KeyStart := none
  /-- Where a key may have begun around the open brackets, innermost first. -/
  outer : List (Option KeyStart) := []
  /-- A key may begin at this place. -/
  keyAllowed : Bool := true

namespace Lexer

def inFlow (l : Lexer) : Bool := !l.outer.isEmpty

/-- The least column behind the innermost block collection. -/
def minColumn (l : Lexer) : Nat := (l.indents.head?.map (· + 1)).getD 0

def goto (l : Lexer) (here : Cursor) : Lexer := { l with here }

def emit (l : Lexer) (t : Token) : Lexer := { l with tokens := t :: l.tokens, count := l.count + 1 }

/-- Emits a token that stands here and has so many characters. -/
def take (l : Lexer) (t : Token) (length : Nat) : Lexer := (l.emit t).goto (l.here.skip length)

/-- Puts a token before all but the first ones, so many of them. -/
def insert (l : Lexer) (position : Nat) (t : Token) : Lexer :=
  let later := l.count - position
  { l with tokens := l.tokens.take later ++ t :: l.tokens.drop later, count := l.count + 1 }

def allowKey (l : Lexer) (allowed : Bool) : Lexer := { l with keyAllowed := allowed }

/-! ### Keys -/

/-- Gives up a place where a key may have begun, unless a key has to stand there. -/
def giveUp? : Option KeyStart → Option (Option KeyStart)
  | some k => if k.required then none else some none
  | none => some none

/-- Gives up the place inside of the innermost bracket. -/
def dropKey? (l : Lexer) : Option Lexer := (giveUp? l.start).map fun start => { l with start }

/-- A key stays on one line and is not longer than this. -/
def maxKeyLength : Nat := 1024

def isStale (here : Cursor) (k : KeyStart) : Bool :=
  k.line < here.line || k.index + maxKeyLength < here.index

/-- Gives up the places that are too far back. -/
def dropStale? (l : Lexer) : Option Lexer := do
  let renew := fun (start : Option KeyStart) =>
    if start.any (isStale l.here) then giveUp? start else some start
  return { l with start := ← renew l.start, outer := ← l.outer.mapM renew }

/-- Notes that a key may begin here. -/
def noteKey? (l : Lexer) : Option Lexer :=
  if l.keyAllowed then do
    let l ← l.dropKey?
    let start : KeyStart := {
      position := l.count
      required := !l.inFlow && l.indents.head? == some l.here.column
      line := l.here.line
      column := l.here.column
      index := l.here.index }
    return { l with start := some start }
  else some l

/-! ### Block collections -/

/-- Opens a block collection at a column, if it is behind the innermost one. Its token gets the
position. -/
def openBlock (l : Lexer) (t : Token) (column position : Nat) : Lexer :=
  if !l.inFlow && l.minColumn ≤ column then
    { l.insert position t with indents := column :: l.indents }
  else l

/-- Closes the block collections behind a column. -/
def closeBehind (column : Nat) (l : Lexer) : List Nat → Lexer
  | [] => { l with indents := [] }
  | i :: is =>
    if column < i then closeBehind column (l.emit .blockEnd) is else { l with indents := i :: is }

def closeBlocks (l : Lexer) (column : Nat) : Lexer :=
  if l.inFlow then l else closeBehind column l l.indents

/-- Closes all block collections. -/
def closeAll (l : Lexer) : Lexer :=
  if l.inFlow then l
  else { l.indents.foldl (fun l _ => l.emit .blockEnd) l with indents := [] }

/-! ### Tokens -/

/-- The mark of an encoding, which may stand before a line. -/
def byteOrderMark : String := "\uFEFF"

/-- Goes to the next token, over white space and comments. A tab does not indent. The first
argument bounds the number of lines. -/
def skipSpace : Nat → Lexer → Lexer
  | 0, l => l
  | n + 1, l =>
    let marked := l.here.column == 0 && l.here.sees byteOrderMark
    let start := if marked then l.here.skip 1 else l.here
    let tabs := l.inFlow || !l.keyAllowed
    let behind := start.skipWhile fun c => c == ' ' || (tabs && c == '\t')
    let behind := if behind.sees "#" then behind.skipWhile (! isBreak ·) else behind
    if behind.rest.head?.any isBreak then
      skipSpace n ((l.goto (behind.skip 1)).allowKey (l.keyAllowed || !l.inFlow))
    else l.goto behind

def takeDirective? (l : Lexer) : Option Lexer := do
  let l ← l.closeAll.dropKey?
  let (token, behind) ← readDirective? (l.here.skip 1)
  return ((l.allowKey false).emit token).goto behind

def takeDocumentMark? (l : Lexer) : Option Lexer := do
  let l ← l.closeAll.dropKey?
  return (l.allowKey false).take (if l.here.sees "-" then .documentStart else .documentEnd) 3

def openFlow? (l : Lexer) (t : Token) : Option Lexer := do
  let l ← l.noteKey?
  return ({ l with start := none, outer := l.start :: l.outer }.allowKey true).take t 1

def closeFlow? (l : Lexer) (t : Token) : Option Lexer := do
  let l ← l.dropKey?
  let l := match l.outer with
    | [] => l
    | start :: outer => { l with start, outer }
  return (l.allowKey false).take t 1

def takeFlowEntry? (l : Lexer) : Option Lexer := do
  return ((← l.dropKey?).allowKey true).take .flowEntry 1

/-- Takes the dash of an element. -/
def takeBlockEntry? (l : Lexer) : Option Lexer := do
  if !l.inFlow && !l.keyAllowed then none
  else
    let l := l.openBlock .blockSequence l.here.column l.count
    return ((← l.dropKey?).allowKey true).take .blockEntry 1

/-- Takes the question mark of a key. -/
def takeKey? (l : Lexer) : Option Lexer := do
  if !l.inFlow && !l.keyAllowed then none
  else
    let l := l.openBlock .blockMapping l.here.column l.count
    return ((← l.dropKey?).allowKey (!l.inFlow)).take .key 1

/-- Takes the colon of a value. What stands where a key may have begun is the key of it. -/
def takeValue? (l : Lexer) : Option Lexer :=
  match l.start with
  | some k =>
    let l := (l.insert k.position .key).openBlock .blockMapping k.column k.position
    some ({ l with start := none, keyAllowed := false }.take .value 1)
  | none =>
    if !l.inFlow && !l.keyAllowed then none
    else
      let l := l.openBlock .blockMapping l.here.column l.count
      some ((l.allowKey (!l.inFlow)).take .value 1)

/-- Takes an alias or anchor. -/
def takeAnchor? (l : Lexer) (token : String → Token) : Option Lexer := do
  let l ← l.noteKey?
  let (name, behind) ← readAnchor? (l.here.skip 1)
  return ((l.allowKey false).emit (token name)).goto behind

def takeTag? (l : Lexer) : Option Lexer := do
  let l ← l.noteKey?
  let (token, behind) ← readTag? l.inFlow l.here
  return ((l.allowKey false).emit token).goto behind

def takeBlockScalar? (bound : Nat) (l : Lexer) (literal : Bool) : Option Lexer := do
  let l ← l.dropKey?
  let (text, behind) ←
    readBlock? bound literal (l.indents.head?.getD 0) l.minColumn (l.here.skip 1)
  let style := if literal then ScalarStyle.literal else .other
  return ((l.allowKey true).emit (.scalar style text)).goto behind

def takeQuoted? (l : Lexer) : Option Lexer := do
  let l ← l.noteKey?
  let (text, behind) ← readQuoted? l.here
  return ((l.allowKey false).emit (.scalar .other text)).goto behind

def takePlain? (bound : Nat) (l : Lexer) : Option Lexer := do
  let l ← l.noteKey?
  let (text, broken, behind) ← readPlain? l.inFlow l.minColumn bound [] l.here
  return ((l.allowKey broken).emit (.scalar .plain (String.ofList text))).goto behind

/-- Takes the token that begins with a character. The first argument bounds the number of lines. -/
def takeToken? (bound : Nat) (l : Lexer) (c : Char) (after : List Char) : Option Lexer :=
  let apart := l.inFlow || isSpaced after
  if l.here.column == 0 && c == '%' then l.takeDirective?
  else if l.here.atDocumentMark then l.takeDocumentMark?
  else if c == '[' then l.openFlow? .flowSequence
  else if c == '\x7b' then l.openFlow? .flowMapping
  else if c == ']' then l.closeFlow? .flowSequenceEnd
  else if c == '\x7d' then l.closeFlow? .flowMappingEnd
  else if c == ',' then l.takeFlowEntry?
  else if c == '-' && isSpaced after then l.takeBlockEntry?
  else if c == '?' && apart then l.takeKey?
  else if c == ':' && apart then l.takeValue?
  else if c == '*' then l.takeAnchor? .alias
  else if c == '&' then l.takeAnchor? .anchor
  else if c == '!' then l.takeTag?
  else if c == '|' && !l.inFlow then takeBlockScalar? bound l true
  else if c == '>' && !l.inFlow then takeBlockScalar? bound l false
  else if c == '\'' || c == '"' then l.takeQuoted?
  else if isGap c || "#|>%@".toList.contains c || c.toNat == 0x60 then none
  else takePlain? bound l

/-- Takes all tokens. The first argument bounds the number of characters that are left, and so of
lines and tokens. -/
def run? : Nat → Lexer → Option Lexer
  | 0, _ => none
  | n + 1, l => do
    let l ← (skipSpace (n + 1) l).dropStale?
    let l := l.closeBlocks l.here.column
    match l.here.rest with
    | [] => l.closeAll.dropKey?
    | c :: after => run? n (← takeToken? (n + 1) l c after)

end Lexer

/-- The tokens of a text. -/
def tokens? (text : String) : Option (List Token) := do
  let cs := withLineFeeds text.toList
  if cs.all isPrintable then
    return (← Lexer.run? (cs.length + 1) { here := { rest := cs } }).tokens.reverse
  else none

end RegAtlas.Yaml
