import RegAtlas.Yaml.Node
import RegAtlas.Yaml.Token.Lexer

/-!
# The node of a text

The tokens of a text are put together to one node. A text holds one document.

An anchor gets the number of names that have been used for anchors before it, with its own if that
is among them, and its name stands for this number from there on. So an anchor that takes up a name
again may get the number that the next new name gets, too. An alias stands for the last node with
the number that its name has at this place.
-/

namespace RegAtlas.Yaml

/-- What is left to be read, and what has been declared. -/
structure NodeReader where
  tokens : List Token
  /-- What the handles of tags stand for. -/
  handles : List (String × Address) := []
  /-- Numbers by the names of anchors, each name once. -/
  numbers : List (String × Nat) := []
  /-- The numbers of the nodes with an anchor, latest first. -/
  begun : List Nat := []
  /-- Complete nodes with an anchor, each behind the count of those that began before it. -/
  complete : List (Nat × Node) := []

namespace NodeReader

/-- A step that takes tokens and may fail. -/
abbrev Read (α : Type) : Type := StateT NodeReader Option α

def peek : Read (Option Token) := return (← get).tokens.head?

def advance : Read Unit := modify fun r => { r with tokens := r.tokens.drop 1 }

/-- Takes the next token if it is the given one. -/
def accept (t : Token) : Read Bool := do
  if (← peek) = some t then
    advance
    return true
  else return false

def nextIn (ts : List Token) : Read Bool := do
  return (← peek).any ts.contains

/-! ### Properties -/

/-- Begins a node with an anchor. The result is the count of those before it. -/
def beginNode (name : String) : Read Nat := do
  let r ← get
  let number := r.numbers.length
  set { r with
    numbers := (name, number) :: r.numbers.filter (·.1 != name)
    begun := number :: r.begun }
  return r.begun.length

/-- Ends a node with an anchor. -/
def endNode (n : Node) (place : Nat) : Read Unit :=
  modify fun r => { r with complete := (place, n) :: r.complete }

/-- The alias with a name that has been used for an anchor. -/
def aliasNamed (name : String) : Read Node := do
  match (← get).numbers.lookup name with
  | some number => return .alias number
  | none => failure

/-- The nodes with an anchor by number, of which the latest comes first. -/
def anchored (r : NodeReader) : List (Nat × Node) :=
  r.begun.zipIdx.filterMap fun (number, later) =>
    (r.complete.lookup (r.begun.length - 1 - later)).map (number, ·)

def acceptAnchor : Read (Option String) := do
  match ← peek with
  | some (.anchor name) => advance; return some name
  | _ => return none

/-- Takes a tag and replaces its handle. -/
def acceptTag : Read (Option Address) := do
  match ← peek with
  | some (.tag handle suffix) =>
    advance
    if handle.isEmpty then return some suffix
    else match (← get).handles.lookup handle with
      | some lead => return some (lead ++ suffix)
      | none => failure
  | _ => return none

/-- Takes an anchor and a tag in any order. -/
def properties : Read (Option String × Option Address) := do
  match ← acceptAnchor with
  | some anchor => return (some anchor, ← acceptTag)
  | none =>
    let tag ← acceptTag
    return (← acceptAnchor, tag)

/-! ### Nodes -/

/-- Where a node stands: block collections may begin in a block, and dashes without indentation
behind a key. -/
inductive Place where
  | flow
  | block
  | behindKey
  deriving DecidableEq

mutual

/-- Reads a node. Here and below the first argument bounds the number of steps. -/
def node : Nat → Place → Read Node
  | 0, _ => failure
  | n + 1, place => do
    match ← peek with
    | some (.alias name) => advance; aliasNamed name
    | _ =>
      let (anchor, tag) ← properties
      let begun ← anchor.mapM beginNode
      let result ← content n place (anchor.isSome || tag.isSome) tag
      begun.forM (endNode result)
      return result

/-- Reads a node behind its properties. Where there are some, the rest may be missing. -/
def content : Nat → Place → Bool → Option Address → Read Node
  | 0, _, _, _ => failure
  | n + 1, place, mayBeEmpty, tag => do
    match ← peek with
    | some (.scalar style text) => advance; return .scalar style tag text
    | some .flowSequence => advance; return .sequence (← flowElements n true)
    | some .flowMapping => advance; return .mapping (← flowEntries n true)
    | some .blockEntry =>
      if place = .behindKey then return .sequence (← elementsBehindKey n)
      else noContent mayBeEmpty tag
    | some .blockSequence =>
      if place = .flow then noContent mayBeEmpty tag
      else advance; return .sequence (← blockElements n)
    | some .blockMapping =>
      if place = .flow then noContent mayBeEmpty tag
      else advance; return .mapping (← blockEntries n)
    | _ => noContent mayBeEmpty tag

/-- The node where nothing is written behind its properties. -/
def noContent (mayBeEmpty : Bool) (tag : Option Address) : Read Node :=
  if mayBeEmpty then return .scalar .plain tag "" else failure

/-- Reads a node unless one of the tokens follows, which stand behind a missing node. -/
def nodeUnless : Nat → Place → List Token → Read Node
  | 0, _, _ => failure
  | n + 1, place, ends => do
    if ← nextIn ends then return .empty else node n place

/-- Reads the elements of a block sequence to its end. -/
def blockElements : Nat → Read (List Node)
  | 0 => failure
  | n + 1 => do
    if ← accept .blockEntry then
      let first ← nodeUnless n .block [.blockEntry, .blockEnd]
      return first :: (← blockElements n)
    else if ← accept .blockEnd then return []
    else failure

/-- Reads the elements of a sequence that is not indented. No token ends it. -/
def elementsBehindKey : Nat → Read (List Node)
  | 0 => failure
  | n + 1 => do
    if ← accept .blockEntry then
      let first ← nodeUnless n .block [.blockEntry, .key, .value, .blockEnd]
      return first :: (← elementsBehindKey n)
    else return []

/-- Reads the entries of a block mapping to its end. -/
def blockEntries : Nat → Read (List (Node × Node))
  | 0 => failure
  | n + 1 => do
    let ends := [Token.key, .value, .blockEnd]
    if ← accept .key then
      let key ← nodeUnless n .behindKey ends
      let value ← if ← accept .value then nodeUnless n .behindKey ends else pure .empty
      return (key, value) :: (← blockEntries n)
    else if ← accept .blockEnd then return []
    else failure

/-- Reads the elements of a flow sequence to its end. A pair is a mapping of its own. -/
def flowElements : Nat → Bool → Read (List Node)
  | 0, _ => failure
  | n + 1, first => do
    if ← accept .flowSequenceEnd then return []
    else if first || (← accept .flowEntry) then
      let ends := [Token.flowEntry, .flowSequenceEnd]
      if ← accept .key then
        let key ← nodeUnless n .flow (.value :: ends)
        let value ← if ← accept .value then nodeUnless n .flow ends else pure .empty
        return .mapping [(key, value)] :: (← flowElements n false)
      else if ← accept .flowSequenceEnd then return []
      else
        let element ← node n .flow
        return element :: (← flowElements n false)
    else failure

/-- Reads the entries of a flow mapping to its end. A key may stand alone. -/
def flowEntries : Nat → Bool → Read (List (Node × Node))
  | 0, _ => failure
  | n + 1, first => do
    if ← accept .flowMappingEnd then return []
    else if first || (← accept .flowEntry) then
      let ends := [Token.flowEntry, .flowMappingEnd]
      if ← accept .key then
        let key ← nodeUnless n .flow (.value :: ends)
        let value ← if ← accept .value then nodeUnless n .flow ends else pure .empty
        return (key, value) :: (← flowEntries n false)
      else if ← accept .flowMappingEnd then return []
      else
        let key ← node n .flow
        return (key, .empty) :: (← flowEntries n false)
    else failure

end

/-! ### Documents -/

/-- The handles that need no declaration. -/
def standardHandles : List (String × Address) :=
  [("!", .ofString "!"), ("!!", .ofString "tag:yaml.org,2002:")]

/-- Takes directives: at most one version, which is known, and each handle once. The first argument
bounds their number. -/
def directives : Nat → Bool → Read Unit
  | 0, _ => failure
  | n + 1, versioned => do
    match ← peek with
    | some (.version major minor) =>
      if versioned || major ≠ 1 || !(minor = 1 || minor = 2) then failure
      else advance; directives n true
    | some (.handle name lead) =>
      if ((← get).handles.lookup name).isSome then failure
      else
        advance
        modify fun r => { r with handles := (name, lead) :: r.handles }
        directives n versioned
    | _ => return

/-- Whether the next token ends a document or precedes one. -/
def atDocumentEnd : Read Bool := do
  match ← peek with
  | none | some .documentStart | some .documentEnd | some (.version ..) | some (.handle ..) =>
    return true
  | _ => return false

/-- Reads a document. Directives have to be followed by the mark of its beginning. -/
def document (bound : Nat) : Read Node := do
  let implicit := !(← atDocumentEnd)
  directives bound false
  modify fun r => { r with handles := r.handles ++ standardHandles }
  if implicit then node bound .block
  else if ← accept .documentStart then
    if ← atDocumentEnd then return .empty else node bound .block
  else failure

end NodeReader

/-- What a text with one document stands for. -/
def parse? (text : String) : Option Graph := do
  let tokens ← tokens? text
  let (root, r) ← (NodeReader.document (4 * tokens.length + 4)).run { tokens }
  if r.tokens.all (· = .documentEnd) then some { root, anchored := r.anchored } else none

end RegAtlas.Yaml
