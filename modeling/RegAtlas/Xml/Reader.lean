import RegAtlas.Xml.Basic
import RegAtlas.Xml.Declaration
import RegAtlas.Xml.Doctype
import RegAtlas.Xml.Tag
import RegAtlas.Xml.Token.Lexer

/-!
# Reading XML

A machine that takes the tokens of a document one by one and builds its elements. It checks that the
document is well-formed and that prefixes are bound, and replaces references; the text of an entity
in content is read in place of the reference. White space between markup is dropped. A document may
have several root elements, of which the first is the result.
-/

namespace RegAtlas.Xml

/-- An element that is not yet closed. -/
structure Frame where
  tag : QName
  attributes : List (String × String)
  /-- The prefixes bound at this place. -/
  spaces : List String
  /-- The nodes read so far, backwards. -/
  children : List Node := []

/-- Where the machine is. Texts are held backwards. -/
inductive Mode where
  | content
  | reference (name : List Char)
  | opening (tag : OpenTag)
  /-- In the name of a tag that closes an element. -/
  | closing (run : NameRun)
  /-- Behind that name. -/
  | closed (name : QName)
  | comment (text : List Char)
  | cdata (text : List Char)
  /-- In the target of an instruction. -/
  | target (text : List Char)
  | instruction (target : String) (text : List Char)
  | declaration (mode : DeclarationMode) (d : Declaration)
  | doctype (mode : DoctypeMode)

/-- What has been read of a document before its first element. -/
inductive Prolog where
  | nothing
  | something
  | doctype
  | finished
  deriving DecidableEq

/-- The machine. -/
structure Reader where
  lexer : Lexer := {}
  mode : Mode := .content
  prolog : Prolog := .nothing
  version : Version := .v10
  encoding : Encoding := .utf8
  /-- The document began with the mark of an encoding, which no declaration can change. -/
  marked : Bool := false
  entities : Entities := []
  /-- Entities read in place of one reference of the document. -/
  expansions : Nat := 0
  /-- The text since the last markup, backwards. -/
  run : List Char := []
  /-- Nothing but white space has been seen since the last markup. The inside of a CDATA section is
  no markup here. -/
  blank : Bool := true
  /-- The open elements, innermost first. -/
  frames : List Frame := []
  root : Option Element := none

namespace Reader

/-- More entities in place of one reference are refused. -/
def maxExpansions : Nat := 10

/-- A reference to an entity is refused while more characters of other entities wait behind it. -/
def maxWaiting : Nat := 1000000

def goto (r : Reader) (mode : Mode) : Reader := { r with mode }

/-- Notes that something has been read. -/
def atLeast (r : Reader) (p : Prolog) : Reader :=
  { r with prolog := if r.prolog = .nothing || p = .finished then p else r.prolog }

/-- Adds a node to the innermost open element. -/
def add (r : Reader) (node : Node) : Reader :=
  match r.frames with
  | [] => r
  | f :: fs => { r with frames := { f with children := node :: f.children } :: fs }

/-- Ends a run of text. -/
def flush (r : Reader) : Reader :=
  let r' := if r.blank || r.run.isEmpty then r else r.add (.text (String.ofList r.run.reverse))
  { r' with run := [], blank := true }

/-- Closes the innermost open element. -/
def close (r : Reader) : Reader :=
  match r.frames with
  | [] => r
  | f :: fs =>
    let e : Element := {
      name := f.tag.name
      attributes := f.attributes
      children := f.children.reverse }
    match fs with
    | [] => { r with frames := [], root := r.root.or (some e) }
    | _ => { r with frames := fs }.add e.toNode

/-- The namespace of the prefix `xml`. -/
def xmlNamespace : String := "http://www.w3.org/XML/1998/namespace"

/-- The namespace of the prefix `xmlns`. -/
def xmlnsNamespace : String := "http://www.w3.org/2000/xmlns/"

/-- Whether a prefix may be bound to a namespace. -/
def isBindable (space value : String) : Bool :=
  space != "xmlns" && value != "" && (space != "xml" || value == xmlNamespace)

/-- Whether a namespace may be that of names without a prefix. -/
def isDefault (value : String) : Bool :=
  !(["xml", "xmlns", xmlNamespace, xmlnsNamespace].contains value)

/-- The attributes of a tag and the prefixes that it binds, if no attribute stands twice. -/
def bindings? : List (QName × List Char) → Option (List QName × List String ×
    List (String × String))
  | [] => some ([], [], [])
  | (name, value) :: rest => do
    let value := String.ofList value
    let (names, spaces, attributes) ← bindings? rest
    if name.space = "xmlns" then
      if isBindable name.name value then some (names, name.name :: spaces, attributes) else none
    else if name.space = "" && name.name = "xmlns" then
      if isDefault value then some (names, spaces, attributes) else none
    else if names.contains name then none
    else some (name :: names, spaces, (name.name, value) :: attributes)

/-- Begins an element. -/
def start? (r : Reader) (tag : OpenTag) : Option Reader := do
  let (names, bound, attributes) ← bindings? tag.attributes.reverse
  let spaces := bound ++ (r.frames.head?.map (·.spaces)).getD ["", "xml"]
  if tag.name.space = "xml" || tag.name.space = "xmlns" || !spaces.contains tag.name.space ||
      names.any (fun n => !spaces.contains n.space) then none
  else
    let frame : Frame := { tag := tag.name, attributes := attributesOf attributes, spaces }
    return { r.goto .content with frames := frame :: r.frames }

/-- Ends the innermost element, if it has the name. -/
def stop? (r : Reader) (name : QName) : Option Reader :=
  if (r.frames.head?.map (·.tag)) = some name then some (r.close.goto .content) else none

/-- Takes a token of content. -/
def content? (r : Reader) (t : Token) : Option Reader :=
  let inside := !r.frames.isEmpty
  match t with
  | .char c =>
    if !inside then if isSpace c then some (r.atLeast .something) else none
    else if isPlainChar r.version c then
      some { r with run := c :: r.run, blank := r.blank && isSpace c }
    else none
  | .tagEnd | .emptyTagEnd | .commentEnd | .instructionEnd | .equals | .quote _ | .semicolon =>
    if inside then some { r with run := t.text.reverse ++ r.run, blank := false } else none
  | .ampersand => if inside then some (r.goto (.reference [])) else none
  | .tagStart => some ((r.flush.atLeast .finished).goto (.opening {}))
  | .stopTagStart => if inside then some (r.flush.goto (.closing {})) else none
  | .commentStart => some ((r.flush.atLeast .something).goto (.comment []))
  | .cdataStart => if inside then some (r.flush.goto (.cdata [])) else none
  | .instructionStart => some (r.flush.goto (.target []))
  | .doctypeStart =>
    if r.prolog = .nothing || r.prolog = .something then
      some { r.goto (.doctype .outside) with prolog := .doctype }
    else none
  | .cdataEnd | .declarationStart => none

/-- Ends a reference in content. A reference makes the text around it count unless that has been
white space alone so far. The second component is text to be read before the rest. -/
def refer (r : Reader) (referent : Referent) : Reader × List Char :=
  let (run, text) := match referent with
    | .char c => (c :: r.run, [])
    | .entity text => (r.run, text)
  let blank := r.blank && !run.isEmpty && run.all isSpace
  ({ r.goto .content with run, blank }, text)

/-- Takes a token of the target of an instruction. The declaration stands at the beginning of the
document, and no other target is a spelling of `xml`. -/
def target? (r : Reader) (text : List Char) (t : Token) : Option Reader :=
  let target := String.ofList text.reverse
  let other := !Text.equalsIgnoringCase target "xml"
  match t with
  | .char c =>
    if isNamePart text.isEmpty c then some (r.goto (.target (c :: text)))
    else if !isSpace c then none
    else if target = "xml" && r.prolog = .nothing then
      some (r.goto (.declaration (.before .version) {}))
    else if other then some ((r.atLeast .something).goto (.instruction target []))
    else none
  | .instructionEnd =>
    if !text.isEmpty && other then
      some (((r.add (.instruction target "")).atLeast .something).goto .content)
    else none
  | _ => none

/-- Takes the declaration. A mark in front of the document stands for UTF-8. -/
def declare? (r : Reader) (d : Declaration) : Option Reader :=
  let encoding := d.encoding.getD .utf8
  if r.marked && encoding ≠ .utf8 then none
  else some { (r.atLeast .something).goto .content with version := d.version, encoding }

/-- Takes a token. The second component is text to be read before the rest. -/
def step? (r : Reader) (t : Token) : Option (Reader × List Char) :=
  let only (r : Option Reader) : Option (Reader × List Char) := r.map (·, [])
  match r.mode with
  | .content => only (r.content? t)
  | .reference name => (referenceStep? r.version r.entities name t).map fun
    | .more name => (r.goto (.reference name), [])
    | .done referent => r.refer referent
  | .opening tag => (tag.step? r.version r.entities t).bind fun
    | .more tag => some (r.goto (.opening tag), [])
    | .done tag closed => only ((r.start? tag).map fun r => if closed then r.close else r)
  | .closing run => (run.step? [.tagEnd] t).bind fun
    | .more run => some (r.goto (.closing run), [])
    | .done name => only (if t = .tagEnd then r.stop? name else some (r.goto (.closed name)))
  | .closed name =>
    match t with
    | .tagEnd => only (r.stop? name)
    | .char c => if isSpace c then some (r, []) else none
    | _ => none
  | .comment text =>
    match t with
    | .commentEnd =>
      some ((r.add (.comment (String.ofList text.reverse))).goto .content, [])
    | .char c => if isChar r.version c then some (r.goto (.comment (c :: text)), []) else none
    | t => some (r.goto (.comment (t.text.reverse ++ text)), [])
  | .cdata text =>
    match t with
    | .cdataEnd => some ((r.add (.cdata (String.ofList text.reverse))).goto .content, [])
    | .char c =>
      if isChar r.version c then
        some ({ r.goto (.cdata (c :: text)) with blank := r.blank && isSpace c }, [])
      else none
    | t => some (r.goto (.cdata (t.text.reverse ++ text)), [])
  | .target text => only (r.target? text t)
  | .instruction target text =>
    match t with
    | .instructionEnd =>
      some ((r.add (.instruction target (String.ofList text.reverse))).goto .content, [])
    | .char c =>
      if isChar r.version c then some (r.goto (.instruction target (c :: text)), []) else none
    | t => some (r.goto (.instruction target (t.text.reverse ++ text)), [])
  | .declaration mode d => (d.step? mode t).bind fun
    | .more mode d => some (r.goto (.declaration mode d), [])
    | .done d => only (r.declare? d)
  | .doctype mode => (mode.step? r.version r.entities t).map fun
    | .next mode entities => ({ r.goto (.doctype mode) with entities }, [])
    | .expand text entities => ({ r.goto (.doctype .outside) with entities }, text)
    | .done entities => ({ r.goto .content with entities }, [])

/-- Takes tokens. The second component is text to be read before the rest. -/
def takeTokens? (r : Reader) : List Token → Option (Reader × List Char)
  | [] => some (r, [])
  | t :: ts => do
    let (r, text) ← r.step? t
    let (r, texts) ← takeTokens? r ts
    return (r, text ++ texts)

/-- Takes a character. The second component is text to be read before the rest. -/
def takeChar? (r : Reader) (c : Char) : Option (Reader × List Char) := do
  let (tokens, lexer) ← r.lexer.step? c
  takeTokens? { r with lexer } tokens

/-- Takes characters. The number counts the characters that wait behind them, and `expand` takes the
text that an entity stands for. -/
def feedWith? (expand : Nat → Reader → List Char → Option Reader) :
    Nat → Reader → List Char → Option Reader
  | _, r, [] => some r
  | waiting, r, c :: cs => do
    let (r, text) ← r.takeChar? c
    let r ←
      if text.isEmpty then some r
      else if r.expansions < maxExpansions && waiting + cs.length ≤ maxWaiting then
        expand (waiting + cs.length) { r with expansions := r.expansions + 1 } text
      else none
    feedWith? expand waiting r cs

/-- Takes characters with the text of the entities that they name. The first argument bounds how
deep entities may be nested. -/
def feed? : Nat → Nat → Reader → List Char → Option Reader
  | 0 => feedWith? fun _ _ _ => none
  | depth + 1 => feedWith? (feed? depth)

/-- The characters that a character of the document stands for under the encoding. -/
def decode? (encoding : Encoding) (c : Char) : Option (List Char) :=
  match encoding with
  | .utf8 => some [c]
  | .latin1 => some ((String.singleton c).toUTF8.toList.map fun b => Char.ofNat b.toNat)
  | .ascii => if c.toNat < 0x80 then some [c] else none

/-- Takes the characters of a document. -/
def feedDocument? (r : Reader) : List Char → Option Reader
  | [] => some r
  | c :: cs => do
    let decoded ← decode? r.encoding c
    let r ← feed? maxExpansions 0 { r with expansions := 0 } decoded
    feedDocument? r cs

/-- The first root element of a finished document. -/
def result? (r : Reader) : Option Element :=
  match r.mode, r.lexer.mode with
  | .content, .between =>
    if r.frames.isEmpty && r.lexer.surroundings = .content then r.root else none
  | _, _ => none

end Reader

/-- Reads a document, if it is well-formed. -/
def parse? (document : String) : Option Element :=
  let r := match document.toList with
    | '\uFEFF' :: cs => Reader.feedDocument? { marked := true } cs
    | cs => Reader.feedDocument? {} cs
  r.bind Reader.result?

end RegAtlas.Xml
