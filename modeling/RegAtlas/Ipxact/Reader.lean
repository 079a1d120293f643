import RegAtlas.Component.Identity
import RegAtlas.Ipxact.Error
import RegAtlas.Reference
import RegAtlas.Repeat
import RegAtlas.Xml.Reader

/-!
# Reading IP-XACT

A component is built from the element tree of a document. Elements are known by their local names;
unknown ones are passed over. A property is given by the last child element for it, and children of
a node are read in order.

Every node takes an identifier when it is made: most nodes before what they own, parameters and
vendor extensions after it. References that a later one replaces have taken theirs as well. The
readers are told how a node gets its identity.
-/

namespace RegAtlas.Ipxact

open Xml (Element)

/-! ### Texts of an element -/

/-- The text of the last child with one of the names. -/
def text? (e : Element) (names : List String) : Option String :=
  (e.last? names).map Element.content

/-- The keyword in the last child with one of the names. -/
def keyword {α : Type} [Keyword α] (e : Element) (names : List String) : α :=
  ((text? e names).map Keyword.ofText).getD Keyword.unset

/-- The name and documentation that an element gives its node. -/
def label (e : Element) : Label :=
  { name := (text? e ["name"]).getD ""
    displayName := text? e ["displayName"]
    description := text? e ["description"] }

/-- The test constraint that a child of a field gives, in an element of its own or as an attribute
of the element for testability. -/
def testConstraint? (e : Element) : Option TestConstraint :=
  if e.name = "testConstraint" then some (Keyword.ofText e.content)
  else if e.name = "testable" then (e.attribute? "testConstraint").map Keyword.ofText
  else none

/-- The constraint that a child of a structured constraint stands for. -/
def constraintPart? (e : Element) : Option WriteValueConstraint :=
  if e.name = "writeAsRead" then some .writeAsRead
  else if e.name = "useEnumeratedValues" then some .useEnumeratedValues
  else if e.name = "minimum" ∨ e.name = "maximum" then some .setMinimumAndMaximumLimits
  else none

/-- The write constraints that a child of a field gives. The element holds a keyword or, if it has
child elements, one of these for the constraint. -/
def writeConstraints (e : Element) : List WriteValueConstraint :=
  if e.name = "writeValueConstraint" then
    if e.elements.isEmpty then [Keyword.ofText e.content] else e.elements.filterMap constraintPart?
  else []

/-! ### Requirements -/

/-- Refuses siblings of which two have one name. -/
def requireDistinct (kind parent : String) (names : List String) : Except DocumentError Unit :=
  match firstRepeat? id [] names with
  | some name => .error (.duplicateName kind name parent)
  | none => .ok ()

/-- Refuses parameters of which two have one key. -/
def requireDistinctKeys (ps : List Parameter) : Except DocumentError Unit :=
  match firstRepeat? Parameter.key [] ps with
  | some p => .error (.duplicateParameterId p.key p.name)
  | none => .ok ()

/-- A number that has to be one. -/
def number (e : Element) : Except DocumentError Nat :=
  match Literal.parse? e.content with
  | some n => .ok n
  | none => .error (.invalidNumber e.name e.content)

/-- An attribute that has to be there. -/
def requireAttribute (e : Element) (name : String) : Except DocumentError String :=
  match e.attribute? name with
  | some value => .ok value
  | none => .error (.missingAttribute e.name name)

/-- The text of a child that has to be there. -/
def requireText (e : Element) (name : String) : Except DocumentError String :=
  match text? e [name] with
  | some text => .ok text
  | none => .error (.missingElement e.name name)

def vlnv (e : Element) : Except DocumentError Vlnv := do
  return {
    vendor := ← requireText e "vendor"
    library := ← requireText e "library"
    name := ← requireText e "name"
    version := ← requireText e "version" }

/-! ### What the children of an element give -/

/-- What a child element gives the node of its parent. -/
inductive Part (α : Type) where
  /-- A reference, with the tag of the element that holds it. -/
  | reference (tag : String) (r : Reference)
  | number (n : Nat)
  /-- A node of a list. -/
  | node (a : α)

namespace Part

variable {α : Type}

def reference? (tags : List String) : Part α → Option Reference
  | reference tag r => if tag ∈ tags then some r else none
  | _ => none

def number? : Part α → Option Nat
  | number n => some n
  | _ => none

def node? : Part α → Option α
  | node a => some a
  | _ => none

variable (parts : List (Part α))

/-- The last reference with one of the tags. -/
def last? (tags : List String) : Option Reference := (parts.filterMap (reference? tags)).getLast?

def nodes : List α := parts.filterMap node?

end Part

section

variable {m : Type → Type} [Monad m] [MonadLiftT (Except DocumentError) m] (fresh : m Node)

def value (text : String) : m Value := do
  return { toNode := ← fresh, text }

def reference (e : Element) : m Reference := do
  return { Reference.ofText e.content with toNode := ← fresh }

/-- Reads the children of an element in order. Those with one of the tags hold references. -/
def readParts {α : Type} (tags : List String) (other : Element → m (List (Part α))) (e : Element) :
    m (List (Part α)) := do
  let parts ← e.elements.mapM fun child =>
    if child.name ∈ tags then do return [.reference child.name (← reference fresh child)]
    else other child
  return parts.flatten

/-- A child with the tag gives a node. -/
def nodePart {α : Type} (tag : String) (read : Element → m α) (e : Element) : m (List (Part α)) :=
  if e.name = tag then do return [.node (← read e)] else return []

/-! ### Fields -/

def reset (e : Element) : m Reset := do
  let node ← fresh
  let parts : List (Part Empty) ← readParts fresh ["value", "mask"] (fun _ => return []) e
  return {
    toNode := node
    value := Part.last? parts ["value"]
    mask := Part.last? parts ["mask"]
    domain := e.attribute? "resetTypeRef" }

def enumValue (e : Element) : m EnumValue := do
  let node ← fresh
  let values ← (e.named "value").mapM fun child => value fresh child.content
  let byAttribute := ((e.attribute? "usage").map Keyword.ofText).getD .unset
  return {
    toNode := node
    toLabel := label e
    value := values.getLast?
    usage := ((text? e ["usage"]).map Keyword.ofText).getD byAttribute }

/-- What a child of a field gives that is no reference. The limits in a structured constraint are
references in place of their own elements. -/
def fieldPart (e : Element) : m (List (Part (Reset ⊕ EnumValue))) :=
  if e.name = "writeValueConstraint" then
    readParts fresh ["minimum", "maximum"] (fun _ => return []) e
  else if e.name = "resets" then
    (e.named "reset").mapM fun child => return .node (.inl (← reset fresh child))
  else if e.name = "enumeratedValues" then
    (e.named "enumeratedValue").mapM fun child => return .node (.inr (← enumValue fresh child))
  else return []

def fieldTags : List String :=
  ["offset", "bitOffset", "width", "bitWidth", "isPresent", "reserved", "writevalueminimum",
    "writevaluemaximum"]

def field (e : Element) : m BitField := do
  let fieldId ← (e.attribute? "fieldID").mapM (value fresh)
  let node ← fresh
  let parts ← readParts fresh fieldTags (fieldPart fresh) e
  return {
    toNode := node
    toLabel := label e
    fieldId
    offset := Part.last? parts ["offset", "bitOffset"]
    width := Part.last? parts ["width", "bitWidth"]
    isPresent := Part.last? parts ["isPresent"]
    reserved := Part.last? parts ["reserved"]
    volatile := keyword e ["volatile"]
    access := keyword e ["access"]
    modifiedWriteValue := keyword e ["modifiedWriteValue", "modifiedWriteValues"]
    readAction := keyword e ["readAction"]
    testable := keyword e ["testable"]
    testConstraint := ((e.elements.filterMap testConstraint?).getLast?).getD .unset
    writeConstraint := ((e.elements.flatMap writeConstraints).getLast?).getD .unset
    writeMinimum := Part.last? parts ["writevalueminimum", "minimum"]
    writeMaximum := Part.last? parts ["writevaluemaximum", "maximum"]
    resets := (Part.nodes parts).filterMap Sum.getLeft?
    enumValues := (Part.nodes parts).filterMap Sum.getRight? }

/-! ### Registers, blocks and memory maps -/

def registerTags : List String :=
  ["offset", "addressOffset", "size", "dimension", "dim", "isPresent"]

def register (e : Element) : m Register := do
  let node ← fresh
  let parts ← readParts fresh registerTags (nodePart "field" (field fresh)) e
  let fields := Part.nodes parts
  let label := label e
  requireDistinct "field" label.name (fields.map (·.name))
  return {
    toNode := node
    toLabel := label
    offset := Part.last? parts ["offset", "addressOffset"]
    size := Part.last? parts ["size"]
    dimension := Part.last? parts ["dimension", "dim"]
    isPresent := Part.last? parts ["isPresent"]
    volatile := keyword e ["volatile"]
    access := keyword e ["access"]
    fields }

def blockTags : List String := ["baseAddress", "blockRange", "range", "width", "isPresent"]

def addressBlock (e : Element) : m AddressBlock := do
  let node ← fresh
  let parts ← readParts fresh blockTags (nodePart "register" (register fresh)) e
  let registers := Part.nodes parts
  let label := label e
  requireDistinct "register" label.name (registers.map (·.name))
  return {
    toNode := node
    toLabel := label
    baseAddress := Part.last? parts ["baseAddress"]
    range := Part.last? parts ["blockRange", "range"]
    width := Part.last? parts ["width"]
    isPresent := Part.last? parts ["isPresent"]
    usage := keyword e ["usage"]
    access := keyword e ["access"]
    volatile := keyword e ["volatile"]
    registers }

/-- What a child of a memory map gives that is no reference. -/
def mapPart (e : Element) : m (List (Part AddressBlock)) :=
  if e.name = "addressUnitBits" then do return [.number (← number e)]
  else nodePart "addressBlock" (addressBlock fresh) e

/-- Children are read in order, so that the first fault of the document counts. -/
def memoryMap (e : Element) : m MemoryMap := do
  let node ← fresh
  let parts ← readParts fresh ["isPresent"] (mapPart fresh) e
  let blocks := Part.nodes parts
  let label := label e
  requireDistinct "address block" label.name (blocks.map (·.name))
  return {
    toNode := node
    toLabel := label
    addressUnitBits := (parts.filterMap Part.number?).getLast?
    isPresent := Part.last? parts ["isPresent"]
    blocks }

/-! ### Parameters and vendor extensions -/

def parameter (e : Element) : m Parameter := do
  let key ← requireAttribute e "parameterId"
  let type := (e.attribute? "parameterType").or (e.attribute? "type")
  let value ← (e.last? ["value"]).mapM (reference fresh)
  let node ← fresh
  return {
    toNode := node
    toLabel := label e
    key
    value
    type := (type.map Keyword.ofText).getD .unset }

def parameters (e : Element) : m (List Parameter) := do
  let all ← (e.named "parameter").mapM (parameter fresh)
  requireDistinctKeys all
  return all

def resetType (e : Element) : m ResetType := do
  return { toNode := ← fresh, toLabel := label e }

mutual

/-- The extension that a node stands for, if the node is an element. Its text is the first text in
the element. -/
def extension? : Xml.Node → m (Option VendorExtension)
  | .element name attributes children => do
    let below ← extensions children
    let node ← fresh
    return some {
      toNode := node
      tag := name
      text := (children.findSome? Xml.Node.text?).map Text.trim
      attributes
      children := below }
  | _ => return none

def extensions : List Xml.Node → m (List VendorExtension)
  | [] => return []
  | node :: nodes => do
    let first ← extension? node
    return first.toList ++ (← extensions nodes)

end

/-! ### Components -/

/-- What a child of a component gives. A later list takes the place of an earlier one. -/
inductive ComponentPart where
  | parameters (ps : List Parameter)
  | resetTypes (ts : List ResetType)
  | memoryMaps (ms : List MemoryMap)
  | extensions (es : List VendorExtension)
  | other

namespace ComponentPart

def parameters? : ComponentPart → Option (List Parameter)
  | parameters ps => some ps
  | _ => none

def resetTypes? : ComponentPart → Option (List ResetType)
  | resetTypes ts => some ts
  | _ => none

def memoryMaps? : ComponentPart → Option (List MemoryMap)
  | memoryMaps ms => some ms
  | _ => none

def extensions? : ComponentPart → Option (List VendorExtension)
  | extensions es => some es
  | _ => none

end ComponentPart

def componentPart (e : Element) : m ComponentPart :=
  if e.name = "parameters" then .parameters <$> parameters fresh e
  else if e.name = "resetTypes" then
    .resetTypes <$> (e.named "resetType").mapM (resetType fresh)
  else if e.name = "memoryMaps" then
    .memoryMaps <$> (e.named "memoryMap").mapM (memoryMap fresh)
  else if e.name = "vendorExtensions" then .extensions <$> extensions fresh e.children
  else return .other

/-- The list that counts, among those that the children of a component gave. -/
def lastList {α : Type} (part? : ComponentPart → Option (List α)) (parts : List ComponentPart) :
    List α :=
  ((parts.filterMap part?).getLast?).getD []

/-- The component that a root element describes. -/
def component (e : Element) : m Component := do
  if e.name ≠ "component" then (Except.error (.unsupportedRoot e.name) : Except DocumentError _)
  else
    let vlnv ← vlnv e
    let node ← fresh
    let parts ← e.elements.mapM (componentPart fresh)
    let memoryMaps := lastList ComponentPart.memoryMaps? parts
    requireDistinct "memory map" vlnv.name (memoryMaps.map (·.name))
    return {
      toNode := node
      toLabel := { label e with name := vlnv.name }
      vlnv
      author := text? e ["author"]
      license := text? e ["license"]
      parameters := lastList ComponentPart.parameters? parts
      resetTypes := lastList ComponentPart.resetTypes? parts
      memoryMaps
      extensions := lastList ComponentPart.extensions? parts }

end

/-! ### Readings -/

/-- Computations that draw identifiers from a counter. One that fails has drawn some as well. -/
abbrev Ingest := ExceptT DocumentError (StateM Nat)

def drawNode : Ingest Node := ExceptT.lift freshNode

/-- A component with the warnings raised by resolving its references. -/
structure Reading where
  component : Component
  warnings : List String

/-- Reads the component that a root element describes. Its nodes have identifiers and parent links,
and its references are resolved. -/
def ingestRoot (root : Element) : Ingest Reading := do
  let linked := (← component drawNode root).link
  return { component := linked.resolved, warnings := linked.resolveWarnings }

def ingest (document : String) : Ingest Reading :=
  match Xml.parse? document with
  | none => throw .malformed
  | some root => ingestRoot root

/-- Reads a document, with a number as the next identifier. -/
def readFrom (next : Nat) (document : String) : Except DocumentError Reading :=
  (ingest document next).1

/-- Reads the first document of a program. -/
def read (document : String) : Except DocumentError Reading := readFrom 1 document

end RegAtlas.Ipxact
