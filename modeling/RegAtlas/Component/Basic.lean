import RegAtlas.Keyword
import RegAtlas.Literal

/-!
# Components

The tree of a hardware component: parameters, reset domains, memory maps with their blocks,
registers, fields and values, and vendor extensions. Every node owns its children and has an
identifier; the link to its parent and from a reference to a parameter is an identifier.
-/

namespace RegAtlas

/-- Identity of a node. -/
structure Node where
  id : Nat := 0
  /-- The identifier of the owner, absent before linking and at the root. -/
  parent : Option Nat := none
  deriving DecidableEq, Inhabited, Repr

/-- Name and documentation of a node. -/
structure Label where
  name : String := ""
  displayName : Option String := none
  description : Option String := none
  deriving DecidableEq, Inhabited, Repr

/-- A literal as the description gives it. -/
structure Value extends Node where
  text : String
  deriving DecidableEq, Inhabited, Repr

/-- A literal or the identifier of a parameter. -/
structure Reference extends Node where
  /-- The identifier to look up. -/
  key : Option String
  /-- The identifier before resolution, the value after it. -/
  text : String
  /-- The parameter that gave the value. -/
  target : Option Nat := none
  deriving DecidableEq, Inhabited, Repr

/-- A reference as the text of a description gives it. -/
def Reference.ofText (text : String) : Reference := { key := some text, text }

/-- A named constant of the component. -/
structure Parameter extends Node, Label where
  /-- What references name it by. -/
  key : String := ""
  value : Option Reference := none
  type : ParameterType := .unset
  deriving DecidableEq, Inhabited, Repr

/-- A named reset domain. -/
structure ResetType extends Node, Label where
  deriving DecidableEq, Inhabited, Repr

/-- A named value of a field. -/
structure EnumValue extends Node, Label where
  value : Option Value := none
  usage : EnumUsage := .unset
  deriving DecidableEq, Inhabited, Repr

/-- The value of a field after reset in one reset domain. -/
structure Reset extends Node where
  value : Option Reference := none
  /-- The bits that the reset acts on. -/
  mask : Option Reference := none
  /-- Name of the reset domain. -/
  domain : Option String := none
  deriving DecidableEq, Inhabited, Repr

/-- A bit field of a register. -/
structure BitField extends Node, Label where
  fieldId : Option Value := none
  /-- First bit in the register. -/
  offset : Option Reference := none
  /-- Number of bits. -/
  width : Option Reference := none
  isPresent : Option Reference := none
  reserved : Option Reference := none
  volatile : Volatile := .unset
  access : Access := .unset
  modifiedWriteValue : ModifiedWriteValue := .unset
  readAction : ReadAction := .unset
  testable : Testable := .unset
  testConstraint : TestConstraint := .unset
  writeConstraint : WriteValueConstraint := .unset
  writeMinimum : Option Reference := none
  writeMaximum : Option Reference := none
  /-- One for each reset domain. -/
  resets : List Reset := []
  enumValues : List EnumValue := []
  deriving DecidableEq, Inhabited, Repr

/-- A register of an address block. -/
structure Register extends Node, Label where
  /-- First byte in the block. -/
  offset : Option Reference := none
  /-- Number of bits. -/
  size : Option Reference := none
  /-- Number of elements of a register array. -/
  dimension : Option Reference := none
  isPresent : Option Reference := none
  volatile : Volatile := .unset
  access : Access := .unset
  /-- Fields in the order of the description. -/
  fields : List BitField := []
  deriving DecidableEq, Inhabited, Repr

/-- A contiguous region of the address space. -/
structure AddressBlock extends Node, Label where
  baseAddress : Option Reference := none
  /-- Size in address units. -/
  range : Option Reference := none
  /-- Data width in bits. -/
  width : Option Reference := none
  isPresent : Option Reference := none
  usage : BlockUsage := .unset
  access : Access := .unset
  volatile : Volatile := .unset
  /-- Registers in the order of the description. -/
  registers : List Register := []
  deriving DecidableEq, Inhabited, Repr

/-- A memory map of a component. -/
structure MemoryMap extends Node, Label where
  /-- Bits of an address unit. -/
  addressUnitBits : Option Nat := none
  isPresent : Option Reference := none
  blocks : List AddressBlock := []
  deriving DecidableEq, Inhabited, Repr

/-- Vendor markup, kept as a tree of elements. -/
structure VendorExtension extends Node where
  /-- Element name without its namespace. -/
  tag : String
  text : Option String := none
  /-- Attributes in ascending order of their names. -/
  attributes : List (String × String) := []
  children : List VendorExtension := []
  deriving Inhabited, Repr

/-- Vendor, library, name and version of a component. -/
structure Vlnv where
  vendor : String := ""
  library : String := ""
  name : String := ""
  version : String := ""
  deriving DecidableEq, Inhabited, Repr

/-- The root of the tree. -/
structure Component extends Node, Label where
  vlnv : Vlnv := {}
  author : Option String := none
  license : Option String := none
  parameters : List Parameter := []
  resetTypes : List ResetType := []
  memoryMaps : List MemoryMap := []
  extensions : List VendorExtension := []
  deriving Inhabited, Repr

namespace Component

/-- The memory map with the name, or the first one when no name is given. -/
def memoryMap? (c : Component) : Option String → Option MemoryMap
  | some name => c.memoryMaps.find? (·.name == name)
  | none => c.memoryMaps.head?

/-- The first parameter with the key. -/
def parameter? (c : Component) (key : String) : Option Parameter :=
  c.parameters.find? (·.key == key)

/-- The first reset domain with the name. -/
def resetType? (c : Component) (name : String) : Option ResetType :=
  c.resetTypes.find? (·.name == name)

end Component

end RegAtlas
