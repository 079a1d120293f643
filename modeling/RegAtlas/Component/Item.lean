import RegAtlas.Component.Basic

/-!
# Nodes of a component in order

Every node of the tree as one list: a node before the nodes it owns, siblings in the order of the
description, the values of a node before its other children.
-/

namespace RegAtlas

/-- The twelve kinds of nodes. -/
inductive NodeKind where
  | component
  | parameter
  | resetType
  | extension
  | memoryMap
  | block
  | register
  | field
  | reset
  | enumValue
  | reference
  | value
  deriving DecidableEq, Repr

/-- A node of any kind. -/
inductive Item where
  | component (c : Component)
  | parameter (p : Parameter)
  | resetType (t : ResetType)
  | extension (e : VendorExtension)
  | memoryMap (m : MemoryMap)
  | block (b : AddressBlock)
  | register (r : Register)
  | field (f : BitField)
  | reset (r : Reset)
  | enumValue (e : EnumValue)
  | reference (r : Reference)
  | value (v : Value)

namespace Item

def kind : Item → NodeKind
  | component _ => .component
  | parameter _ => .parameter
  | resetType _ => .resetType
  | extension _ => .extension
  | memoryMap _ => .memoryMap
  | block _ => .block
  | register _ => .register
  | field _ => .field
  | reset _ => .reset
  | enumValue _ => .enumValue
  | reference _ => .reference
  | value _ => .value

def node : Item → Node
  | component c => c.toNode
  | parameter p => p.toNode
  | resetType t => t.toNode
  | extension e => e.toNode
  | memoryMap m => m.toNode
  | block b => b.toNode
  | register r => r.toNode
  | field f => f.toNode
  | reset r => r.toNode
  | enumValue e => e.toNode
  | reference r => r.toNode
  | value v => v.toNode

/-- The text of a reference. -/
def referenceText? : Item → Option String
  | reference r => some r.text
  | _ => none

/-- The text of a literal. -/
def valueText? : Item → Option String
  | value v => some v.text
  | _ => none

/-- The references that are there, as nodes. -/
def references (rs : List (Option Reference)) : List Item := (rs.filterMap id).map reference

end Item

def Parameter.items (p : Parameter) : List Item := .parameter p :: Item.references [p.value]

def Reset.items (r : Reset) : List Item := .reset r :: Item.references [r.value, r.mask]

def EnumValue.items (e : EnumValue) : List Item := .enumValue e :: e.value.toList.map .value

/-- The references of a field that are not in its resets. -/
def BitField.references (f : BitField) : List (Option Reference) :=
  [f.offset, f.width, f.isPresent, f.reserved, f.writeMinimum, f.writeMaximum]

def BitField.items (f : BitField) : List Item :=
  .field f :: (f.fieldId.toList.map .value ++ Item.references f.references ++
    f.resets.flatMap Reset.items ++ f.enumValues.flatMap EnumValue.items)

/-- The references of a register that are not in its fields. -/
def Register.references (r : Register) : List (Option Reference) :=
  [r.offset, r.size, r.dimension, r.isPresent]

def Register.items (r : Register) : List Item :=
  .register r :: (Item.references r.references ++ r.fields.flatMap BitField.items)

/-- The references of a block that are not in its registers. -/
def AddressBlock.references (b : AddressBlock) : List (Option Reference) :=
  [b.baseAddress, b.range, b.width, b.isPresent]

def AddressBlock.items (b : AddressBlock) : List Item :=
  .block b :: (Item.references b.references ++ b.registers.flatMap Register.items)

def MemoryMap.items (m : MemoryMap) : List Item :=
  .memoryMap m :: (Item.references [m.isPresent] ++ m.blocks.flatMap AddressBlock.items)

mutual

def VendorExtension.items : VendorExtension → List Item
  | ⟨node, tag, text, attributes, children⟩ =>
    .extension ⟨node, tag, text, attributes, children⟩ :: VendorExtension.itemsAll children

def VendorExtension.itemsAll : List VendorExtension → List Item
  | [] => []
  | e :: es => e.items ++ VendorExtension.itemsAll es

end

/-- All nodes of the component. -/
def Component.items (c : Component) : List Item :=
  .component c :: (c.parameters.flatMap Parameter.items ++ c.resetTypes.map .resetType ++
    c.memoryMaps.flatMap MemoryMap.items ++ VendorExtension.itemsAll c.extensions)

/-- The identifiers of all nodes. -/
def Component.ids (c : Component) : List Nat := c.items.map (·.node.id)

end RegAtlas
