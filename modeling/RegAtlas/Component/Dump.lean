import RegAtlas.Component.Basic
import RegAtlas.Document

/-!
# Components as documents

The whole tree of a component as a document, every property under its name.
-/

namespace RegAtlas

namespace Document

/-- The keyword of a property by its name in documents. -/
def ofKeyword {α : Type} [Keyword α] (a : α) : Document := text (Keyword.tag a)

/-- The first entry of every node. -/
def nodeEntry (node : Node) : String × Document := ("id", number node.id)

/-- The first entries of every node with a name. -/
def labelEntries (node : Node) (label : Label) : List (String × Document) :=
  [nodeEntry node, ("name", text label.name), ("display_name", ofText? label.displayName),
    ("description", ofText? label.description)]

def ofReference (r : Reference) : Document :=
  record [nodeEntry r.toNode, ("uuid", ofText? r.key), ("value", text r.text),
    ("reference_object", ofNumber? r.target)]

def ofReference? : Option Reference → Document
  | none => null
  | some r => ofReference r

def ofValue? : Option Value → Document
  | none => null
  | some v => record [nodeEntry v.toNode, ("value", text v.text)]

def ofParameter (p : Parameter) : Document :=
  record (labelEntries p.toNode p.toLabel ++ [("parameter_id", text p.key),
    ("value", ofReference? p.value), ("parameter_type", ofKeyword p.type)])

def ofResetType (t : ResetType) : Document := record (labelEntries t.toNode t.toLabel)

def ofEnumValue (e : EnumValue) : Document :=
  record (labelEntries e.toNode e.toLabel ++ [("value", ofValue? e.value),
    ("usage", ofKeyword e.usage)])

def ofReset (r : Reset) : Document :=
  record [nodeEntry r.toNode, ("reset_value", ofReference? r.value),
    ("reset_mask", ofReference? r.mask), ("reset_reference", ofText? r.domain)]

def ofField (f : BitField) : Document :=
  record (labelEntries f.toNode f.toLabel ++ [
    ("field_id", ofValue? f.fieldId),
    ("offset", ofReference? f.offset),
    ("width", ofReference? f.width),
    ("is_present", ofReference? f.isPresent),
    ("reserved", ofReference? f.reserved),
    ("volatile", ofKeyword f.volatile),
    ("access", ofKeyword f.access),
    ("modified_write_value", ofKeyword f.modifiedWriteValue),
    ("read_action", ofKeyword f.readAction),
    ("testable", ofKeyword f.testable),
    ("test_constraint", ofKeyword f.testConstraint),
    ("write_value_constraint", ofKeyword f.writeConstraint),
    ("write_constraint_minimum", ofReference? f.writeMinimum),
    ("write_constraint_maximum", ofReference? f.writeMaximum),
    ("resets", list (f.resets.map ofReset)),
    ("enumerated_values", list (f.enumValues.map ofEnumValue))])

def ofRegister (r : Register) : Document :=
  record (labelEntries r.toNode r.toLabel ++ [
    ("offset", ofReference? r.offset),
    ("size", ofReference? r.size),
    ("dimension", ofReference? r.dimension),
    ("is_present", ofReference? r.isPresent),
    ("volatile", ofKeyword r.volatile),
    ("access", ofKeyword r.access),
    ("fields", list (r.fields.map ofField))])

def ofBlock (b : AddressBlock) : Document :=
  record (labelEntries b.toNode b.toLabel ++ [
    ("base_address", ofReference? b.baseAddress),
    ("block_range", ofReference? b.range),
    ("width", ofReference? b.width),
    ("is_present", ofReference? b.isPresent),
    ("usage", ofKeyword b.usage),
    ("access", ofKeyword b.access),
    ("volatile", ofKeyword b.volatile),
    ("registers", list (b.registers.map ofRegister))])

def ofMemoryMap (m : MemoryMap) : Document :=
  record (labelEntries m.toNode m.toLabel ++ [
    ("address_unit_bits", ofNumber? m.addressUnitBits),
    ("is_present", ofReference? m.isPresent),
    ("address_blocks", list (m.blocks.map ofBlock))])

mutual

def ofExtension : VendorExtension → Document
  | ⟨node, tag, txt, attributes, children⟩ =>
    record [nodeEntry node, ("tag", text tag), ("text", ofText? txt),
      ("attributes", record (attributes.map fun (key, value) => (key, text value))),
      ("children", list (ofExtensions children))]

def ofExtensions : List VendorExtension → List Document
  | [] => []
  | e :: es => ofExtension e :: ofExtensions es

end

end Document

/-- The component as a document. -/
def Component.dump (c : Component) : Document :=
  .record (Document.labelEntries c.toNode c.toLabel ++ [
    ("vlnv", .record [("vendor", .text c.vlnv.vendor), ("library", .text c.vlnv.library),
      ("name", .text c.vlnv.name), ("version", .text c.vlnv.version)]),
    ("author", .ofText? c.author),
    ("license", .ofText? c.license),
    ("parameters", .list (c.parameters.map Document.ofParameter)),
    ("reset_types", .list (c.resetTypes.map Document.ofResetType)),
    ("memory_maps", .list (c.memoryMaps.map Document.ofMemoryMap)),
    ("vendor_extensions", .list (Document.ofExtensions c.extensions))])

end RegAtlas
