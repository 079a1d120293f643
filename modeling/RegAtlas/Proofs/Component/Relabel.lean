import RegAtlas.Proofs.Component.Rewriting

/-!
# Identity apart from content

A tree with the identity of every node changed and everything else as before. Two trees agree up to
identity if they become the same tree.
-/

namespace RegAtlas

/-- Changes the identity of every node. -/
def relabeling (f : Node → Node) : Rewriter Unit Id where
  component _ c := { c with toNode := f c.toNode }
  parameter _ p := { p with toNode := f p.toNode }
  resetType _ t := { t with toNode := f t.toNode }
  extension _ e := { e with toNode := f e.toNode }
  memoryMap _ m := { m with toNode := f m.toNode }
  block _ b := { b with toNode := f b.toNode }
  register _ r := { r with toNode := f r.toNode }
  field _ field := { field with toNode := f field.toNode }
  reset _ r := { r with toNode := f r.toNode }
  enumValue _ e := { e with toNode := f e.toNode }
  reference _ r := { r with toNode := f r.toNode }
  value _ v := { v with toNode := f v.toNode }

section

variable (f : Node → Node)

theorem relabeling_keepsChildren : (relabeling f).KeepsChildren := fun _ i => by cases i <;> rfl

def Reference.relabel (r : Reference) : Reference := (relabeling f).reference () r

def Value.relabel (v : Value) : Value := (relabeling f).value () v

def Parameter.relabel (p : Parameter) : Parameter := (relabeling f).onParameter () p

def ResetType.relabel (t : ResetType) : ResetType := (relabeling f).resetType () t

def Reset.relabel (r : Reset) : Reset := (relabeling f).onReset () r

def EnumValue.relabel (e : EnumValue) : EnumValue := (relabeling f).onEnumValue () e

def BitField.relabel (field : BitField) : BitField := (relabeling f).onField () field

def Register.relabel (r : Register) : Register := (relabeling f).onRegister () r

def AddressBlock.relabel (b : AddressBlock) : AddressBlock := (relabeling f).onBlock () b

def MemoryMap.relabel (m : MemoryMap) : MemoryMap := (relabeling f).onMemoryMap () m

def VendorExtension.relabel (e : VendorExtension) : VendorExtension :=
  (relabeling f).onExtension () e

def Component.relabel (c : Component) : Component := (relabeling f).onComponent () c

theorem Parameter.relabel_eq (p : Parameter) : p.relabel f = { p with
    toNode := f p.toNode
    value := p.value.map (Reference.relabel f) } := by
  rw [relabel, Rewriter.onParameter_id]
  rfl

theorem Reset.relabel_eq (r : Reset) : r.relabel f = { r with
    toNode := f r.toNode
    value := r.value.map (Reference.relabel f)
    mask := r.mask.map (Reference.relabel f) } := by
  rw [relabel, Rewriter.onReset_id]
  rfl

theorem EnumValue.relabel_eq (e : EnumValue) : e.relabel f = { e with
    toNode := f e.toNode
    value := e.value.map (Value.relabel f) } := by
  rw [relabel, Rewriter.onEnumValue_id]
  rfl

theorem BitField.relabel_eq (field : BitField) : field.relabel f = { field with
    toNode := f field.toNode
    fieldId := field.fieldId.map (Value.relabel f)
    offset := field.offset.map (Reference.relabel f)
    width := field.width.map (Reference.relabel f)
    isPresent := field.isPresent.map (Reference.relabel f)
    reserved := field.reserved.map (Reference.relabel f)
    writeMinimum := field.writeMinimum.map (Reference.relabel f)
    writeMaximum := field.writeMaximum.map (Reference.relabel f)
    resets := field.resets.map (Reset.relabel f)
    enumValues := field.enumValues.map (EnumValue.relabel f) } := by
  rw [relabel, Rewriter.onField_id]
  rfl

theorem Register.relabel_eq (r : Register) : r.relabel f = { r with
    toNode := f r.toNode
    offset := r.offset.map (Reference.relabel f)
    size := r.size.map (Reference.relabel f)
    dimension := r.dimension.map (Reference.relabel f)
    isPresent := r.isPresent.map (Reference.relabel f)
    fields := r.fields.map (BitField.relabel f) } := by
  rw [relabel, Rewriter.onRegister_id]
  rfl

theorem AddressBlock.relabel_eq (b : AddressBlock) : b.relabel f = { b with
    toNode := f b.toNode
    baseAddress := b.baseAddress.map (Reference.relabel f)
    range := b.range.map (Reference.relabel f)
    width := b.width.map (Reference.relabel f)
    isPresent := b.isPresent.map (Reference.relabel f)
    registers := b.registers.map (Register.relabel f) } := by
  rw [relabel, Rewriter.onBlock_id]
  rfl

theorem MemoryMap.relabel_eq (m : MemoryMap) : m.relabel f = { m with
    toNode := f m.toNode
    isPresent := m.isPresent.map (Reference.relabel f)
    blocks := m.blocks.map (AddressBlock.relabel f) } := by
  rw [relabel, Rewriter.onMemoryMap_id]
  rfl

theorem VendorExtension.relabel_eq (e : VendorExtension) : e.relabel f = { e with
    toNode := f e.toNode
    children := e.children.map (VendorExtension.relabel f) } := by
  rw [relabel, Rewriter.onExtension_id]
  rfl

theorem Component.relabel_eq (c : Component) : c.relabel f = { c with
    toNode := f c.toNode
    parameters := c.parameters.map (Parameter.relabel f)
    resetTypes := c.resetTypes.map (ResetType.relabel f)
    memoryMaps := c.memoryMaps.map (MemoryMap.relabel f)
    extensions := c.extensions.map (VendorExtension.relabel f) } := by
  rw [relabel, Rewriter.onComponent_id]
  rfl

end

/-- No identity at all. -/
def unmarked (_ : Node) : Node := {}

/-- The tree without parent links. -/
def Component.unlinked (c : Component) : Component := c.relabel (Node.link · none)

/-! ### Linking changes parents only -/

mutual

theorem VendorExtension.relabel_link {f : Node → Node}
    (h : ∀ node owner, f (Node.link node owner) = f node) (owner : Nat) :
    ∀ e : VendorExtension, (e.link owner).relabel f = e.relabel f
  | ⟨node, tag, text, attributes, children⟩ => by
    rw [VendorExtension.link_eq, VendorExtension.relabel_eq, VendorExtension.map_relabel_link h, h,
      VendorExtension.relabel_eq]

theorem VendorExtension.map_relabel_link {f : Node → Node}
    (h : ∀ node owner, f (Node.link node owner) = f node) (owner : Nat) :
    ∀ es : List VendorExtension, (es.map (link owner)).map (relabel f) = es.map (relabel f)
  | [] => rfl
  | e :: es => by
    rw [List.map_cons, List.map_cons, VendorExtension.relabel_link h,
      VendorExtension.map_relabel_link h, List.map_cons]

end

section

variable {f : Node → Node} (h : ∀ node owner, f (Node.link node owner) = f node)
include h

theorem Reference.relabel_link (owner : Nat) (r : Reference) :
    (r.link owner).relabel f = r.relabel f := by
  simp [relabel, relabeling, link, linking, h]

theorem Value.relabel_link (owner : Nat) (v : Value) :
    (v.link owner).relabel f = v.relabel f := by
  simp [relabel, relabeling, link, linking, h]

theorem Parameter.relabel_link (owner : Nat) (p : Parameter) :
    (p.link owner).relabel f = p.relabel f := by
  simp [relabel_eq, link_eq, h, Function.comp_def, Reference.relabel_link h]

theorem ResetType.relabel_link (owner : Nat) (t : ResetType) :
    (t.link owner).relabel f = t.relabel f := by
  simp [relabel, relabeling, link, linking, h]

theorem Reset.relabel_link (owner : Nat) (r : Reset) :
    (r.link owner).relabel f = r.relabel f := by
  simp [relabel_eq, link_eq, h, Function.comp_def, Reference.relabel_link h]

theorem EnumValue.relabel_link (owner : Nat) (e : EnumValue) :
    (e.link owner).relabel f = e.relabel f := by
  simp [relabel_eq, link_eq, h, Function.comp_def, Value.relabel_link h]

theorem BitField.relabel_link (owner : Nat) (field : BitField) :
    (field.link owner).relabel f = field.relabel f := by
  simp [relabel_eq, link_eq, h, Function.comp_def, Reference.relabel_link h, Value.relabel_link h,
    Reset.relabel_link h, EnumValue.relabel_link h]

theorem Register.relabel_link (owner : Nat) (r : Register) :
    (r.link owner).relabel f = r.relabel f := by
  simp [relabel_eq, link_eq, h, Function.comp_def, Reference.relabel_link h,
    BitField.relabel_link h]

theorem AddressBlock.relabel_link (owner : Nat) (b : AddressBlock) :
    (b.link owner).relabel f = b.relabel f := by
  simp [relabel_eq, link_eq, h, Function.comp_def, Reference.relabel_link h,
    Register.relabel_link h]

theorem MemoryMap.relabel_link (owner : Nat) (m : MemoryMap) :
    (m.link owner).relabel f = m.relabel f := by
  simp [relabel_eq, link_eq, h, Function.comp_def, Reference.relabel_link h,
    AddressBlock.relabel_link h]

/-- Linking changes nothing that a change of identity keeps. -/
theorem Component.relabel_link (c : Component) : c.link.relabel f = c.relabel f := by
  simp [relabel_eq, link_eq, h, Function.comp_def, Parameter.relabel_link h,
    ResetType.relabel_link h, MemoryMap.relabel_link h, VendorExtension.relabel_link h]

end

theorem Component.unlinked_link (c : Component) : c.link.unlinked = c.unlinked :=
  c.relabel_link fun _ _ => rfl

end RegAtlas
