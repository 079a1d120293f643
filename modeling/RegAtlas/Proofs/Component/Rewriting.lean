import RegAtlas.Component.Identity
import RegAtlas.Proofs.Component.Traversal

/-!
# Rewriters without effects

What a rewriter without effects makes of a node: the node after its action, with the nodes that it
owns rewritten one by one. When no action changes what its node owns, the nodes of the tree that
comes out are those of the tree that goes in, rewritten one by one in their order. Linking is such a
rewriter.
-/

namespace RegAtlas

theorem map_eq_self_iff {α : Type} {f : α → α} {as : List α} :
    as.map f = as ↔ ∀ a ∈ as, f a = a := by
  simpa using List.map_inj_left (l := as) (f := f) (g := id)

namespace Rewriter

variable {ρ : Type} (w : Rewriter ρ Id) (seen : ρ)

theorem optional_id {α : Type} (act : α → Id α) (o : Option α) : optional act o = o.map act := by
  cases o <;> rfl

theorem mapM_id {α β : Type} (act : α → Id β) (as : List α) : as.mapM act = as.map act := by
  induction as with
  | nil => rfl
  | cons a as ih =>
    rw [List.mapM_cons, ih]
    rfl

theorem onParameter_id (p : Parameter) : w.onParameter seen p =
    let p : Parameter := w.parameter seen p
    { p with value := p.value.map (w.reference (w.inside seen (.parameter p))) } := by
  rw [onParameter]
  simp only [optional_id]
  rfl

theorem onReset_id (r : Reset) : w.onReset seen r =
    let r : Reset := w.reset seen r
    let below := w.inside seen (.reset r)
    { r with
      value := r.value.map (w.reference below)
      mask := r.mask.map (w.reference below) } := by
  rw [onReset]
  simp only [optional_id]
  rfl

theorem onEnumValue_id (e : EnumValue) : w.onEnumValue seen e =
    let e : EnumValue := w.enumValue seen e
    { e with value := e.value.map (w.value (w.inside seen (.enumValue e))) } := by
  rw [onEnumValue]
  simp only [optional_id]
  rfl

theorem onField_id (f : BitField) : w.onField seen f =
    let f : BitField := w.field seen f
    let below := w.inside seen (.field f)
    { f with
      fieldId := f.fieldId.map (w.value below)
      offset := f.offset.map (w.reference below)
      width := f.width.map (w.reference below)
      isPresent := f.isPresent.map (w.reference below)
      reserved := f.reserved.map (w.reference below)
      writeMinimum := f.writeMinimum.map (w.reference below)
      writeMaximum := f.writeMaximum.map (w.reference below)
      resets := f.resets.map (w.onReset below)
      enumValues := f.enumValues.map (w.onEnumValue below) } := by
  rw [onField]
  simp only [optional_id, mapM_id]
  rfl

theorem onRegister_id (r : Register) : w.onRegister seen r =
    let r : Register := w.register seen r
    let below := w.inside seen (.register r)
    { r with
      offset := r.offset.map (w.reference below)
      size := r.size.map (w.reference below)
      dimension := r.dimension.map (w.reference below)
      isPresent := r.isPresent.map (w.reference below)
      fields := r.fields.map (w.onField below) } := by
  rw [onRegister]
  simp only [optional_id, mapM_id]
  rfl

theorem onBlock_id (b : AddressBlock) : w.onBlock seen b =
    let b : AddressBlock := w.block seen b
    let below := w.inside seen (.block b)
    { b with
      baseAddress := b.baseAddress.map (w.reference below)
      range := b.range.map (w.reference below)
      width := b.width.map (w.reference below)
      isPresent := b.isPresent.map (w.reference below)
      registers := b.registers.map (w.onRegister below) } := by
  rw [onBlock]
  simp only [optional_id, mapM_id]
  rfl

theorem onMemoryMap_id (m : MemoryMap) : w.onMemoryMap seen m =
    let m : MemoryMap := w.memoryMap seen m
    let below := w.inside seen (.memoryMap m)
    { m with
      isPresent := m.isPresent.map (w.reference below)
      blocks := m.blocks.map (w.onBlock below) } := by
  rw [onMemoryMap]
  simp only [optional_id, mapM_id]
  rfl

theorem onExtensions_id (es : List VendorExtension) :
    w.onExtensions seen es = es.map (w.onExtension seen) := by
  induction es with
  | nil =>
    rw [onExtensions]
    rfl
  | cons e es ih =>
    rw [onExtensions, ih]
    rfl

theorem onExtension_id (e : VendorExtension) : w.onExtension seen e =
    let e' : VendorExtension := w.extension seen e
    { e' with children := e.children.map (w.onExtension (w.inside seen (.extension e'))) } := by
  obtain ⟨node, tag, text, attributes, children⟩ := e
  rw [onExtension]
  simp only [onExtensions_id]
  rfl

theorem onComponent_id (c : Component) : w.onComponent seen c =
    let c : Component := w.component seen c
    let below := w.inside seen (.component c)
    { c with
      parameters := c.parameters.map (w.onParameter below)
      resetTypes := c.resetTypes.map (w.resetType below)
      memoryMaps := c.memoryMaps.map (w.onMemoryMap below)
      extensions := c.extensions.map (w.onExtension below) } := by
  rw [onComponent]
  simp only [mapM_id, onExtensions_id]
  rfl

/-! ### Actions that keep their nodes -/

section

variable {w}

theorem map_of_keeps {α : Type} {act : ρ → α → Id α} (h : ∀ seen a, act seen a = a)
    (o : Option α) : o.map (act seen) = o := by
  rw [funext (h seen)]
  exact Option.map_id_apply

theorem onParameter_of_keeps (h : ∀ seen r, w.reference seen r = r) (p : Parameter) :
    w.onParameter seen p = w.parameter seen p := by
  rw [onParameter_id]
  simp only [map_of_keeps _ h]
  rfl

theorem onReset_of_keeps (h : ∀ seen r, w.reference seen r = r) (r : Reset) :
    w.onReset seen r = w.reset seen r := by
  rw [onReset_id]
  simp only [map_of_keeps _ h]
  rfl

theorem onEnumValue_of_keeps (h : ∀ seen v, w.value seen v = v) (e : EnumValue) :
    w.onEnumValue seen e = w.enumValue seen e := by
  rw [onEnumValue_id]
  simp only [map_of_keeps _ h]
  rfl

mutual

theorem onExtension_of_keeps (h : ∀ seen e, w.extension seen e = e) :
    ∀ (seen : ρ) (e : VendorExtension), w.onExtension seen e = e
  | seen, ⟨node, tag, text, attributes, children⟩ => by
    rw [onExtension_id]
    simp only [h, map_onExtension_of_keeps h _ children]

theorem map_onExtension_of_keeps (h : ∀ seen e, w.extension seen e = e) :
    ∀ (seen : ρ) (es : List VendorExtension), es.map (w.onExtension seen) = es
  | _, [] => rfl
  | seen, e :: es => by
    rw [List.map_cons, onExtension_of_keeps h seen e, map_onExtension_of_keeps h seen es]

end

end

/-! ### The nodes of a rewritten tree -/

/-- A node after the action on it. -/
def actOn : Item → Item
  | .component c => .component (w.component seen c)
  | .parameter p => .parameter (w.parameter seen p)
  | .resetType t => .resetType (w.resetType seen t)
  | .extension e => .extension (w.extension seen e)
  | .memoryMap m => .memoryMap (w.memoryMap seen m)
  | .block b => .block (w.block seen b)
  | .register r => .register (w.register seen r)
  | .field f => .field (w.field seen f)
  | .reset r => .reset (w.reset seen r)
  | .enumValue e => .enumValue (w.enumValue seen e)
  | .reference r => .reference (w.reference seen r)
  | .value v => .value (w.value seen v)

/-- A node after the actions on it and on the nodes below it. -/
def rewrite : Item → Item
  | .component c => .component (w.onComponent seen c)
  | .parameter p => .parameter (w.onParameter seen p)
  | .resetType t => .resetType (w.resetType seen t)
  | .extension e => .extension (w.onExtension seen e)
  | .memoryMap m => .memoryMap (w.onMemoryMap seen m)
  | .block b => .block (w.onBlock seen b)
  | .register r => .register (w.onRegister seen r)
  | .field f => .field (w.onField seen f)
  | .reset r => .reset (w.onReset seen r)
  | .enumValue e => .enumValue (w.onEnumValue seen e)
  | .reference r => .reference (w.reference seen r)
  | .value v => .value (w.value seen v)

/-- No action changes what its node owns. -/
def KeepsChildren : Prop := ∀ seen i, (w.actOn seen i).children = i.children

/-- What the nodes below a node see. -/
def below (i : Item) : ρ := w.inside seen (w.actOn seen i)

theorem references_map_rewrite (rs : List (Option Reference)) :
    Item.references (rs.map (Option.map (w.reference seen))) =
      (Item.references rs).map (w.rewrite seen) := by
  induction rs with
  | nil => rfl
  | cons r rs ih =>
    rw [List.map_cons, Item.references_cons, Item.references_cons, ih, List.map_append]
    cases r <;> rfl

theorem values_map_rewrite (v : Option Value) :
    (v.map (w.value seen)).toList.map Item.value =
      (v.toList.map Item.value).map (w.rewrite seen) := by
  cases v <;> rfl

theorem node_rewrite (i : Item) : (w.rewrite seen i).node = (w.actOn seen i).node := by
  cases i <;> simp only [rewrite, actOn, Item.node, onComponent_id, onParameter_id, onExtension_id,
    onMemoryMap_id, onBlock_id, onRegister_id, onField_id, onReset_id, onEnumValue_id]

variable {w}

/-- The children of a rewritten node are its children, rewritten. -/
theorem KeepsChildren.children_rewrite (h : w.KeepsChildren) (seen : ρ) (i : Item) :
    (w.rewrite seen i).children = i.children.map (w.rewrite (w.below seen i)) := by
  cases i with
  | resetType | reference | value => rfl
  | extension e =>
    rw [rewrite, onExtension_id, Item.children, Item.children, List.map_map, List.map_map]
    rfl
  | parameter p =>
    rw [← h seen (.parameter p), rewrite, onParameter_id]
    exact w.references_map_rewrite _ [_]
  | reset r =>
    rw [← h seen (.reset r), rewrite, onReset_id]
    exact w.references_map_rewrite _ [_, _]
  | enumValue e =>
    rw [← h seen (.enumValue e), rewrite, onEnumValue_id]
    exact w.values_map_rewrite _ _
  | memoryMap m =>
    rw [← h seen (.memoryMap m), rewrite, onMemoryMap_id, actOn, Item.children, Item.children,
      List.map_append, ← references_map_rewrite, List.map_map, List.map_map]
    rfl
  | block b =>
    rw [← h seen (.block b), rewrite, onBlock_id, actOn, Item.children, Item.children,
      List.map_append, ← references_map_rewrite, List.map_map, List.map_map]
    rfl
  | register r =>
    rw [← h seen (.register r), rewrite, onRegister_id, actOn, Item.children, Item.children,
      List.map_append, ← references_map_rewrite, List.map_map, List.map_map]
    rfl
  | field f =>
    rw [← h seen (.field f), rewrite, onField_id, actOn, Item.children, Item.children]
    simp only [List.map_append, ← references_map_rewrite, ← values_map_rewrite]
    simp only [List.map_map]
    rfl
  | component c =>
    rw [← h seen (.component c), rewrite, onComponent_id, actOn, Item.children, Item.children]
    simp only [List.map_append, List.map_map]
    rfl

/-- The nodes at and below a rewritten node are those at and below it, each rewritten with what is
seen at it. -/
theorem KeepsChildren.subtree_rewrite (h : w.KeepsChildren) (seen : ρ) (i : Item) :
    (w.rewrite seen i).subtree =
      (i.subtreeIn w.below seen).map fun x => w.rewrite x.1 x.2 := by
  induction i using Item.induction generalizing seen with
  | step i ih =>
    rw [Item.subtree_eq, h.children_rewrite, List.flatMap_map, Item.subtreeIn_eq, List.map_cons,
      List.map_flatMap]
    exact congrArg (_ :: ·) (List.flatMap_congr fun j hj => ih j hj _)

/-- The nodes of a rewritten tree with what else is seen at them, when that stays. -/
theorem KeepsChildren.subtreeIn_rewrite {w : Rewriter Unit Id} (h : w.KeepsChildren) {σ : Type}
    {inside : σ → Item → σ} (hinside : ∀ seen i, inside seen (w.rewrite () i) = inside seen i)
    (seen : σ) (i : Item) : (w.rewrite () i).subtreeIn inside seen =
      (i.subtreeIn inside seen).map fun x => (x.1, w.rewrite () x.2) := by
  induction i using Item.induction generalizing seen with
  | step i ih =>
    rw [Item.subtreeIn_eq, Item.subtreeIn_eq, h.children_rewrite, hinside, List.flatMap_map,
      List.map_cons, List.map_flatMap]
    exact congrArg (_ :: ·) (List.flatMap_congr fun j hj => ih j hj _)

/-- What is read from the nodes of a rewritten tree, when it is known what is read from a rewritten
node. -/
theorem KeepsChildren.filterMap_subtree (h : w.KeepsChildren) {α : Type}
    {read read' : Item → Option α} (hread : ∀ seen i, read (w.rewrite seen i) = read' i) (seen : ρ)
    (i : Item) : (w.rewrite seen i).subtree.filterMap read = i.subtree.filterMap read' := by
  rw [h.subtree_rewrite, List.filterMap_map, ← i.map_snd_subtreeIn w.below seen,
    List.filterMap_map]
  exact List.filterMap_congr fun x _ => hread x.1 x.2

/-- Rewriting keeps identifiers when no action changes one. -/
theorem KeepsChildren.ids_rewrite (h : w.KeepsChildren)
    (hid : ∀ seen i, (w.actOn seen i).node.id = i.node.id) (seen : ρ) (i : Item) :
    (w.rewrite seen i).ids = i.ids := by
  have hread : ∀ seen i, some (w.rewrite seen i).node.id = some i.node.id := fun seen i => by
    rw [node_rewrite, hid]
  have hids : ∀ j : Item, j.ids = j.subtree.filterMap fun k => some k.node.id := fun j =>
    List.filterMap_eq_map.symm ▸ rfl
  rw [hids, hids]
  exact h.filterMap_subtree hread seen i

end Rewriter

/-! ### Linking -/

theorem linking_keepsChildren : linking.KeepsChildren := fun _ i => by cases i <;> rfl

section

variable (owner : Nat)

def Reference.link (r : Reference) : Reference := linking.reference (some owner) r

def Value.link (v : Value) : Value := linking.value (some owner) v

def Parameter.link (p : Parameter) : Parameter := linking.onParameter (some owner) p

def ResetType.link (t : ResetType) : ResetType := linking.resetType (some owner) t

def Reset.link (r : Reset) : Reset := linking.onReset (some owner) r

def EnumValue.link (e : EnumValue) : EnumValue := linking.onEnumValue (some owner) e

def BitField.link (f : BitField) : BitField := linking.onField (some owner) f

def Register.link (r : Register) : Register := linking.onRegister (some owner) r

def AddressBlock.link (b : AddressBlock) : AddressBlock := linking.onBlock (some owner) b

def MemoryMap.link (m : MemoryMap) : MemoryMap := linking.onMemoryMap (some owner) m

def VendorExtension.link (e : VendorExtension) : VendorExtension :=
  linking.onExtension (some owner) e

theorem Parameter.link_eq (p : Parameter) : p.link owner =
    { p with toNode := p.toNode.link owner, value := p.value.map (Reference.link p.id) } := by
  rw [link, Rewriter.onParameter_id]
  rfl

theorem Reset.link_eq (r : Reset) : r.link owner = { r with
    toNode := r.toNode.link owner
    value := r.value.map (Reference.link r.id)
    mask := r.mask.map (Reference.link r.id) } := by
  rw [link, Rewriter.onReset_id]
  rfl

theorem EnumValue.link_eq (e : EnumValue) : e.link owner =
    { e with toNode := e.toNode.link owner, value := e.value.map (Value.link e.id) } := by
  rw [link, Rewriter.onEnumValue_id]
  rfl

theorem BitField.link_eq (f : BitField) : f.link owner = { f with
    toNode := f.toNode.link owner
    fieldId := f.fieldId.map (Value.link f.id)
    offset := f.offset.map (Reference.link f.id)
    width := f.width.map (Reference.link f.id)
    isPresent := f.isPresent.map (Reference.link f.id)
    reserved := f.reserved.map (Reference.link f.id)
    writeMinimum := f.writeMinimum.map (Reference.link f.id)
    writeMaximum := f.writeMaximum.map (Reference.link f.id)
    resets := f.resets.map (Reset.link f.id)
    enumValues := f.enumValues.map (EnumValue.link f.id) } := by
  rw [link, Rewriter.onField_id]
  rfl

theorem Register.link_eq (r : Register) : r.link owner = { r with
    toNode := r.toNode.link owner
    offset := r.offset.map (Reference.link r.id)
    size := r.size.map (Reference.link r.id)
    dimension := r.dimension.map (Reference.link r.id)
    isPresent := r.isPresent.map (Reference.link r.id)
    fields := r.fields.map (BitField.link r.id) } := by
  rw [link, Rewriter.onRegister_id]
  rfl

theorem AddressBlock.link_eq (b : AddressBlock) : b.link owner = { b with
    toNode := b.toNode.link owner
    baseAddress := b.baseAddress.map (Reference.link b.id)
    range := b.range.map (Reference.link b.id)
    width := b.width.map (Reference.link b.id)
    isPresent := b.isPresent.map (Reference.link b.id)
    registers := b.registers.map (Register.link b.id) } := by
  rw [link, Rewriter.onBlock_id]
  rfl

theorem MemoryMap.link_eq (m : MemoryMap) : m.link owner = { m with
    toNode := m.toNode.link owner
    isPresent := m.isPresent.map (Reference.link m.id)
    blocks := m.blocks.map (AddressBlock.link m.id) } := by
  rw [link, Rewriter.onMemoryMap_id]
  rfl

theorem VendorExtension.link_eq (e : VendorExtension) : e.link owner = { e with
    toNode := e.toNode.link owner
    children := e.children.map (VendorExtension.link e.id) } := by
  rw [link, Rewriter.onExtension_id]
  rfl

end

theorem Component.link_eq (c : Component) : c.link = { c with
    toNode := c.toNode.link none
    parameters := c.parameters.map (Parameter.link c.id)
    resetTypes := c.resetTypes.map (ResetType.link c.id)
    memoryMaps := c.memoryMaps.map (MemoryMap.link c.id)
    extensions := c.extensions.map (VendorExtension.link c.id) } := by
  rw [link, Rewriter.onComponent_id]
  rfl

end RegAtlas
