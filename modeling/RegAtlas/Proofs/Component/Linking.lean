import RegAtlas.Proofs.Component.Relabel
import RegAtlas.Proofs.Reference.Resolution

/-!
# Parent links

Linking writes into every node the identifier of its owner, whatever was there before. Identifiers
stay, and a resolution keeps identifiers and links.
-/

namespace RegAtlas

/-! ### A second linking -/

@[simp]
theorem Node.link_link (node : Node) (owner owner' : Option Nat) :
    (node.link owner).link owner' = node.link owner' := rfl

@[simp]
theorem Node.link_id (node : Node) (owner : Option Nat) : (node.link owner).id = node.id := rfl

section

variable (owner : Nat)

theorem Reference.link_link (r : Reference) : (r.link owner).link owner = r.link owner := rfl

theorem Value.link_link (v : Value) : (v.link owner).link owner = v.link owner := rfl

theorem Parameter.link_link (p : Parameter) : (p.link owner).link owner = p.link owner := by
  simp [link_eq, Function.comp_def, Reference.link_link]

theorem ResetType.link_link (t : ResetType) : (t.link owner).link owner = t.link owner := rfl

theorem Reset.link_link (r : Reset) : (r.link owner).link owner = r.link owner := by
  simp [link_eq, Function.comp_def, Reference.link_link]

theorem EnumValue.link_link (e : EnumValue) : (e.link owner).link owner = e.link owner := by
  simp [link_eq, Function.comp_def, Value.link_link]

theorem BitField.link_link (f : BitField) : (f.link owner).link owner = f.link owner := by
  simp [link_eq, Function.comp_def, Reference.link_link, Value.link_link, Reset.link_link,
    EnumValue.link_link]

theorem Register.link_link (r : Register) : (r.link owner).link owner = r.link owner := by
  simp [link_eq, Function.comp_def, Reference.link_link, BitField.link_link]

theorem AddressBlock.link_link (b : AddressBlock) : (b.link owner).link owner = b.link owner := by
  simp [link_eq, Function.comp_def, Reference.link_link, Register.link_link]

theorem MemoryMap.link_link (m : MemoryMap) : (m.link owner).link owner = m.link owner := by
  simp [link_eq, Function.comp_def, Reference.link_link, AddressBlock.link_link]

end

mutual

theorem VendorExtension.link_link (owner : Nat) :
    ∀ e : VendorExtension, (e.link owner).link owner = e.link owner
  | ⟨node, tag, text, attributes, children⟩ => by
    rw [VendorExtension.link_eq, VendorExtension.link_eq, Node.link_id,
      VendorExtension.map_link_link, Node.link_link]

theorem VendorExtension.map_link_link (owner : Nat) :
    ∀ es : List VendorExtension, (es.map (link owner)).map (link owner) = es.map (link owner)
  | [] => rfl
  | e :: es => by
    rw [List.map_cons, List.map_cons, VendorExtension.link_link, VendorExtension.map_link_link]

end

theorem Component.link_link (c : Component) : c.link.link = c.link := by
  simp [link_eq, Function.comp_def, Parameter.link_link, ResetType.link_link, MemoryMap.link_link,
    VendorExtension.link_link]

/-! ### What linking makes of a node -/

theorem linking_id (owner : Option Nat) (i : Item) :
    (linking.actOn owner i).node.id = i.node.id := by
  cases i <;> rfl

theorem node_linking (owner : Option Nat) (i : Item) :
    (linking.rewrite owner i).node = i.node.link owner := by
  rw [Rewriter.node_rewrite]
  cases i <;> rfl

theorem below_linking (owner : Option Nat) (i : Item) :
    linking.below owner i = some i.node.id := by
  cases i <;> rfl

namespace Component

/-- The root has no parent, and the parent of every other node is the node that owns it. -/
structure Linked (c : Component) : Prop where
  root : c.parent = none
  owned : ∀ owner ∈ c.items, ∀ child ∈ owner.children, child.node.parent = some owner.node.id

theorem ids_link (c : Component) : c.link.ids = c.ids :=
  linking_keepsChildren.ids_rewrite linking_id none (.component c)

theorem linked_link (c : Component) : c.link.Linked where
  root := rfl
  owned owner howner child hchild := by
    have hnodes : c.link.items = _ :=
      linking_keepsChildren.subtree_rewrite none (.component c)
    rw [hnodes] at howner
    obtain ⟨⟨seen, i⟩, -, rfl⟩ := List.mem_map.1 howner
    rw [linking_keepsChildren.children_rewrite, below_linking] at hchild
    obtain ⟨j, -, rfl⟩ := List.mem_map.1 hchild
    rw [node_linking, node_linking]
    rfl

end Component

/-! ### Resolution keeps identities -/

section

variable {change : Reference → Reference}
  (h : ∀ owner r, change (Reference.link owner r) = (change r).link owner)
include h

theorem Reset.link_mapReferences (owner : Nat) (r : Reset) :
    (r.mapReferences change).link owner = (r.link owner).mapReferences change := by
  simp [link_eq, mapReferences_eq, Function.comp_def, h]

theorem BitField.link_mapReferences (owner : Nat) (f : BitField) :
    (f.mapReferences change).link owner = (f.link owner).mapReferences change := by
  simp [link_eq, mapReferences_eq, Function.comp_def, h, Reset.link_mapReferences h]

theorem Register.link_mapReferences (owner : Nat) (r : Register) :
    (r.mapReferences change).link owner = (r.link owner).mapReferences change := by
  simp [link_eq, mapReferences_eq, Function.comp_def, h, BitField.link_mapReferences h]

theorem AddressBlock.link_mapReferences (owner : Nat) (b : AddressBlock) :
    (b.mapReferences change).link owner = (b.link owner).mapReferences change := by
  simp [link_eq, mapReferences_eq, Function.comp_def, h, Register.link_mapReferences h]

theorem MemoryMap.link_mapReferences (owner : Nat) (m : MemoryMap) :
    (m.mapReferences change).link owner = (m.link owner).mapReferences change := by
  simp [link_eq, mapReferences_eq, Function.comp_def, h, AddressBlock.link_mapReferences h]

theorem Component.link_mapReferences (c : Component) :
    (c.mapReferences change).link = c.link.mapReferences change := by
  simp [link_eq, mapReferences, Function.comp_def, MemoryMap.link_mapReferences h]

end

theorem Component.ids_mapReferences {change : Reference → Reference}
    (h : ∀ r, (change r).id = r.id) (c : Component) : (c.mapReferences change).ids = c.ids := by
  have hids : ∀ c : Component, c.ids = c.items.filterMap fun i => some i.node.id := fun c =>
    List.filterMap_eq_map.symm ▸ rfl
  have hread : ∀ i, some ((changing change).rewrite () i).node.id = some i.node.id := by
    intro i
    rw [Rewriter.node_rewrite]
    cases i with
    | reference r => exact congrArg some (h r)
    | _ => rfl
  rw [hids, hids]
  exact c.filterMap_mapReferences change hread rfl

theorem Reference.Becomes.id_eq {ps : List Parameter} {r r' : Reference} {o : Outcome}
    (h : Becomes ps r r' o) : r'.id = r.id := by
  cases h <;> rfl

/-- What a reference becomes does not depend on its identity. -/
theorem Reference.Becomes.relabel {ps : List Parameter} {r r' : Reference} {o : Outcome}
    (h : Becomes ps r r' o) (f : Node → Node) : Becomes ps (r.relabel f) (r'.relabel f) o := by
  cases h with
  | keyless hkey => exact .keyless hkey
  | blank hkey hblank => exact .blank hkey hblank
  | value hkey hp hv =>
    have hasks : (r.relabel f).Asks _ := ⟨hkey.key_eq, hkey.shown⟩
    have hvalue := Becomes.value hasks hp hv
    exact hvalue
  | valueless hkey hp hv => exact .valueless ⟨hkey.key_eq, hkey.shown⟩ hp hv
  | literal hkey hno hnumber => exact .literal ⟨hkey.key_eq, hkey.shown⟩ hno hnumber
  | unresolved hkey hno hnumber => exact .unresolved ⟨hkey.key_eq, hkey.shown⟩ hno hnumber

theorem Reference.resolve_relabel (f : Node → Node) (ps : List Parameter) (r : Reference) :
    (r.relabel f).resolve ps = ((r.resolve ps).1.relabel f, (r.resolve ps).2) :=
  ((becomes_resolve ps r).relabel f).resolve_eq

namespace Component

theorem ids_resolved (c : Component) : c.resolved.ids = c.ids :=
  c.ids_mapReferences fun r => (Reference.becomes_resolve c.parameters r).id_eq

/-- Resolution keeps the links. -/
theorem link_resolved (c : Component) : c.link.resolved.link = c.link.resolved := by
  have hresolve : ∀ owner r, c.link.resolvedReference (Reference.link owner r) =
      (c.link.resolvedReference r).link owner := fun owner r =>
    congrArg Prod.fst (r.resolve_relabel (Node.link · (some owner)) c.link.parameters)
  calc c.link.resolved.link = (c.link.mapReferences c.link.resolvedReference).link := rfl
    _ = c.link.link.mapReferences c.link.resolvedReference := link_mapReferences hresolve _
    _ = c.link.resolved := by rw [link_link]; rfl

end Component

end RegAtlas
