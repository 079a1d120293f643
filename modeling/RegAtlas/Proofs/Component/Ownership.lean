import Mathlib.Data.List.Nodup
import RegAtlas.Component.Item

/-!
# Ownership

The nodes of a component as a tree: what each node owns, and the paths that lead down to the nodes
below it. When no two nodes have one identifier, the identifier of a node tells the path to it.
-/

namespace RegAtlas

theorem VendorExtension.itemsAll_eq (es : List VendorExtension) :
    itemsAll es = es.flatMap items := by
  induction es with
  | nil => rfl
  | cons e es ih => rw [itemsAll, ih, List.flatMap_cons]

namespace Item

theorem references_cons (r : Option Reference) (rs : List (Option Reference)) :
    references (r :: rs) = r.toList.flatMap (fun r => [reference r]) ++ references rs := by
  cases r <;> rfl

theorem references_nil : references [] = [] := rfl

/-- The nodes that a node owns, its values before its other children. -/
def children : Item → List Item
  | component c => c.parameters.map parameter ++ c.resetTypes.map resetType ++
      c.memoryMaps.map memoryMap ++ c.extensions.map extension
  | parameter p => references [p.value]
  | resetType _ => []
  | extension e => e.children.map extension
  | memoryMap m => references [m.isPresent] ++ m.blocks.map block
  | block b => references b.references ++ b.registers.map register
  | register r => references r.references ++ r.fields.map field
  | field f => f.fieldId.toList.map value ++ references f.references ++ f.resets.map reset ++
      f.enumValues.map enumValue
  | reset r => references [r.value, r.mask]
  | enumValue e => e.value.toList.map value
  | reference _ => []
  | value _ => []

/-- A node and all nodes below it, in order. -/
def subtree : Item → List Item
  | component c => c.items
  | parameter p => p.items
  | resetType t => [resetType t]
  | extension e => e.items
  | memoryMap m => m.items
  | block b => b.items
  | register r => r.items
  | field f => f.items
  | reset r => r.items
  | enumValue e => e.items
  | reference r => [reference r]
  | value v => [value v]

theorem flatMap_subtree_references (rs : List (Option Reference)) :
    (references rs).flatMap subtree = references rs := by
  simp [references, List.flatMap_map, subtree, ← List.map_eq_flatMap]

/-- Below a node stand the nodes that it owns, each with those below it. -/
theorem subtree_eq (i : Item) : i.subtree = i :: i.children.flatMap subtree := by
  cases i with
  | resetType | reference | value => rfl
  | extension e =>
    obtain ⟨node, tag, text, attributes, es⟩ := e
    rw [subtree, VendorExtension.items, VendorExtension.itemsAll_eq, children, List.flatMap_map]
    rfl
  | component c =>
    simp only [subtree, Component.items, VendorExtension.itemsAll_eq, children,
      List.flatMap_append, List.flatMap_map, ← List.map_eq_flatMap]
  | parameter p => simp only [subtree, Parameter.items, children, flatMap_subtree_references]
  | reset r => simp only [subtree, Reset.items, children, flatMap_subtree_references]
  | enumValue e =>
    simp only [subtree, EnumValue.items, children, List.flatMap_map, ← List.map_eq_flatMap]
  | memoryMap m =>
    simp only [subtree, MemoryMap.items, children, List.flatMap_append, List.flatMap_map,
      flatMap_subtree_references]
  | block b =>
    simp only [subtree, AddressBlock.items, children, List.flatMap_append, List.flatMap_map,
      flatMap_subtree_references]
  | register r =>
    simp only [subtree, Register.items, children, List.flatMap_append, List.flatMap_map,
      flatMap_subtree_references]
  | field f =>
    simp only [subtree, BitField.items, children, List.flatMap_append, List.flatMap_map,
      flatMap_subtree_references, ← List.map_eq_flatMap]

theorem subtree_sublist {i j : Item} (h : j ∈ i.children) :
    j.subtree.Sublist (i.children.flatMap subtree) :=
  List.sublist_flatten_of_mem (List.mem_map_of_mem h)

/-- What holds of a node whenever it holds of all that it owns holds of every node. -/
theorem induction {P : Item → Prop} (step : ∀ i : Item, (∀ j ∈ i.children, P j) → P i)
    (i : Item) : P i := by
  induction hsize : i.subtree.length using Nat.strongRecOn generalizing i with
  | ind size ih =>
    refine step i fun j hj => ih j.subtree.length ?_ j rfl
    have hle := (subtree_sublist hj).length_le
    rw [← hsize, subtree_eq i, List.length_cons]
    omega

/-! ### Paths -/

/-- The node at the end of a path. The path tells at each node which of its children is next. -/
def nodeAt? : Item → List Nat → Option Item
  | i, [] => some i
  | i, k :: path => i.children[k]?.bind (nodeAt? · path)

theorem nodeAt?_append (i : Item) (path path' : List Nat) :
    i.nodeAt? (path ++ path') = (i.nodeAt? path).bind (nodeAt? · path') := by
  induction path generalizing i with
  | nil => rfl
  | cons k path ih =>
    rw [List.cons_append, nodeAt?, nodeAt?, Option.bind_assoc]
    exact congrArg _ (funext ih)

theorem mem_subtree_iff {i j : Item} : j ∈ i.subtree ↔ ∃ path, i.nodeAt? path = some j := by
  induction i using induction generalizing j with
  | step i ih =>
    rw [subtree_eq, List.mem_cons, List.mem_flatMap]
    constructor
    · rintro (rfl | ⟨child, hchild, hj⟩)
      · exact ⟨[], rfl⟩
      · obtain ⟨path, hpath⟩ := (ih child hchild).1 hj
        obtain ⟨k, hk⟩ := List.mem_iff_getElem?.1 hchild
        exact ⟨k :: path, by rw [nodeAt?, hk]; exact hpath⟩
    · rintro ⟨path, hpath⟩
      cases path with
      | nil => exact .inl (Option.some.inj hpath).symm
      | cons k path =>
        obtain ⟨child, hk, hj⟩ := Option.bind_eq_some_iff.1 hpath
        have hchild := List.mem_of_getElem? hk
        exact .inr ⟨child, hchild, (ih child hchild).2 ⟨path, hj⟩⟩

/-- The identifiers of a node and of those below it. -/
def ids (i : Item) : List Nat := i.subtree.map (·.node.id)

theorem ids_eq (i : Item) : i.ids = i.node.id :: i.children.flatMap ids := by
  rw [ids, subtree_eq, List.map_cons, List.map_flatMap]
  rfl

theorem mem_ids_of_nodeAt? {i j : Item} {path : List Nat} (h : i.nodeAt? path = some j) :
    j.node.id ∈ i.ids :=
  List.mem_map_of_mem (mem_subtree_iff.2 ⟨path, h⟩)

/-- Where identifiers do not repeat, no two children have an identifier in common. -/
theorem index_unique {i child child' : Item} {k k' id : Nat} (hnodup : i.ids.Nodup)
    (hk : i.children[k]? = some child) (hk' : i.children[k']? = some child')
    (hid : id ∈ child.ids) (hid' : id ∈ child'.ids) : k = k' := by
  by_contra hne
  rw [ids_eq, List.nodup_cons, List.nodup_flatMap, List.pairwise_iff_getElem] at hnodup
  obtain ⟨-, -, hdisjoint⟩ := hnodup
  obtain ⟨hlt, rfl⟩ := List.getElem?_eq_some_iff.1 hk
  obtain ⟨hlt', rfl⟩ := List.getElem?_eq_some_iff.1 hk'
  rcases Nat.lt_or_gt_of_ne hne with h | h
  · exact hdisjoint k k' hlt hlt' h hid hid'
  · exact hdisjoint k' k hlt' hlt h hid' hid

theorem id_ne_of_child {i child a : Item} {k : Nat} {path : List Nat} (hnodup : i.ids.Nodup)
    (hk : i.children[k]? = some child) (ha : child.nodeAt? path = some a) :
    i.node.id ≠ a.node.id := by
  intro hid
  rw [ids_eq, List.nodup_cons, hid] at hnodup
  exact hnodup.1 (List.mem_flatMap.2 ⟨child, List.mem_of_getElem? hk, mem_ids_of_nodeAt? ha⟩)

/-- Where identifiers do not repeat, one identifier stands at the end of one path. -/
theorem path_unique {i a b : Item} {path path' : List Nat} (hnodup : i.ids.Nodup)
    (ha : i.nodeAt? path = some a) (hb : i.nodeAt? path' = some b) (hid : a.node.id = b.node.id) :
    path = path' := by
  induction path generalizing i path' with
  | nil =>
    obtain rfl := Option.some.inj ha
    cases path' with
    | nil => rfl
    | cons k' path' =>
      obtain ⟨child', hk', hb⟩ := Option.bind_eq_some_iff.1 hb
      exact absurd hid (id_ne_of_child hnodup hk' hb)
  | cons k path ih =>
    obtain ⟨child, hk, ha⟩ := Option.bind_eq_some_iff.1 ha
    cases path' with
    | nil =>
      obtain rfl := Option.some.inj hb
      exact absurd hid.symm (id_ne_of_child hnodup hk ha)
    | cons k' path' =>
      obtain ⟨child', hk', hb⟩ := Option.bind_eq_some_iff.1 hb
      obtain rfl := index_unique hnodup hk hk' (mem_ids_of_nodeAt? ha)
        (hid ▸ mem_ids_of_nodeAt? hb)
      obtain rfl := Option.some.inj (hk.symm.trans hk')
      have hchild : child.ids.Nodup := by
        rw [ids_eq, List.nodup_cons, List.nodup_flatMap] at hnodup
        exact hnodup.2.1 child (List.mem_of_getElem? hk)
      rw [ih hchild ha hb]

end Item

end RegAtlas
