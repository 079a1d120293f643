import RegAtlas.Proofs.Component.Rewriting
import RegAtlas.Rename

/-!
# Named nodes

The nodes whose names a renaming can convert are memory maps, blocks, registers, fields and
enumerated values. The lists of siblings are read off the nodes in order, each from the node that
owns them.
-/

namespace RegAtlas

namespace Item

/-- The kind and the name of a node whose name can be converted. -/
def named? : Item → Option (NameKind × String)
  | memoryMap m => some (.memoryMap, m.name)
  | block b => some (.addressBlock, b.name)
  | register r => some (.register, r.name)
  | field f => some (.field, f.name)
  | enumValue e => some (.enumValue, e.name)
  | _ => none

/-- The kinds and names of the children of a node that have them. -/
def childNames (i : Item) : List (NameKind × String) := i.children.filterMap named?

/-- The names of the children of one kind. -/
def namesOf (i : Item) (kind : NameKind) : List String :=
  (i.childNames.filter (·.1 = kind)).map Prod.snd

/-- The name of a node after a change of names. The component keeps its name. -/
def newName (change : NameKind → String → String) : Item → String
  | component c => c.name
  | i => (i.named?.map fun (kind, name) => change kind name).getD ""

/-- The siblings that a node owns, after a change of names. -/
def renamedSiblings? (change : NameKind → String → String) (i : Item) : Option Siblings :=
  i.siblings?.map fun s => ⟨s.kind, i.newName change, s.names.map (change s.kind)⟩

theorem named?_of_mem_references {rs : List (Option Reference)} {i : Item}
    (h : i ∈ references rs) : i.named? = none := by
  obtain ⟨r, -, rfl⟩ := List.mem_map.1 h
  rfl

theorem filterMap_named?_references (rs : List (Option Reference)) :
    (references rs).filterMap named? = [] :=
  List.filterMap_eq_nil_iff.2 fun _ => named?_of_mem_references

/-- The named children of a node are its siblings. -/
theorem childNames_eq (i : Item) :
    i.childNames = i.siblings?.toList.flatMap fun s => s.names.map (s.kind, ·) := by
  cases i <;> simp [childNames, children, siblings?, filterMap_named?_references,
    List.filterMap_map, List.filterMap_append, Function.comp_def, named?]

end Item

/-! ### Changes of names -/

section

variable (change : NameKind → String → String)

theorem naming_keepsChildren : (naming change).KeepsChildren := fun _ i => by cases i <;> rfl

def EnumValue.mapNames (e : EnumValue) : EnumValue := (naming change).onEnumValue () e

def BitField.mapNames (f : BitField) : BitField := (naming change).onField () f

def Register.mapNames (r : Register) : Register := (naming change).onRegister () r

def AddressBlock.mapNames (b : AddressBlock) : AddressBlock := (naming change).onBlock () b

def MemoryMap.mapNames (m : MemoryMap) : MemoryMap := (naming change).onMemoryMap () m

theorem naming_reference (seen : Unit) (r : Reference) : (naming change).reference seen r = r := rfl

theorem naming_value (seen : Unit) (v : Value) : (naming change).value seen v = v := rfl

theorem EnumValue.mapNames_eq (e : EnumValue) :
    e.mapNames change = { e with name := change .enumValue e.name } :=
  Rewriter.onEnumValue_of_keeps () (naming_value change) e

theorem BitField.mapNames_eq (f : BitField) : f.mapNames change = { f with
    name := change .field f.name
    enumValues := f.enumValues.map (EnumValue.mapNames change) } := by
  have hreset : ∀ seen (r : Reset), (naming change).onReset seen r = r := fun seen =>
    Rewriter.onReset_of_keeps seen (naming_reference change)
  rw [mapNames, Rewriter.onField_id]
  simp only [Rewriter.map_of_keeps _ (naming_reference change),
    Rewriter.map_of_keeps _ (naming_value change), List.map_id'' (hreset _)]
  rfl

theorem Register.mapNames_eq (r : Register) : r.mapNames change = { r with
    name := change .register r.name
    fields := r.fields.map (BitField.mapNames change) } := by
  rw [mapNames, Rewriter.onRegister_id]
  simp only [Rewriter.map_of_keeps _ (naming_reference change)]
  rfl

theorem AddressBlock.mapNames_eq (b : AddressBlock) : b.mapNames change = { b with
    name := change .addressBlock b.name
    registers := b.registers.map (Register.mapNames change) } := by
  rw [mapNames, Rewriter.onBlock_id]
  simp only [Rewriter.map_of_keeps _ (naming_reference change)]
  rfl

theorem MemoryMap.mapNames_eq (m : MemoryMap) : m.mapNames change = { m with
    name := change .memoryMap m.name
    blocks := m.blocks.map (AddressBlock.mapNames change) } := by
  rw [mapNames, Rewriter.onMemoryMap_id]
  simp only [Rewriter.map_of_keeps _ (naming_reference change)]
  rfl

theorem Component.mapNames_eq (c : Component) : c.mapNames change =
    { c with memoryMaps := c.memoryMaps.map (MemoryMap.mapNames change) } := by
  have hparameter : ∀ seen (p : Parameter), (naming change).onParameter seen p = p := fun seen =>
    Rewriter.onParameter_of_keeps seen (naming_reference change)
  have hresetType : ∀ seen (t : ResetType), (naming change).resetType seen t = t := fun _ _ => rfl
  have hextension : ∀ seen (e : VendorExtension), (naming change).onExtension seen e = e :=
    Rewriter.onExtension_of_keeps fun _ _ => rfl
  rw [mapNames, Rewriter.onComponent_id]
  simp only [List.map_id'' (hparameter _), List.map_id'' (hresetType _),
    List.map_id'' (hextension _)]
  rfl

namespace Item

/-- A node with the names at and below it changed. -/
def mapNames (i : Item) : Item := (naming change).rewrite () i

@[simp] theorem mapNames_component (c : Component) :
    (component c).mapNames change = component (c.mapNames change) := rfl

@[simp] theorem mapNames_memoryMap (m : MemoryMap) :
    (memoryMap m).mapNames change = memoryMap (m.mapNames change) := rfl

@[simp] theorem mapNames_block (b : AddressBlock) :
    (block b).mapNames change = block (b.mapNames change) := rfl

@[simp] theorem mapNames_register (r : Register) :
    (register r).mapNames change = register (r.mapNames change) := rfl

@[simp] theorem mapNames_field (f : BitField) :
    (field f).mapNames change = field (f.mapNames change) := rfl

@[simp] theorem mapNames_enumValue (e : EnumValue) :
    (enumValue e).mapNames change = enumValue (e.mapNames change) := rfl

@[simp] theorem mapNames_reference (r : Reference) :
    (reference r).mapNames change = reference r := rfl

@[simp] theorem mapNames_value (v : Value) : (value v).mapNames change = value v := rfl

@[simp] theorem mapNames_resetType (t : ResetType) :
    (resetType t).mapNames change = resetType t := rfl

@[simp] theorem mapNames_parameter (p : Parameter) :
    (parameter p).mapNames change = parameter p :=
  congrArg parameter (Rewriter.onParameter_of_keeps () (naming_reference change) p)

@[simp] theorem mapNames_reset (r : Reset) : (reset r).mapNames change = reset r :=
  congrArg reset (Rewriter.onReset_of_keeps () (naming_reference change) r)

@[simp] theorem mapNames_extension (e : VendorExtension) :
    (extension e).mapNames change = extension e :=
  congrArg extension (Rewriter.onExtension_of_keeps (fun _ _ => rfl) () e)

/-- The siblings of a node after a change of names. -/
theorem siblings?_mapNames (i : Item) :
    (i.mapNames change).siblings? = i.renamedSiblings? change := by
  cases i <;> simp [siblings?, renamedSiblings?, newName, named?, Component.mapNames_eq,
    MemoryMap.mapNames_eq, AddressBlock.mapNames_eq, Register.mapNames_eq, BitField.mapNames_eq,
    EnumValue.mapNames_eq]

end Item

/-- The lists of siblings after a change of names, in the order of the nodes that own them. -/
theorem Component.siblings_mapNames (c : Component) : (c.mapNames change).siblings =
    c.items.filterMap (Item.renamedSiblings? change) :=
  (naming_keepsChildren change).filterMap_subtree (fun _ => Item.siblings?_mapNames change) ()
    (.component c)

end

/-! ### Names that a change keeps -/

/-- The names of the siblings stay under a change of names. -/
def Siblings.KeptBy (change : NameKind → String → String) (s : Siblings) : Prop :=
  ∀ name ∈ s.names, change s.kind name = name

section

variable {change : NameKind → String → String}

theorem Label.withName_eq_self_iff {l : Label} {name : String} :
    { l with name } = l ↔ name = l.name := by
  cases l
  simp

namespace Item

/-- The node has no name that can be converted, or its name stays. -/
def NameKept (change : NameKind → String → String) (i : Item) : Prop :=
  ∀ kind name, i.named? = some (kind, name) → change kind name = name

/-- The children of a node keep their names if its siblings do. -/
theorem nameKept_children_iff (i : Item) : (∀ j ∈ i.children, j.NameKept change) ↔
    ∀ s, i.siblings? = some s → s.KeptBy change := by
  have hnames : (∀ x ∈ i.childNames, change x.1 x.2 = x.2) ↔
      ∀ j ∈ i.children, j.NameKept change := by
    simp only [childNames, List.mem_filterMap, forall_exists_index, and_imp, NameKept, Prod.forall]
    exact ⟨fun h j hj kind name hname => h kind name j hj hname,
      fun h kind name j hj hname => h j hj kind name hname⟩
  rw [← hnames, childNames_eq]
  cases i.siblings? <;> simp [Siblings.KeptBy]

/-- A change of names leaves a node as it is exactly if it keeps its name and leaves its children
as they are. -/
theorem mapNames_eq_self_iff (i : Item) : i.mapNames change = i ↔
    i.NameKept change ∧ ∀ j ∈ i.children, j.mapNames change = j := by
  have hreferences : ∀ rs, (∀ j ∈ references rs, j.mapNames change = j) ↔ True := by
    simp [references]
  cases i with
  | resetType | reference | value => simp [NameKept, named?, children]
  | parameter | reset =>
    simp only [NameKept, named?, children, hreferences]
    simp
  | extension e => simp [NameKept, named?, children]
  | enumValue e =>
    have hparts : e.mapNames change = e ↔ change .enumValue e.name = e.name := by
      rw [EnumValue.mapNames_eq]
      cases e
      simp [Label.withName_eq_self_iff]
    simp [NameKept, named?, children, hparts]
  | field f =>
    have hparts : f.mapNames change = f ↔ change .field f.name = f.name ∧
        f.enumValues.map (EnumValue.mapNames change) = f.enumValues := by
      rw [BitField.mapNames_eq]
      cases f
      simp [Label.withName_eq_self_iff]
    simp only [children, List.forall_mem_append, hreferences]
    simp [NameKept, named?, hparts, map_eq_self_iff]
  | register r =>
    have hparts : r.mapNames change = r ↔ change .register r.name = r.name ∧
        r.fields.map (BitField.mapNames change) = r.fields := by
      rw [Register.mapNames_eq]
      cases r
      simp [Label.withName_eq_self_iff]
    simp only [children, List.forall_mem_append, hreferences]
    simp [NameKept, named?, hparts, map_eq_self_iff]
  | block b =>
    have hparts : b.mapNames change = b ↔ change .addressBlock b.name = b.name ∧
        b.registers.map (Register.mapNames change) = b.registers := by
      rw [AddressBlock.mapNames_eq]
      cases b
      simp [Label.withName_eq_self_iff]
    simp only [children, List.forall_mem_append, hreferences]
    simp [NameKept, named?, hparts, map_eq_self_iff]
  | memoryMap m =>
    have hparts : m.mapNames change = m ↔ change .memoryMap m.name = m.name ∧
        m.blocks.map (AddressBlock.mapNames change) = m.blocks := by
      rw [MemoryMap.mapNames_eq]
      cases m
      simp [Label.withName_eq_self_iff]
    simp only [children, List.forall_mem_append, hreferences]
    simp [NameKept, named?, hparts, map_eq_self_iff]
  | component c =>
    have hparts : c.mapNames change = c ↔
        c.memoryMaps.map (MemoryMap.mapNames change) = c.memoryMaps := by
      rw [Component.mapNames_eq]
      cases c
      simp
    simp [NameKept, named?, children, or_imp, forall_and, hparts, map_eq_self_iff]

/-- A change of names leaves a node as it is exactly if it keeps its name and the names of all
siblings at and below it. -/
theorem mapNames_eq_self_iff_siblings (i : Item) : i.mapNames change = i ↔
    i.NameKept change ∧ ∀ s ∈ i.subtree.filterMap siblings?, s.KeptBy change := by
  induction i using induction with
  | step i ih =>
    have hchildren : (∀ j ∈ i.children, j.mapNames change = j) ↔
        (∀ s, i.siblings? = some s → s.KeptBy change) ∧
          ∀ j ∈ i.children, ∀ s ∈ j.subtree.filterMap siblings?, s.KeptBy change := by
      rw [← nameKept_children_iff, ← forall₂_and]
      exact forall₂_congr ih
    have hsubtree : ∀ s, s ∈ i.subtree.filterMap siblings? ↔ i.siblings? = some s ∨
        ∃ j ∈ i.children, s ∈ j.subtree.filterMap siblings? := by
      intro s
      rw [subtree_eq, List.filterMap_cons, List.filterMap_flatMap]
      cases i.siblings? <;> simp [eq_comm]
    rw [mapNames_eq_self_iff, hchildren]
    simp only [hsubtree, or_imp, forall_and, forall_exists_index, and_imp]
    exact and_congr_right fun _ => and_congr_right fun _ =>
      ⟨fun h s j hj => h j hj s, fun h j hj s => h s j hj⟩

end Item

/-- A change of names leaves a component as it is exactly if it keeps the names of all siblings. -/
theorem Component.mapNames_eq_self_iff {c : Component} :
    c.mapNames change = c ↔ ∀ s ∈ c.siblings, s.KeptBy change := by
  have hroot : (Item.component c).NameKept change := fun _ _ h => nomatch h
  have hnode : (Item.component c).mapNames change = .component c ↔ _ :=
    (Item.component c).mapNames_eq_self_iff_siblings
  rw [and_iff_right hroot] at hnode
  exact (Iff.of_eq (Item.component.injEq _ _)).symm.trans hnode

end

/-! ### Paths to named nodes -/

namespace Item

/-- The paths to the named nodes, the children of a node at its place in the order of the nodes. -/
def namedPaths (i : Item) : List (List Nat) :=
  i.paths.flatMap fun path => ((i.nodeAt? path).toList.flatMap fun j =>
    (j.children.zipIdx.filter (·.1.named?.isSome)).map fun x => path ++ [x.2])

theorem mem_namedPaths_iff {i : Item} {path : List Nat} : path ∈ i.namedPaths ↔
    ∃ start k j, path = start ++ [k] ∧ i.nodeAt? path = some j ∧ j.named? ≠ none := by
  simp only [namedPaths, List.mem_flatMap, mem_paths_iff, Option.mem_toList, List.mem_map,
    List.mem_filter, List.mem_zipIdx_iff_getElem?, Option.isSome_iff_ne_none]
  constructor
  · rintro ⟨start, -, owner, howner, x, ⟨hx, hnamed⟩, rfl⟩
    refine ⟨start, x.2, x.1, rfl, ?_, hnamed⟩
    rw [nodeAt?_append, howner, Option.bind_some, nodeAt?, hx]
    rfl
  · rintro ⟨start, k, j, rfl, hj, hnamed⟩
    rw [nodeAt?_append] at hj
    obtain ⟨owner, howner, hlast⟩ := Option.bind_eq_some_iff.1 hj
    obtain ⟨child, hk, hchild⟩ := Option.bind_eq_some_iff.1 hlast
    obtain rfl := Option.some.inj hchild
    exact ⟨start, ⟨owner, howner⟩, owner, howner, (child, k), ⟨hk, hnamed⟩, rfl⟩

/-- No path stands twice, and none to a grandchild of a node before one to a child of it. -/
theorem pairwise_namedPaths (i : Item) : i.namedPaths.Pairwise fun path path' => path ≠ path' ∧
    ∀ start k k' k'', path = start ++ [k', k''] → path' ≠ start ++ [k] := by
  rw [namedPaths, List.pairwise_flatMap]
  constructor
  · intro path hpath
    obtain ⟨j, hj⟩ := mem_paths_iff.1 hpath
    rw [hj, Option.toList_some, List.flatMap_singleton, List.pairwise_map]
    refine ((pairwise_index_ne j.children).filter _).imp fun hne =>
      ⟨by simpa using hne, fun start k k' k'' h h' => ?_⟩
    have hlength := congrArg List.length h
    have hlength' := congrArg List.length h'
    simp only [List.length_append, List.length_cons, List.length_nil] at hlength hlength'
    omega
  · refine i.pairwise_paths.imp fun {path path'} hbefore a ha b hb => ?_
    simp only [List.mem_flatMap, List.mem_map] at ha hb
    obtain ⟨_, -, x, -, rfl⟩ := ha
    obtain ⟨_, -, y, -, rfl⟩ := hb
    constructor
    · intro heq
      exact hbefore ((List.append_inj' heq rfl).1 ▸ List.prefix_rfl)
    · -- The owner of a grandchild stands behind the node whose grandchild it is.
      intro start k k' k'' h h'
      rw [show start ++ [k', k''] = start ++ [k'] ++ [k''] by simp] at h
      have hpath : path = start ++ [k'] := (List.append_inj' h rfl).1
      have hpath' : path' = start := (List.append_inj' h' rfl).1
      exact hbefore ⟨[k'], by rw [hpath, hpath']⟩

/-- What is read from the named nodes along their paths is read from the children of the nodes in
order. -/
theorem filterMap_namedPaths {α : Type} (f : NameKind × String → Option α) (i : Item) :
    i.namedPaths.filterMap (fun path => ((i.nodeAt? path).bind named?).bind f) =
      i.subtree.flatMap fun j => j.childNames.filterMap f := by
  have hblock : ∀ path ∈ i.paths, ((i.nodeAt? path).toList.flatMap fun j =>
      (j.children.zipIdx.filter (·.1.named?.isSome)).map fun x => path ++ [x.2]).filterMap
        (fun path => ((i.nodeAt? path).bind named?).bind f) =
      (i.nodeAt? path).toList.flatMap fun j => j.childNames.filterMap f := by
    intro path hpath
    obtain ⟨j, hj⟩ := mem_paths_iff.1 hpath
    have hchild : ∀ x ∈ j.children.zipIdx, i.nodeAt? (path ++ [x.2]) = some x.1 := by
      intro x hx
      rw [nodeAt?_append, hj, Option.bind_some, nodeAt?, List.mem_zipIdx_iff_getElem?.1 hx]
      rfl
    rw [hj, Option.toList_some, List.flatMap_singleton, List.flatMap_singleton, List.filterMap_map,
      List.filterMap_filter, childNames, List.filterMap_filterMap]
    calc j.children.zipIdx.filterMap (fun x => if x.1.named?.isSome then
          ((i.nodeAt? (path ++ [x.2])).bind named?).bind f else none)
        = j.children.zipIdx.filterMap (fun x => x.1.named?.bind f) := by
          refine List.filterMap_congr fun x hx => ?_
          rw [hchild x hx, Option.bind_some]
          cases x.1.named? <;> rfl
      _ = (j.children.zipIdx.map Prod.fst).filterMap fun child => child.named?.bind f := by
          rw [List.filterMap_map]
          rfl
      _ = j.children.filterMap fun child => child.named?.bind f := by rw [List.zipIdx_map_fst]
  rw [namedPaths, List.filterMap_flatMap, List.flatMap_congr hblock]
  have hnodes := congrArg (List.flatMap fun o : Option Item =>
    o.toList.flatMap fun j => j.childNames.filterMap f) i.map_nodeAt?_paths
  rw [List.flatMap_map, List.flatMap_map] at hnodes
  simpa using hnodes

end Item

/-- What is read from the names of all siblings is read from the named nodes along their paths. -/
theorem Component.flatMap_siblings {α : Type} (f : NameKind × String → Option α) (c : Component) :
    (c.siblings.flatMap fun s => s.names.filterMap fun name => f (s.kind, name)) =
      (Item.component c).namedPaths.filterMap fun path =>
        (((Item.component c).nodeAt? path).bind Item.named?).bind f := by
  rw [Item.filterMap_namedPaths, siblings, List.filterMap_eq_flatMap_toList,
    List.flatMap_assoc]
  refine List.flatMap_congr fun i _ => ?_
  rw [Item.childNames_eq, List.filterMap_flatMap]
  simp only [List.filterMap_map]
  rfl

end RegAtlas
