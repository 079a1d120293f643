import RegAtlas.Proofs.Rename.Tree

/-!
# What a renaming does

A renaming fails exactly if the children of some node get one name twice, with the first such node
in the fault. In every case it converts all names of the selected kinds and touches no other name,
and its report lists the names that changed.
-/

namespace RegAtlas

namespace Item

theorem namesOf_eq (i : Item) (kind : NameKind) : i.namesOf kind =
    i.siblings?.toList.flatMap fun s => if s.kind = kind then s.names else [] := by
  rw [namesOf, childNames_eq, List.filter_flatMap, List.map_flatMap]
  refine List.flatMap_congr fun s _ => ?_
  split <;> simp_all [List.filter_map, Function.comp_def]

/-- What holds of the names of the children, seen from the siblings that the node owns. -/
theorem exists_namesOf_iff {kinds : List NameKind} {P : NameKind → List String → Prop}
    (hnil : ∀ kind, ¬ P kind []) (i : Item) : (∃ kind ∈ kinds, P kind (i.namesOf kind)) ↔
      ∃ s, i.siblings? = some s ∧ s.kind ∈ kinds ∧ P s.kind s.names := by
  cases hs : i.siblings? with
  | none => simp [namesOf_eq, hs, hnil]
  | some s =>
    simp only [namesOf_eq, hs, Option.toList_some, List.flatMap_singleton, Option.some.injEq,
      exists_eq_left']
    constructor
    · rintro ⟨kind, hkind, hP⟩
      split at hP
      case isTrue heq => exact heq ▸ ⟨heq ▸ hkind, heq ▸ hP⟩
      case isFalse => exact absurd hP (hnil kind)
    · rintro ⟨hkind, hP⟩
      exact ⟨s.kind, hkind, by rwa [if_pos rfl]⟩

/-- The paths of a list lead to all named nodes, each once, and to no grandchild of a node before
they lead to a child of it. -/
structure NamedOrder (i : Item) (paths : List (List Nat)) : Prop where
  distinct : paths.Nodup
  complete : ∀ path, path ∈ paths ↔ ∃ j, i.nodeAt? path = some j ∧ j.named? ≠ none
  childrenFirst : paths.Pairwise fun path path' =>
    ∀ start k k' k'', path = start ++ [k', k''] → path' ≠ start ++ [k]

theorem namedOrder_namedPaths {i : Item} (h : i.named? = none) : i.NamedOrder i.namedPaths where
  distinct := i.pairwise_namedPaths.imp And.left
  childrenFirst := i.pairwise_namedPaths.imp And.right
  complete path := by
    rw [mem_namedPaths_iff]
    constructor
    · rintro ⟨-, -, j, -, hj⟩
      exact ⟨j, hj⟩
    · rintro ⟨j, hpath, hj⟩
      obtain rfl | ⟨start, k, rfl⟩ := path.eq_nil_or_concat
      · obtain rfl := Option.some.inj hpath
        exact absurd h hj
      · exact ⟨start, k, j, List.concat_eq_append, hpath, hj⟩

end Item

namespace RenameOptions

variable (o : RenameOptions)

/-- Two children of the node have a selected kind and names with one conversion. -/
def Collides (i : Item) : Prop := ∃ kind ∈ o.kinds, ¬ ((i.namesOf kind).map o.target.convert).Nodup

/-- The fault names the first converted name that children of the node get twice. -/
def CollidesWith (i : Item) (e : Fault) : Prop :=
  ∃ kind ∈ o.kinds, ∃ before name after,
    (i.namesOf kind).map o.target.convert = before ++ name :: after ∧
    before.Nodup ∧ name ∈ before ∧ e = .nameCollision kind.text name (i.newName o.newName)

/-- The fault is that of the first node whose children collide. -/
def FirstCollision (c : Component) (e : Fault) : Prop :=
  ∃ before i after, c.items = before ++ i :: after ∧ (∀ j ∈ before, ¬ o.Collides j) ∧
    o.CollidesWith i e

/-- The old and the new name of a node whose name changes. -/
def change? (node : NameKind × String) : Option (String × String) :=
  if o.newName node.1 node.2 = node.2 then none else some (node.2, o.newName node.1 node.2)

/-- What a renaming without a collision does to a description. -/
def reword (c : Component) (text : String) : String :=
  if o.descriptions then (Mention.replaceAll? (c.siblings.flatMap o.changes) text).getD text
  else text

/-- The fault of the children of a node with converted names. -/
def nodeFault? (i : Item) : Option Fault := (i.renamedSiblings? o.newName).bind o.collision?

variable {o}

theorem collision?_eq_none_iff {s : Siblings} :
    o.collision? s = none ↔ (s.kind ∈ o.kinds → s.names.Nodup) := by
  rw [collision?]
  split <;> simp_all [firstRepeat?_eq_none_iff]

theorem collision?_eq_some_iff {s : Siblings} {e : Fault} : o.collision? s = some e ↔
    s.kind ∈ o.kinds ∧ ∃ before name after, s.names = before ++ name :: after ∧ before.Nodup ∧
      name ∈ before ∧ e = .nameCollision s.kind.text name s.parent := by
  rw [collision?]
  split
  case isTrue hkind =>
    simp only [Option.map_eq_some_iff, firstRepeat?_eq_some_iff, hkind, true_and]
    constructor
    · rintro ⟨name, ⟨before, after, hnames, ⟨hnodup, -⟩, hrepeat⟩, rfl⟩
      exact ⟨before, name, after, hnames, by simpa using hnodup, by simpa using hrepeat, rfl⟩
    · rintro ⟨before, name, after, hnames, hnodup, hrepeat, rfl⟩
      exact ⟨name, ⟨before, after, hnames, by simpa using hnodup, by simpa using hrepeat⟩, rfl⟩
  case isFalse hkind => simp [hkind]

theorem map_newName {kind : NameKind} (h : kind ∈ o.kinds) (names : List String) :
    names.map (o.newName kind) = names.map o.target.convert :=
  List.map_congr_left fun _ _ => if_pos h

theorem renamedSiblings?_eq_some_iff {i : Item} {s' : Siblings} :
    i.renamedSiblings? o.newName = some s' ↔ ∃ s, i.siblings? = some s ∧
      s' = ⟨s.kind, i.newName o.newName, s.names.map (o.newName s.kind)⟩ := by
  simp only [Item.renamedSiblings?, Option.map_eq_some_iff, eq_comm (a := s')]

theorem nodeFault?_eq_some_iff {i : Item} {e : Fault} :
    o.nodeFault? i = some e ↔ o.CollidesWith i e := by
  let P (kind : NameKind) (names : List String) : Prop := ∃ before name after,
    names.map o.target.convert = before ++ name :: after ∧ before.Nodup ∧ name ∈ before ∧
      e = .nameCollision kind.text name (i.newName o.newName)
  have hnil : ∀ kind, ¬ P kind [] := by simp [P]
  refine Iff.trans ?_ (i.exists_namesOf_iff hnil).symm
  simp only [nodeFault?, Option.bind_eq_some_iff, renamedSiblings?_eq_some_iff,
    collision?_eq_some_iff]
  constructor
  · rintro ⟨_, ⟨s, hs, rfl⟩, hkind, h⟩
    refine ⟨s, hs, hkind, ?_⟩
    rwa [map_newName hkind] at h
  · rintro ⟨s, hs, hkind, h⟩
    refine ⟨_, ⟨s, hs, rfl⟩, hkind, ?_⟩
    rwa [map_newName hkind]

theorem nodeFault?_eq_none_iff {i : Item} : o.nodeFault? i = none ↔ ¬ o.Collides i := by
  rw [Collides, Item.exists_namesOf_iff (P := fun _ names => ¬ (names.map o.target.convert).Nodup)
    (by simp)]
  simp only [nodeFault?, Option.bind_eq_none_iff, renamedSiblings?_eq_some_iff,
    collision?_eq_none_iff]
  constructor
  · rintro h ⟨s, hs, hkind, hrepeat⟩
    exact hrepeat (map_newName hkind s.names ▸ h _ ⟨s, hs, rfl⟩ hkind)
  · rintro h _ ⟨s, hs, rfl⟩ hkind
    by_contra hrepeat
    exact h ⟨s, hs, hkind, map_newName hkind s.names ▸ hrepeat⟩

theorem changes_eq (s : Siblings) :
    o.changes s = s.names.filterMap fun name => o.change? (s.kind, name) := by
  rw [changes, List.filter_map, ← List.filterMap_eq_map, List.filterMap_filter]
  refine List.filterMap_congr fun name _ => ?_
  by_cases h : o.newName s.kind name = name <;> simp [change?, h, bne_iff_ne, Ne.symm]

theorem reword_of_descriptions (h : o.descriptions = false) (c : Component) : o.reword c = id := by
  funext text
  simp [reword, h]

/-- A description stays if no name changed. -/
theorem reword_of_changes_eq_nil {c : Component} (h : c.siblings.flatMap o.changes = []) :
    o.reword c = id := by
  funext text
  simp [reword, h, Mention.replaceAll?]

end RenameOptions

namespace Component

variable {o : RenameOptions} {c : Component}

theorem findSome?_collision? (o : RenameOptions) (c : Component) :
    (c.mapNames o.newName).siblings.findSome? o.collision? = c.items.findSome? o.nodeFault? := by
  rw [siblings_mapNames, ← List.head?_filterMap, ← List.head?_filterMap, List.filterMap_filterMap]
  rfl

theorem findSome?_nodeFault?_eq_none_iff :
    c.items.findSome? o.nodeFault? = none ↔ ∀ i ∈ c.items, ¬ o.Collides i := by
  simp only [List.findSome?_eq_none_iff, RenameOptions.nodeFault?_eq_none_iff]

theorem findSome?_nodeFault?_eq_some_iff {e : Fault} :
    c.items.findSome? o.nodeFault? = some e ↔ o.FirstCollision c e := by
  simp only [List.findSome?_eq_some_iff, RenameOptions.nodeFault?_eq_none_iff,
    RenameOptions.nodeFault?_eq_some_iff, RenameOptions.FirstCollision]
  constructor
  · rintro ⟨before, i, after, hitems, hi, hbefore⟩
    exact ⟨before, i, after, hitems, hbefore, hi⟩
  · rintro ⟨before, i, after, hitems, hbefore, hi⟩
    exact ⟨before, i, after, hitems, hi, hbefore⟩

/-- A renaming that fails has changed names only. -/
theorem rename_of_fault {e : Fault} (h : c.items.findSome? o.nodeFault? = some e) :
    c.rename o = (c.mapNames o.newName, .error e) := by
  rw [rename, findSome?_collision?, h]

/-- A renaming without a fault. -/
theorem rename_of_no_fault (h : c.items.findSome? o.nodeFault? = none) :
    ∃ count, c.rename o = ((c.mapNames o.newName).mapDescriptions (o.reword c),
      .ok ⟨c.siblings.flatMap o.changes, count⟩) := by
  rw [rename, findSome?_collision?, h]
  by_cases hdescriptions : o.descriptions = true
  · by_cases hchanges : c.siblings.flatMap o.changes = []
    · simp [hchanges, RenameOptions.reword_of_changes_eq_nil hchanges, mapDescriptions_id]
    · have hreword : o.reword c = fun text =>
          (Mention.replaceAll? (c.siblings.flatMap o.changes) text).getD text :=
        funext fun _ => if_pos hdescriptions
      simp [hdescriptions, hchanges, hreword]
  · rw [Bool.not_eq_true] at hdescriptions
    simp [hdescriptions, RenameOptions.reword_of_descriptions hdescriptions, mapDescriptions_id]

theorem rename_fault_iff : (∃ e, (c.rename o).2 = .error e) ↔ ∃ i ∈ c.items, o.Collides i := by
  cases h : c.items.findSome? o.nodeFault? with
  | some e =>
    have hcollides : ¬ ∀ i ∈ c.items, ¬ o.Collides i := fun hnone => by
      simp [findSome?_nodeFault?_eq_none_iff.2 hnone] at h
    simpa [rename_of_fault h] using hcollides
  | none =>
    obtain ⟨count, hrename⟩ := rename_of_no_fault h
    simpa [hrename] using findSome?_nodeFault?_eq_none_iff.1 h

theorem rename_eq_error_iff {e : Fault} : (c.rename o).2 = .error e ↔ o.FirstCollision c e := by
  rw [← findSome?_nodeFault?_eq_some_iff]
  cases h : c.items.findSome? o.nodeFault? with
  | some e' => simp [rename_of_fault h]
  | none =>
    obtain ⟨count, hrename⟩ := rename_of_no_fault h
    simp [hrename]

/-- A renaming changes names, and descriptions only when it succeeds and is asked to. -/
theorem rename_fst (o : RenameOptions) (c : Component) : ∃ reword,
    (c.rename o).1 = (c.mapNames o.newName).mapDescriptions reword ∧
      ((∃ e, (c.rename o).2 = .error e) ∨ o.descriptions = false → reword = id) := by
  cases h : c.items.findSome? o.nodeFault? with
  | some e =>
    refine ⟨id, ?_, fun _ => rfl⟩
    rw [rename_of_fault h, mapDescriptions_id]
  | none =>
    obtain ⟨count, hrename⟩ := rename_of_no_fault h
    refine ⟨o.reword c, by rw [hrename], ?_⟩
    rintro (⟨e, he⟩ | hdescriptions)
    · simp [hrename] at he
    · exact RenameOptions.reword_of_descriptions hdescriptions c

theorem siblings_rename (o : RenameOptions) (c : Component) :
    (c.rename o).1.siblings = c.items.filterMap (Item.renamedSiblings? o.newName) := by
  obtain ⟨reword, hrename, -⟩ := rename_fst o c
  rw [hrename, siblings_mapDescriptions, siblings_mapNames]

/-- The children of the nodes have names of their own if the lists of siblings have no name
twice. -/
theorem nodup_namesOf_iff {kinds : List NameKind} (c : Component) :
    (∀ i ∈ c.items, ∀ kind ∈ kinds, (i.namesOf kind).Nodup) ↔
      ∀ s ∈ c.siblings, s.kind ∈ kinds → s.names.Nodup := by
  have hnode : ∀ i : Item, (∀ kind ∈ kinds, (i.namesOf kind).Nodup) ↔
      ∀ s, i.siblings? = some s → s.kind ∈ kinds → s.names.Nodup := by
    intro i
    have h : (∃ kind ∈ kinds, ¬ (i.namesOf kind).Nodup) ↔ _ :=
      i.exists_namesOf_iff (P := fun _ names => ¬ names.Nodup) (by simp)
    simpa using not_congr h
  simp only [hnode, siblings, List.mem_filterMap]
  constructor
  · rintro h s ⟨i, hi, hs⟩
    exact h i hi s hs
  · exact fun h i hi s hs => h s ⟨i, hi, hs⟩

theorem no_fault_of_rename {report : RenameReport} (h : (c.rename o).2 = .ok report) :
    c.items.findSome? o.nodeFault? = none := by
  cases hfault : c.items.findSome? o.nodeFault? with
  | none => rfl
  | some e => simp [rename_of_fault hfault] at h

theorem nodup_of_rename {report : RenameReport} (h : (c.rename o).2 = .ok report) :
    ∀ i ∈ (c.rename o).1.items, ∀ kind ∈ o.kinds, (i.namesOf kind).Nodup := by
  have hnone : (c.mapNames o.newName).siblings.findSome? o.collision? = none := by
    rw [findSome?_collision?]
    exact no_fault_of_rename h
  rw [nodup_namesOf_iff, siblings_rename, ← siblings_mapNames]
  intro s hs
  exact RenameOptions.collision?_eq_none_iff.1 (List.findSome?_eq_none_iff.1 hnone s hs)

/-- The report of a renaming lists what changed along the named nodes. -/
theorem renamed_eq {report : RenameReport} (h : (c.rename o).2 = .ok report) :
    report.renamed = (Item.component c).namedPaths.filterMap fun path =>
      (((Item.component c).nodeAt? path).bind Item.named?).bind o.change? := by
  obtain ⟨count, hrename⟩ := rename_of_no_fault (no_fault_of_rename h)
  rw [hrename] at h
  obtain rfl := Except.ok.inj h
  rw [← flatMap_siblings]
  exact List.flatMap_congr fun s _ => o.changes_eq s

/-- The exact effect of a renaming. It fails exactly if children of one node and one selected kind
get one name, with the first such collision as its fault. In every case names of selected kinds are
converted and all else beside descriptions is kept, descriptions too when it fails. When it
succeeds, siblings of selected kinds have names of their own, and the report lists the names that
differ, each node once and children of a node before its grandchildren. -/
theorem rename_exact (o : RenameOptions) (c : Component) :
    ((∃ e, (c.rename o).2 = .error e) ↔ ∃ i ∈ c.items, o.Collides i) ∧
    (∀ e, (c.rename o).2 = .error e ↔ o.FirstCollision c e) ∧
    (∃ reword, c.RenamedBy o.newName reword (c.rename o).1 ∧
      ((∃ e, (c.rename o).2 = .error e) ∨ o.descriptions = false → reword = id)) ∧
    ∀ report, (c.rename o).2 = .ok report →
      (∀ i ∈ (c.rename o).1.items, ∀ kind ∈ o.kinds, (i.namesOf kind).Nodup) ∧
      ∃ paths, (Item.component c).NamedOrder paths ∧
        report.renamed = paths.filterMap fun path =>
          (((Item.component c).nodeAt? path).bind Item.named?).bind o.change? := by
  refine ⟨rename_fault_iff, fun e => rename_eq_error_iff, ?_, fun report h => ?_⟩
  · obtain ⟨reword, hrename, hkept⟩ := rename_fst o c
    exact ⟨reword, (renamedBy_iff c _).2 hrename, hkept⟩
  · exact ⟨nodup_of_rename h, _, Item.namedOrder_namedPaths rfl, renamed_eq h⟩

end Component

end RegAtlas
