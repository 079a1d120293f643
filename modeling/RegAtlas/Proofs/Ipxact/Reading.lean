import RegAtlas.Proofs.Component.Lineage
import RegAtlas.Proofs.Ipxact.Acceptance
import RegAtlas.Proofs.Ipxact.Identity

/-!
# Readings

What holds of every component that was read. It is the component of the root element with its nodes
linked and its references resolved. These steps keep names and keys, and the identifiers that the
nodes were made with.
-/

namespace RegAtlas

/-! ### Names -/

section

variable (f : Node → Node)

theorem Register.namesDistinct_relabel (r : Register) :
    (r.relabel f).NamesDistinct ↔ r.NamesDistinct := by
  simp [NamesDistinct, relabel_eq, BitField.relabel_eq, Function.comp_def]

theorem AddressBlock.namesDistinct_relabel (b : AddressBlock) :
    (b.relabel f).NamesDistinct ↔ b.NamesDistinct := by
  have hnames : (b.relabel f).registers.map (·.name) = b.registers.map (·.name) := by
    simp [relabel_eq, Register.relabel_eq, Function.comp_def]
  rw [namesDistinct_iff, namesDistinct_iff, hnames]
  simp [relabel_eq, Register.namesDistinct_relabel]

theorem MemoryMap.namesDistinct_relabel (m : MemoryMap) :
    (m.relabel f).NamesDistinct ↔ m.NamesDistinct := by
  have hnames : (m.relabel f).blocks.map (·.name) = m.blocks.map (·.name) := by
    simp [relabel_eq, AddressBlock.relabel_eq, Function.comp_def]
  rw [namesDistinct_iff, namesDistinct_iff, hnames]
  simp [relabel_eq, AddressBlock.namesDistinct_relabel]

theorem Component.namesDistinct_relabel (c : Component) :
    (c.relabel f).NamesDistinct ↔ c.NamesDistinct := by
  have hkeys : (c.relabel f).parameters.map (·.key) = c.parameters.map (·.key) := by
    simp [relabel_eq, Parameter.relabel_eq, Function.comp_def]
  have hnames : (c.relabel f).memoryMaps.map (·.name) = c.memoryMaps.map (·.name) := by
    simp [relabel_eq, MemoryMap.relabel_eq, Function.comp_def]
  rw [namesDistinct_iff, namesDistinct_iff, hkeys, hnames]
  simp [relabel_eq, MemoryMap.namesDistinct_relabel]

end

theorem Component.namesDistinct_link (c : Component) :
    c.link.NamesDistinct ↔ c.NamesDistinct := by
  rw [← namesDistinct_relabel unmarked, relabel_link fun _ _ => rfl, namesDistinct_relabel]

section

variable (change : Reference → Reference)

theorem Register.namesDistinct_mapReferences (r : Register) :
    (r.mapReferences change).NamesDistinct ↔ r.NamesDistinct := by
  simp [NamesDistinct, mapReferences_eq, BitField.mapReferences_eq, Function.comp_def]

theorem AddressBlock.namesDistinct_mapReferences (b : AddressBlock) :
    (b.mapReferences change).NamesDistinct ↔ b.NamesDistinct := by
  have hnames : (b.mapReferences change).registers.map (·.name) = b.registers.map (·.name) := by
    simp [mapReferences_eq, Register.mapReferences_eq, Function.comp_def]
  rw [namesDistinct_iff, namesDistinct_iff, hnames]
  simp [mapReferences_eq, Register.namesDistinct_mapReferences]

theorem MemoryMap.namesDistinct_mapReferences (m : MemoryMap) :
    (m.mapReferences change).NamesDistinct ↔ m.NamesDistinct := by
  have hnames : (m.mapReferences change).blocks.map (·.name) = m.blocks.map (·.name) := by
    simp [mapReferences_eq, AddressBlock.mapReferences_eq, Function.comp_def]
  rw [namesDistinct_iff, namesDistinct_iff, hnames]
  simp [mapReferences_eq, AddressBlock.namesDistinct_mapReferences]

theorem Component.namesDistinct_mapReferences (c : Component) :
    (c.mapReferences change).NamesDistinct ↔ c.NamesDistinct := by
  have hnames : (c.mapReferences change).memoryMaps.map (·.name) = c.memoryMaps.map (·.name) := by
    simp [mapReferences, MemoryMap.mapReferences_eq, Function.comp_def]
  rw [namesDistinct_iff, namesDistinct_iff, hnames]
  simp [mapReferences, MemoryMap.namesDistinct_mapReferences]

end

namespace Ipxact

/-- The reading that a component gives. -/
def finish (c : Component) : Reading where
  component := c.link.resolved
  warnings := c.link.resolveWarnings

/-- What reading a root element comes to, wherever the counter stands: the error of the reader
without identity, or a component that is its component up to identity. The identifiers of the nodes
are different ones of those that were drawn. -/
theorem ingestRoot_cases (root : Xml.Element) (next : Nat) :
    (∃ e, component plain root = .error e ∧ (ingestRoot root next).1 = .error e) ∨
    ∃ c count, component plain root = .ok (c.relabel unmarked) ∧
      ingestRoot root next = (.ok (finish c), next + count) ∧
      c.ids.Subperm (List.range' next count) := by
  obtain ⟨count, hnext, hresult⟩ := draws_component root next
  rw [ingestRoot, run_bind]
  cases hplain : component plain root with
  | error e =>
    rw [hplain] at hresult
    have hx : component drawNode root next = (.error e, next + count) := Prod.ext hresult hnext
    rw [hx]
    exact .inl ⟨e, rfl, rfl⟩
  | ok c₀ =>
    rw [hplain] at hresult
    obtain ⟨c, hc, hbare, hids⟩ := hresult
    have hx : component drawNode root next = (.ok c, next + count) := Prod.ext hc hnext
    rw [hx]
    exact .inr ⟨c, count, by rw [hbare], rfl, hids⟩

/-- The component that a reader with identity gives, without identity. -/
theorem relabel_component (root : Xml.Element) (next : Nat) :
    (component drawNode root next).1.toOption.map (Component.relabel unmarked) =
      (component plain root).toOption := by
  obtain ⟨count, -, hresult⟩ := draws_component root next
  cases hplain : component plain root with
  | error e =>
    rw [hplain] at hresult
    rw [hresult]
    rfl
  | ok c₀ =>
    rw [hplain] at hresult
    obtain ⟨c, hc, hbare, -⟩ := hresult
    rw [hc]
    exact congrArg some hbare

theorem nodup_of_drawn {ids : List Nat} {next count : Nat}
    (h : ids.Subperm (List.range' next count)) : ids.Nodup := by
  obtain ⟨l, hperm, hsub⟩ := h
  exact hperm.nodup_iff.1 (hsub.nodup List.nodup_range')

theorem ingest_eq_ok {document : String} {next next' : Nat} {reading : Reading}
    (h : ingest document next = (.ok reading, next')) : ∃ root c,
      Xml.parse? document = some root ∧ component plain root = .ok (c.relabel unmarked) ∧
      reading = finish c ∧ c.ids.Nodup ∧ ∀ id ∈ c.ids, next ≤ id ∧ id < next' := by
  unfold ingest at h
  cases hroot : Xml.parse? document with
  | none =>
    rw [hroot] at h
    cases h
  | some root =>
    rw [hroot] at h
    obtain ⟨e, -, he⟩ | ⟨c, count, hplain, hok, hids⟩ := ingestRoot_cases root next
    · have hresult := congrArg Prod.fst h
      cases he.symm.trans hresult
    · obtain ⟨hreading, rfl⟩ := Prod.mk.inj (hok.symm.trans h)
      obtain rfl := Except.ok.inj hreading
      exact ⟨root, c, rfl, hplain, rfl, nodup_of_drawn hids, fun id hid =>
        List.mem_range'_1.1 (hids.subset hid)⟩

theorem readFrom_eq_ok {document : String} {next : Nat} {reading : Reading}
    (h : readFrom next document = .ok reading) : ∃ root c, Xml.parse? document = some root ∧
      component plain root = .ok (c.relabel unmarked) ∧ reading = finish c ∧ c.ids.Nodup := by
  obtain ⟨root, c, hroot, hplain, hreading, hnodup, -⟩ :=
    ingest_eq_ok (Prod.ext h rfl : ingest document next = (.ok reading, _))
  exact ⟨root, c, hroot, hplain, hreading, hnodup⟩

/-! ### Accepted documents -/

theorem ingestRoot_ok_iff (root : Xml.Element) (next : Nat) :
    (∃ reading, (ingestRoot root next).1 = .ok reading) ↔ Accepted root := by
  obtain ⟨c, hgives, -⟩ := exists_gives_component root
  rw [← hgives.succeeds_iff]
  obtain ⟨e, hplain, he⟩ | ⟨c, count, hplain, hok, -⟩ := ingestRoot_cases root next
  · simp [hplain, he]
  · simp [hplain, hok]

theorem namesDistinct_finish {c : Component} (h : c.NamesDistinct) :
    (finish c).component.NamesDistinct := by
  rw [finish, Component.resolved, Component.namesDistinct_mapReferences,
    Component.namesDistinct_link]
  exact h

/-- Wherever the counter stands, a tree describes a component exactly if it is accepted, a document
exactly if it is a text of an accepted tree. Parameters of a component that was read have keys of
their own, and siblings have names of their own. Nothing is asked of names under different
parents. -/
theorem acceptance_exact :
    (∀ root next, (∃ reading, (ingestRoot root next).1 = .ok reading) ↔ Accepted root) ∧
    (∀ document next, (∃ reading, readFrom next document = .ok reading) ↔
      ∃ root, Xml.parse? document = some root ∧ Accepted root) ∧
    ∀ document next reading, readFrom next document = .ok reading →
      reading.component.NamesDistinct := by
  refine ⟨ingestRoot_ok_iff, fun document next => ?_, fun document next reading h => ?_⟩
  · unfold readFrom ingest
    cases Xml.parse? document with
    | none => exact iff_of_false (by rintro ⟨_, ⟨⟩⟩) (by rintro ⟨_, ⟨⟩, _⟩)
    | some root => simp [ingestRoot_ok_iff]
  · obtain ⟨root, c, -, hplain, rfl, -⟩ := readFrom_eq_ok h
    obtain ⟨c', hgives, hdistinct⟩ := exists_gives_component root
    obtain ⟨haccepted, rfl⟩ := hgives.eq_ok_iff.1 hplain
    exact namesDistinct_finish ((c.namesDistinct_relabel unmarked).1 (hdistinct haccepted))

/-- A document with two maps. The blocks in them have one name. -/
def blocksDocument : String :=
  "<component><vendor>v</vendor><library/><name>c</name><version>1</version><memoryMaps>" ++
  "<memoryMap><name>a</name><addressBlock/></memoryMap><memoryMap><addressBlock/></memoryMap>" ++
  "</memoryMaps></component>"

theorem read_blocksDocument : (read blocksDocument).toOption.map (fun reading =>
    reading.component.memoryMaps.map fun m => (m.name, m.blocks.map (·.name))) =
      some [("a", [""]), ("", [""])] := by
  decide +kernel

/-- The document is read. -/
theorem acceptance_exact_blocks : ∃ reading, read blocksDocument = .ok reading ∧
    (reading.component.memoryMaps.map fun m => (m.name, m.blocks.map (·.name))) =
      [("a", [""]), ("", [""])] ∧ reading.component.NamesDistinct := by
  obtain ⟨reading, hread, hvalue⟩ := exists_ok_of_map_toOption read_blocksDocument
  exact ⟨reading, hread, hvalue, acceptance_exact.2.2 blocksDocument 1 reading hread⟩

/-! ### Identifiers and links -/

theorem ids_finish (c : Component) : (finish c).component.ids = c.ids := by
  rw [finish, Component.ids_resolved, Component.ids_link]

theorem linked_finish (c : Component) : (finish c).component.Linked := by
  rw [finish, ← Component.link_resolved]
  exact Component.linked_link _

/-- In a component that was read, every node has an identifier of its own, among those that the
reading drew from the counter, the root has no parent, the parent of any other node is its owner,
and following parents leads to the root without meeting a node twice. In any component, linking
makes owners parents, changes nothing but parents, and changes nothing a second time. -/
theorem identity_and_links :
    (∀ document next reading next', ingest document next = (.ok reading, next') →
      reading.component.Identified ∧ (∀ id ∈ reading.component.ids, next ≤ id ∧ id < next') ∧
      reading.component.Linked ∧ reading.component.parentOf? reading.component.id = none ∧
      ∀ i ∈ reading.component.items, ∃ line, reading.component.Lineage i.node.id line) ∧
    ∀ c : Component, c.link.Linked ∧ c.link.unlinked = c.unlinked ∧ c.link.link = c.link := by
  constructor
  · intro document next reading next' h
    obtain ⟨_, c, -, -, rfl, hnodup, hdrawn⟩ := ingest_eq_ok h
    rw [← ids_finish] at hnodup hdrawn
    have hlinked := linked_finish c
    exact ⟨.of_nodup hnodup, hdrawn, hlinked, hlinked.parentOf?_root hnodup,
      fun i hi => hlinked.exists_lineage hnodup hi⟩
  · exact fun c => ⟨c.linked_link, c.unlinked_link, c.link_link⟩

/-- A document with a parameter, and a map with two elements for one property. -/
def parameterDocument : String :=
  "<component><vendor/><library/><name/><version/><parameters><parameter parameterId=\"p\">" ++
  "<value>1</value></parameter></parameters><memoryMaps><memoryMap><isPresent>0</isPresent>" ++
  "<isPresent>p</isPresent></memoryMap></memoryMaps></component>"

theorem ingest_parameterDocument : (ingest parameterDocument 1).1.toOption.map
    (fun reading => reading.component.ids) = some [1, 3, 2, 4, 6] ∧
    (ingest parameterDocument 1).2 = 7 := by
  decide +kernel

/-- The root is made first and the parameter after its value. The first of the two references in the
map has taken an identifier and is in no place. -/
theorem identity_and_links_parameter : ∃ reading,
    ingest parameterDocument 1 = (.ok reading, 7) ∧ reading.component.ids = [1, 3, 2, 4, 6] ∧
    reading.component.Identified ∧ (∀ id ∈ reading.component.ids, 1 ≤ id ∧ id < 7) ∧
    reading.component.Linked ∧ reading.component.parentOf? reading.component.id = none ∧
    ∀ i ∈ reading.component.items, ∃ line, reading.component.Lineage i.node.id line := by
  obtain ⟨reading, hread, hids⟩ := exists_ok_of_map_toOption ingest_parameterDocument.1
  have hingest : ingest parameterDocument 1 = (.ok reading, 7) :=
    Prod.ext hread ingest_parameterDocument.2
  exact ⟨reading, hingest, hids, identity_and_links.1 parameterDocument 1 reading 7 hingest⟩

end Ipxact

end RegAtlas
