import RegAtlas.Proofs.Rename.Effect
import RegAtlas.Proofs.WordGroup.Places

/-!
# What a renaming leaves in place

A renaming touches no reference, so that it can be exchanged with the resolution of references. The
layout of blocks comes from references alone, so that every offset, address, order, group and bit
range stays what it was; faults change the names in their texts.
-/

namespace RegAtlas

/-! ### References and names -/

section

variable (f : Reference → Reference)

theorem Component.siblings_mapReferences (c : Component) :
    (c.mapReferences f).siblings = c.siblings := by
  have hnode : ∀ i, ((changing f).rewrite () i).siblings? = i.siblings? := by
    intro i
    cases i <;> simp only [Rewriter.rewrite, Item.siblings?, Rewriter.onComponent_id,
      Rewriter.onMemoryMap_id, Rewriter.onBlock_id, Rewriter.onRegister_id, Rewriter.onField_id,
      List.map_map] <;> rfl
  have hroot : (Item.component (c.mapReferences f)).siblings? = (Item.component c).siblings? := by
    simp only [Item.siblings?, mapReferences, List.map_map]
    rfl
  exact c.filterMap_mapReferences f hnode hroot

theorem Component.descriptions_mapReferences (c : Component) :
    (c.mapReferences f).descriptions = c.descriptions := by
  have hnode : ∀ i, ((changing f).rewrite () i).description? = i.description? :=
    fun i => by cases i <;> rfl
  exact c.filterMap_mapReferences f hnode rfl

end

section

variable (f : Reference → Reference) (change : NameKind → String → String)
  (reword : String → String)

theorem BitField.mapReferences_renamed (field : BitField) :
    ((field.mapNames change).mapDescriptions reword).mapReferences f =
      ((field.mapReferences f).mapNames change).mapDescriptions reword := by
  simp [mapDescriptions_mapNames, mapReferences_eq]

theorem Register.mapReferences_renamed (r : Register) :
    ((r.mapNames change).mapDescriptions reword).mapReferences f =
      ((r.mapReferences f).mapNames change).mapDescriptions reword := by
  simp [mapDescriptions_mapNames, mapReferences_eq, Function.comp_def,
    BitField.mapReferences_renamed]

theorem AddressBlock.mapReferences_renamed (b : AddressBlock) :
    ((b.mapNames change).mapDescriptions reword).mapReferences f =
      ((b.mapReferences f).mapNames change).mapDescriptions reword := by
  simp [mapDescriptions_mapNames, mapReferences_eq, Function.comp_def,
    Register.mapReferences_renamed]

theorem MemoryMap.mapReferences_renamed (m : MemoryMap) :
    ((m.mapNames change).mapDescriptions reword).mapReferences f =
      ((m.mapReferences f).mapNames change).mapDescriptions reword := by
  simp [mapDescriptions_mapNames, mapReferences_eq, Function.comp_def,
    AddressBlock.mapReferences_renamed]

/-- References are changed apart from names and descriptions. -/
theorem Component.mapReferences_renamed (c : Component) :
    ((c.mapNames change).mapDescriptions reword).mapReferences f =
      ((c.mapReferences f).mapNames change).mapDescriptions reword := by
  simp [mapDescriptions_mapNames, mapReferences, Function.comp_def,
    MemoryMap.mapReferences_renamed]

theorem Component.mapReferences_mapNames (c : Component) :
    (c.mapNames change).mapReferences f = (c.mapReferences f).mapNames change := by
  simpa only [mapDescriptions_id] using c.mapReferences_renamed f change id

end

/-! ### Renaming and resolution -/

section

variable (o : RenameOptions) (c : Component)

/-- A renaming does the same with other references. -/
theorem Component.rename_mapReferences (f : Reference → Reference) :
    (c.mapReferences f).rename o = ((c.rename o).1.mapReferences f, (c.rename o).2) := by
  have hdescriptions : ((c.mapReferences f).mapNames o.newName).descriptions =
      (c.mapNames o.newName).descriptions := by
    rw [← mapReferences_mapNames, descriptions_mapReferences]
  have hcollision : ((c.mapReferences f).mapNames o.newName).siblings =
      (c.mapNames o.newName).siblings := by
    rw [← mapReferences_mapNames, siblings_mapReferences]
  rw [rename, rename, hcollision, siblings_mapReferences, hdescriptions]
  split
  · rw [mapReferences_mapNames]
  · dsimp only
    split
    · rw [mapReferences_renamed]
    · rw [mapReferences_mapNames]

/-- Resolution does not look at the descriptions of parameters. -/
theorem Reference.resolve_mapDescription (reword : String → String) (ps : List Parameter)
    (r : Reference) :
    r.resolve (ps.map fun p => { p with toLabel := p.toLabel.mapDescription reword }) =
      r.resolve ps := by
  have hfind : ∀ key : String, (ps.map fun p =>
      { p with toLabel := p.toLabel.mapDescription reword }).find? (·.key == key) =
        (ps.find? (·.key == key)).map fun p =>
          { p with toLabel := p.toLabel.mapDescription reword } := fun key => List.find?_map ..
  rw [resolve, resolve]
  cases r.key with
  | none => rfl
  | some key =>
    simp only [hfind]
    cases ps.find? (·.key == key) <;> rfl

theorem Component.resolve_parameters_rename (r : Reference) :
    r.resolve (c.rename o).1.parameters = r.resolve c.parameters := by
  obtain ⟨reword, hrename, -⟩ := rename_fst o c
  rw [hrename, mapDescriptions_mapNames]
  exact r.resolve_mapDescription reword c.parameters

theorem Component.resolved_rename :
    c.resolved.rename o = ((c.rename o).1.resolved, (c.rename o).2) := by
  rw [resolved, rename_mapReferences, resolved, funext (resolve_parameters_rename o c)]

end

/-! ### The references that resolution sees -/

/-- The reference that a node is. -/
def Item.reference? : Item → Option Reference
  | reference r => some r
  | _ => none

/-- The references below a memory map are those among its nodes. -/
theorem MemoryMap.references_eq (m : MemoryMap) :
    m.ownedReferences.map (·.reference) = m.items.filterMap Item.reference? := by
  have hitems : m.items = (m.itemsIn OwnedReference.pathBelow []).map Prod.snd := by
    rw [itemsIn_eq, Item.map_snd_subtreeIn]
    rfl
  rw [hitems, ownedReferences, List.map_filterMap, List.filterMap_map]
  refine List.filterMap_congr fun x _ => ?_
  obtain ⟨path, i⟩ := x
  cases i <;> rfl

theorem MemoryMap.references_renamed (change : NameKind → String → String)
    (reword : String → String) (m : MemoryMap) :
    ((m.mapNames change).mapDescriptions reword).ownedReferences.map (·.reference) =
      m.ownedReferences.map (·.reference) := by
  have hname : ∀ (_ : Unit) i, ((naming change).rewrite () i).reference? = i.reference? :=
    fun _ i => by cases i <;> rfl
  have hreword : ∀ (_ : Unit) i, ((rewording reword).rewrite () i).reference? = i.reference? :=
    fun _ i => by cases i <;> rfl
  calc ((m.mapNames change).mapDescriptions reword).ownedReferences.map (·.reference)
      = ((m.mapNames change).mapDescriptions reword).items.filterMap Item.reference? :=
        references_eq _
    _ = (m.mapNames change).items.filterMap Item.reference? :=
        (rewording_keepsChildren reword).filterMap_subtree hreword ()
          (.memoryMap (m.mapNames change))
    _ = m.items.filterMap Item.reference? :=
        (naming_keepsChildren change).filterMap_subtree hname () (.memoryMap m)
    _ = m.ownedReferences.map (·.reference) := m.references_eq.symm

theorem Component.references_rename (o : RenameOptions) (c : Component) :
    (c.rename o).1.ownedReferences.map (·.reference) = c.ownedReferences.map (·.reference) := by
  obtain ⟨reword, hrename, -⟩ := rename_fst o c
  rw [hrename, mapDescriptions_mapNames]
  simp only [ownedReferences, List.map_flatMap, List.flatMap_map]
  exact List.flatMap_congr fun m _ => m.references_renamed o.newName reword

/-- The second report differs from the first in the owners of suspect references. -/
structure ResolveReport.SameButOwners (p p' : ResolveReport) : Prop where
  kept : p' = { p with unresolved := p'.unresolved }
  unresolved : List.Forall₂ (fun u u' => u' = { u with owner := u'.owner })
    p.unresolved p'.unresolved

theorem OwnedReference.map_unresolved? (ps : List Parameter) (r : OwnedReference) :
    (r.unresolved? ps).map (fun u => (u.id, u.text)) = match (r.reference.resolve ps).2 with
      | .unresolved text => some (r.reference.id, text)
      | _ => none := by
  rw [unresolved?, outcome]
  cases (r.reference.resolve ps).2 <;> rfl

/-- After a renaming, resolution finds the same, under other names. -/
theorem Component.resolveReport_rename (o : RenameOptions) (c : Component) :
    c.resolveReport.SameButOwners (c.rename o).1.resolveReport := by
  have houtcomes : (c.rename o).1.ownedReferences.map
        (OwnedReference.outcome (c.rename o).1.parameters) =
      c.ownedReferences.map (OwnedReference.outcome c.parameters) := by
    have h := congrArg (List.map fun r => (r.resolve c.parameters).2) (references_rename o c)
    rw [List.map_map, List.map_map] at h
    have hresolve : OwnedReference.outcome (c.rename o).1.parameters =
        OwnedReference.outcome c.parameters :=
      funext fun r => congrArg Prod.snd (resolve_parameters_rename o c r.reference)
    rw [hresolve]
    exact h
  have hunresolved : (c.rename o).1.resolveReport.unresolved.map (fun u => (u.id, u.text)) =
      c.resolveReport.unresolved.map fun u => (u.id, u.text) := by
    have h := congrArg (List.filterMap fun r => match (r.resolve c.parameters).2 with
      | .unresolved text => some (r.id, text)
      | _ => none) (references_rename o c)
    rw [List.filterMap_map, List.filterMap_map] at h
    simp only [resolveReport, List.map_filterMap, OwnedReference.map_unresolved?,
      resolve_parameters_rename]
    exact h
  constructor
  · simp only [resolveReport, houtcomes]
  · rw [← List.forall₂_eq_eq_eq, List.forall₂_map_left_iff, List.forall₂_map_right_iff]
      at hunresolved
    refine hunresolved.flip.imp fun u u' heq => ?_
    obtain ⟨hid, htext⟩ := Prod.mk.inj heq
    cases u'
    simp_all

/-! ### Faults under other names -/

/-- What a fault is about. -/
inductive Subject where
  | block (name : String)
  | register (name : String)
  | field (name : String)
  /-- A field with its register. -/
  | fieldOf (register field : String)

namespace Subject

def text : Subject → String
  | block name => s!"address block {name}"
  | register name => s!"register {name}"
  | field name => s!"field {name}"
  | fieldOf r f => s!"field {r}.{f}"

def rename (change : NameKind → String → String) : Subject → Subject
  | block name => block (change .addressBlock name)
  | register name => register (change .register name)
  | field name => field (change .field name)
  | fieldOf r f => fieldOf (change .register r) (change .field f)

end Subject

section

variable (change : NameKind → String → String)

/-- The second fault differs from the first in the names in its text. -/
inductive Fault.RenamedBy : Fault → Fault → Prop
  | invalidLiteral (s : Subject) (what text : String) :
    RenamedBy (.invalidLiteral s!"{s.text} {what}" text)
      (.invalidLiteral s!"{(s.rename change).text} {what}" text)
  | missingValue (s : Subject) (what : String) :
    RenamedBy (.missingValue s.text what) (.missingValue (s.rename change).text what)
  | overflow (s : Subject) (what : String) :
    RenamedBy (.overflow s.text what) (.overflow (s.rename change).text what)

/-- Both computations give results, which are related, or both give faults, which differ in
names. -/
inductive SameResult {α β : Type} (R : α → β → Prop) : Except Fault α → Except Fault β → Prop
  | ok {a : α} {b : β} (h : R a b) : SameResult R (.ok a) (.ok b)
  | error {e e' : Fault} (h : e.RenamedBy change e') : SameResult R (.error e) (.error e')

end

section

variable {change : NameKind → String → String} {α β γ δ : Type}

theorem SameResult.bind {R : α → β → Prop} {S : γ → δ → Prop} {x : Except Fault α}
    {y : Except Fault β} {f : α → Except Fault γ} {g : β → Except Fault δ}
    (h : SameResult change R x y) (hfg : ∀ a b, R a b → SameResult change S (f a) (g b)) :
    SameResult change S (x >>= f) (y >>= g) := by
  cases h with
  | ok h => exact hfg _ _ h
  | error h => exact .error h

theorem sameResult_require (s : Subject) (what : String) (p : Option Reference) :
    SameResult change Eq (require s.text what p) (require (s.rename change).text what p) := by
  cases p with
  | none => exact .error (.missingValue s what)
  | some r =>
    rw [require, require, Reference.number, Reference.number]
    cases r.number? with
    | none => exact .error (.invalidLiteral s what r.text)
    | some n => exact .ok rfl

theorem sameResult_checkedAdd (s : Subject) (what : String) (a b : Nat) :
    SameResult change Eq (checkedAdd (.overflow s.text what) a b)
      (checkedAdd (.overflow (s.rename change).text what) a b) := by
  rw [checkedAdd, checkedAdd]
  split
  · exact .ok rfl
  · exact .error (.overflow s what)

/-- The elements of two lists with one list of offsets. -/
theorem sameResult_keyed {offset : α → Except Fault Nat} {offset' : β → Except Fault Nat}
    {as : List α} {bs : List β}
    (h : List.Forall₂ (fun a b => SameResult change Eq (offset a) (offset' b)) as bs) :
    SameResult change (fun items items' => ∃ offsets : List Nat, offsets.length = as.length ∧
      offsets.length = bs.length ∧ items = offsets.zip as ∧ items' = offsets.zip bs)
      (keyed offset as) (keyed offset' bs) := by
  induction h with
  | nil => exact .ok ⟨[], rfl, rfl, rfl, rfl⟩
  | cons hab _ ih =>
    rw [keyed, keyed, List.mapM_cons, List.mapM_cons]
    simp only [bind_assoc, pure_bind]
    refine hab.bind fun n _ heq => ih.bind fun items items' => ?_
    rintro ⟨offsets, has, hbs, rfl, rfl⟩
    obtain rfl := heq
    exact .ok ⟨n :: offsets, by simp [has], by simp [hbs], rfl, rfl⟩

theorem sameResult_sorted {offset : α → Except Fault Nat} {offset' : β → Except Fault Nat}
    {as : List α} {bs : List β}
    (h : List.Forall₂ (fun a b => SameResult change Eq (offset a) (offset' b)) as bs) :
    SameResult change (WordGroup.SamePlaces as bs)
      (do return (WordGroup.sortByOffset (← keyed offset as)).map Prod.snd)
      (do return (WordGroup.sortByOffset (← keyed offset' bs)).map Prod.snd) := by
  refine (sameResult_keyed h).bind ?_
  rintro _ _ ⟨offsets, has, hbs, rfl, rfl⟩
  exact .ok (WordGroup.samePlaces_sortByOffset has hbs)

end

/-! ### Layout under other names -/

section

variable (change : NameKind → String → String)

/-- Offset, size, order of fields and bit ranges of the second register are those of the first. -/
structure Register.SameLayout (r r' : Register) : Prop where
  byteOffset : SameResult change Eq r.byteOffset r'.byteOffset
  bitSize : SameResult change Eq r.bitSize r'.bitSize
  sortedFields : SameResult change (WordGroup.SamePlaces r.fields r'.fields)
    r.sortedFields r'.sortedFields
  bitRange : ∀ wordBytes, List.Forall₂ (fun f f' => SameResult change Eq
    (WordGroup.bitRange wordBytes r f) (WordGroup.bitRange wordBytes r' f')) r.fields r'.fields

/-- Addresses, order and groups of registers of the second block are those of the first. -/
structure AddressBlock.SameLayout (b b' : AddressBlock) : Prop where
  registers : List.Forall₂ (Register.SameLayout change) b.registers b'.registers
  registerAddress : List.Forall₂ (fun r r' => SameResult change Eq
    (b.registerAddress r) (b'.registerAddress r')) b.registers b'.registers
  sortedRegisters : SameResult change (WordGroup.SamePlaces b.registers b'.registers)
    b.sortedRegisters b'.sortedRegisters
  groups : ∀ wordBytes, SameResult change (WordGroup.SameGroups b.registers b'.registers)
    (WordGroup.registers wordBytes b.registers) (WordGroup.registers wordBytes b'.registers)

def MemoryMap.SameLayout (m m' : MemoryMap) : Prop :=
  List.Forall₂ (AddressBlock.SameLayout change) m.blocks m'.blocks

/-- The blocks of the second component are laid out as those of the first. -/
def Component.SameLayout (c c' : Component) : Prop :=
  List.Forall₂ (MemoryMap.SameLayout change) c.memoryMaps c'.memoryMaps

end

section

variable {change : NameKind → String → String} {reword : String → String}

theorem BitField.RenamedBy.bitOffset {f f' : BitField} (h : f.RenamedBy change reword f') :
    SameResult change Eq f.bitOffset f'.bitOffset := by
  have hoffset : f'.offset = f.offset := by rw [h.kept]
  rw [BitField.bitOffset, BitField.bitOffset, h.name, hoffset]
  exact sameResult_require (.field f.name) "offset" f.offset

theorem BitField.RenamedBy.bitWidth {f f' : BitField} (h : f.RenamedBy change reword f') :
    SameResult change Eq f.bitWidth f'.bitWidth := by
  have hwidth : f'.width = f.width := by rw [h.kept]
  rw [BitField.bitWidth, BitField.bitWidth, h.name, hwidth]
  exact sameResult_require (.field f.name) "width" f.width

section

variable {r r' : Register} (h : r.RenamedBy change reword r')
include h

theorem Register.RenamedBy.byteOffset : SameResult change Eq r.byteOffset r'.byteOffset := by
  have hoffset : r'.offset = r.offset := by rw [h.kept]
  rw [Register.byteOffset, Register.byteOffset, h.name, hoffset]
  exact sameResult_require (.register r.name) "offset" r.offset

theorem Register.RenamedBy.bitSize : SameResult change Eq r.bitSize r'.bitSize := by
  have hsize : r'.size = r.size := by rw [h.kept]
  rw [Register.bitSize, Register.bitSize, h.name, hsize]
  exact sameResult_require (.register r.name) "size" r.size

theorem Register.RenamedBy.bitRange {f f' : BitField} (hf : f.RenamedBy change reword f')
    (wordBytes : Nat) : SameResult change Eq (WordGroup.bitRange wordBytes r f)
      (WordGroup.bitRange wordBytes r' f') := by
  have hposition : SameResult change Eq (WordGroup.bitPosition wordBytes r f)
      (WordGroup.bitPosition wordBytes r' f') := by
    rw [WordGroup.bitPosition, WordGroup.bitPosition, h.name, hf.name]
    refine h.byteOffset.bind ?_
    rintro n _ rfl
    refine hf.bitOffset.bind ?_
    rintro start _ rfl
    exact sameResult_checkedAdd (.fieldOf r.name f.name) "bit position" _ _
  rw [WordGroup.bitRange, WordGroup.bitRange, h.name, hf.name]
  refine hposition.bind ?_
  rintro low _ rfl
  refine hf.bitWidth.bind ?_
  rintro width _ rfl
  refine (sameResult_checkedAdd (.fieldOf r.name f.name) "bit range" _ _).bind ?_
  rintro high _ rfl
  exact .ok rfl

theorem Register.RenamedBy.sameLayout : r.SameLayout change r' where
  byteOffset := h.byteOffset
  bitSize := h.bitSize
  sortedFields := sameResult_sorted (h.fields.imp fun _ _ hf => hf.bitOffset)
  bitRange wordBytes := h.fields.imp fun _ _ hf => h.bitRange hf wordBytes

end

section

variable {b b' : AddressBlock} (h : b.RenamedBy change reword b')
include h

theorem AddressBlock.RenamedBy.base : SameResult change Eq b.base b'.base := by
  have hbase : b'.baseAddress = b.baseAddress := by rw [h.kept]
  rw [AddressBlock.base, AddressBlock.base, h.name, hbase]
  exact sameResult_require (.block b.name) "baseAddress" b.baseAddress

theorem AddressBlock.RenamedBy.registerAddress {r r' : Register}
    (hr : r.RenamedBy change reword r') :
    SameResult change Eq (b.registerAddress r) (b'.registerAddress r') := by
  rw [AddressBlock.registerAddress, AddressBlock.registerAddress, hr.name]
  refine h.base.bind ?_
  rintro base _ rfl
  refine hr.byteOffset.bind ?_
  rintro n _ rfl
  exact sameResult_checkedAdd (.register r.name) "address" _ _

theorem AddressBlock.RenamedBy.sameLayout : b.SameLayout change b' where
  registers := h.registers.imp fun _ _ hr => hr.sameLayout
  registerAddress := h.registers.imp fun _ _ hr => h.registerAddress hr
  sortedRegisters := sameResult_sorted (h.registers.imp fun _ _ hr => hr.byteOffset)
  groups wordBytes := by
    refine (sameResult_keyed (h.registers.imp fun _ _ hr => hr.byteOffset)).bind ?_
    rintro _ _ ⟨offsets, has, hbs, rfl, rfl⟩
    exact .ok (WordGroup.sameGroups_group has hbs wordBytes)

end

theorem Component.RenamedBy.sameLayout {c c' : Component} (h : c.RenamedBy change reword c') :
    c.SameLayout change c' :=
  h.memoryMaps.imp fun _ _ hm => hm.blocks.imp fun _ _ hb => hb.sameLayout

end

/-- A renaming moves nothing and can be exchanged with resolution. Resolving before it or behind it
gives one tree and one result of the renaming, and the reports of resolution differ in the owners of
suspect references only. Behind it, whether it succeeds or fails, every layout is what it was. -/
theorem Component.rename_frame (o : RenameOptions) (c : Component) :
    c.resolved.rename o = ((c.rename o).1.resolved, (c.rename o).2) ∧
    c.resolveReport.SameButOwners (c.rename o).1.resolveReport ∧
    c.SameLayout o.newName (c.rename o).1 := by
  obtain ⟨reword, hrename, -⟩ := rename_fst o c
  exact ⟨resolved_rename o c, resolveReport_rename o c, ((renamedBy_iff c _).2 hrename).sameLayout⟩

end RegAtlas
