import RegAtlas.Proofs.Reference.Tree
import RegAtlas.Proofs.Rename.Sibling

/-!
# Trees that differ in names and descriptions

A change of the names below the component, each by its kind, and of all descriptions, characterised
node by node with everything beside names and descriptions kept.
-/

namespace RegAtlas

section

variable (change : NameKind → String → String) (reword : String → String)

/-- The second parameter differs from the first in its description. -/
structure Parameter.RewordedBy (p p' : Parameter) : Prop where
  kept : p' = { p with description := p'.description }
  description : p'.description = p.description.map reword

structure ResetType.RewordedBy (t t' : ResetType) : Prop where
  kept : t' = { t with description := t'.description }
  description : t'.description = t.description.map reword

/-- The second value differs from the first in its name and its description. -/
structure EnumValue.RenamedBy (e e' : EnumValue) : Prop where
  kept : e' = { e with name := e'.name, description := e'.description }
  name : e'.name = change .enumValue e.name
  description : e'.description = e.description.map reword

structure BitField.RenamedBy (f f' : BitField) : Prop where
  kept : f' = { f with
    name := f'.name, description := f'.description, enumValues := f'.enumValues }
  name : f'.name = change .field f.name
  description : f'.description = f.description.map reword
  enumValues : List.Forall₂ (EnumValue.RenamedBy change reword) f.enumValues f'.enumValues

structure Register.RenamedBy (r r' : Register) : Prop where
  kept : r' = { r with name := r'.name, description := r'.description, fields := r'.fields }
  name : r'.name = change .register r.name
  description : r'.description = r.description.map reword
  fields : List.Forall₂ (BitField.RenamedBy change reword) r.fields r'.fields

structure AddressBlock.RenamedBy (b b' : AddressBlock) : Prop where
  kept : b' = { b with
    name := b'.name, description := b'.description, registers := b'.registers }
  name : b'.name = change .addressBlock b.name
  description : b'.description = b.description.map reword
  registers : List.Forall₂ (Register.RenamedBy change reword) b.registers b'.registers

structure MemoryMap.RenamedBy (m m' : MemoryMap) : Prop where
  kept : m' = { m with name := m'.name, description := m'.description, blocks := m'.blocks }
  name : m'.name = change .memoryMap m.name
  description : m'.description = m.description.map reword
  blocks : List.Forall₂ (AddressBlock.RenamedBy change reword) m.blocks m'.blocks

/-- The second component differs from the first in the names below it and in descriptions. -/
structure Component.RenamedBy (c c' : Component) : Prop where
  kept : c' = { c with
    description := c'.description
    parameters := c'.parameters
    resetTypes := c'.resetTypes
    memoryMaps := c'.memoryMaps }
  description : c'.description = c.description.map reword
  parameters : List.Forall₂ (Parameter.RewordedBy reword) c.parameters c'.parameters
  resetTypes : List.Forall₂ (ResetType.RewordedBy reword) c.resetTypes c'.resetTypes
  memoryMaps : List.Forall₂ (MemoryMap.RenamedBy change reword) c.memoryMaps c'.memoryMaps

end

/-! ### Changes of descriptions -/

section

variable (reword : String → String)

theorem rewording_keepsChildren : (rewording reword).KeepsChildren := fun _ i => by
  cases i <;> rfl

def EnumValue.mapDescriptions (e : EnumValue) : EnumValue := (rewording reword).onEnumValue () e

def BitField.mapDescriptions (f : BitField) : BitField := (rewording reword).onField () f

def Register.mapDescriptions (r : Register) : Register := (rewording reword).onRegister () r

def AddressBlock.mapDescriptions (b : AddressBlock) : AddressBlock :=
  (rewording reword).onBlock () b

def MemoryMap.mapDescriptions (m : MemoryMap) : MemoryMap := (rewording reword).onMemoryMap () m

theorem rewording_reference (seen : Unit) (r : Reference) :
    (rewording reword).reference seen r = r := rfl

theorem rewording_value (seen : Unit) (v : Value) : (rewording reword).value seen v = v := rfl

theorem EnumValue.mapDescriptions_eq (e : EnumValue) :
    e.mapDescriptions reword = { e with toLabel := e.toLabel.mapDescription reword } :=
  Rewriter.onEnumValue_of_keeps () (rewording_value reword) e

theorem BitField.mapDescriptions_eq (f : BitField) : f.mapDescriptions reword = { f with
    toLabel := f.toLabel.mapDescription reword
    enumValues := f.enumValues.map (EnumValue.mapDescriptions reword) } := by
  have hreset : ∀ seen (r : Reset), (rewording reword).onReset seen r = r := fun seen =>
    Rewriter.onReset_of_keeps seen (rewording_reference reword)
  rw [mapDescriptions, Rewriter.onField_id]
  simp only [Rewriter.map_of_keeps _ (rewording_reference reword),
    Rewriter.map_of_keeps _ (rewording_value reword), List.map_id'' (hreset _)]
  rfl

theorem Register.mapDescriptions_eq (r : Register) : r.mapDescriptions reword = { r with
    toLabel := r.toLabel.mapDescription reword
    fields := r.fields.map (BitField.mapDescriptions reword) } := by
  rw [mapDescriptions, Rewriter.onRegister_id]
  simp only [Rewriter.map_of_keeps _ (rewording_reference reword)]
  rfl

theorem AddressBlock.mapDescriptions_eq (b : AddressBlock) : b.mapDescriptions reword = { b with
    toLabel := b.toLabel.mapDescription reword
    registers := b.registers.map (Register.mapDescriptions reword) } := by
  rw [mapDescriptions, Rewriter.onBlock_id]
  simp only [Rewriter.map_of_keeps _ (rewording_reference reword)]
  rfl

theorem MemoryMap.mapDescriptions_eq (m : MemoryMap) : m.mapDescriptions reword = { m with
    toLabel := m.toLabel.mapDescription reword
    blocks := m.blocks.map (AddressBlock.mapDescriptions reword) } := by
  rw [mapDescriptions, Rewriter.onMemoryMap_id]
  simp only [Rewriter.map_of_keeps _ (rewording_reference reword)]
  rfl

theorem Component.mapDescriptions_eq (c : Component) : c.mapDescriptions reword = { c with
    toLabel := c.toLabel.mapDescription reword
    parameters := c.parameters.map fun p => { p with toLabel := p.toLabel.mapDescription reword }
    resetTypes := c.resetTypes.map fun t => { t with toLabel := t.toLabel.mapDescription reword }
    memoryMaps := c.memoryMaps.map (MemoryMap.mapDescriptions reword) } := by
  have hparameter : ∀ seen (p : Parameter), (rewording reword).onParameter seen p =
      { p with toLabel := p.toLabel.mapDescription reword } := fun seen =>
    Rewriter.onParameter_of_keeps seen (rewording_reference reword)
  have hextension : ∀ seen (e : VendorExtension), (rewording reword).onExtension seen e = e :=
    Rewriter.onExtension_of_keeps fun _ _ => rfl
  rw [mapDescriptions, Rewriter.onComponent_id]
  simp only [funext (hparameter _), List.map_id'' (hextension _)]
  rfl

end

/-! ### The change as a function -/

section

variable {change : NameKind → String → String} {reword : String → String}

theorem Parameter.rewordedBy_iff (p p' : Parameter) : p.RewordedBy reword p' ↔
    p' = { p with toLabel := p.toLabel.mapDescription reword } := by
  constructor
  · rintro ⟨kept, description⟩
    rw [kept, description]
    rfl
  · rintro rfl
    constructor <;> rfl

theorem ResetType.rewordedBy_iff (t t' : ResetType) : t.RewordedBy reword t' ↔
    t' = { t with toLabel := t.toLabel.mapDescription reword } := by
  constructor
  · rintro ⟨kept, description⟩
    rw [kept, description]
    rfl
  · rintro rfl
    constructor <;> rfl

theorem EnumValue.mapDescriptions_mapNames (change : NameKind → String → String)
    (reword : String → String) (e : EnumValue) :
    (e.mapNames change).mapDescriptions reword = { e with
      name := change .enumValue e.name
      description := e.description.map reword } := by
  simp [mapNames_eq, mapDescriptions_eq, Label.mapDescription]

theorem EnumValue.renamedBy_iff (e e' : EnumValue) :
    e.RenamedBy change reword e' ↔ e' = (e.mapNames change).mapDescriptions reword := by
  rw [mapDescriptions_mapNames]
  constructor
  · rintro ⟨kept, name, description⟩
    rw [kept, name, description]
  · rintro rfl
    constructor <;> rfl

theorem BitField.mapDescriptions_mapNames (change : NameKind → String → String)
    (reword : String → String) (f : BitField) :
    (f.mapNames change).mapDescriptions reword = { f with
      name := change .field f.name
      description := f.description.map reword
      enumValues := f.enumValues.map fun e => (e.mapNames change).mapDescriptions reword } := by
  simp [mapNames_eq, mapDescriptions_eq, Label.mapDescription, Function.comp_def]

theorem BitField.renamedBy_iff (f f' : BitField) :
    f.RenamedBy change reword f' ↔ f' = (f.mapNames change).mapDescriptions reword := by
  rw [mapDescriptions_mapNames]
  constructor
  · rintro ⟨kept, name, description, enumValues⟩
    rw [forall₂_iff EnumValue.renamedBy_iff] at enumValues
    rw [kept, name, description, enumValues]
  · rintro rfl
    exact ⟨rfl, rfl, rfl, (forall₂_iff EnumValue.renamedBy_iff).2 rfl⟩

theorem Register.mapDescriptions_mapNames (change : NameKind → String → String)
    (reword : String → String) (r : Register) :
    (r.mapNames change).mapDescriptions reword = { r with
      name := change .register r.name
      description := r.description.map reword
      fields := r.fields.map fun f => (f.mapNames change).mapDescriptions reword } := by
  simp [mapNames_eq, mapDescriptions_eq, Label.mapDescription, Function.comp_def]

theorem Register.renamedBy_iff (r r' : Register) :
    r.RenamedBy change reword r' ↔ r' = (r.mapNames change).mapDescriptions reword := by
  rw [mapDescriptions_mapNames]
  constructor
  · rintro ⟨kept, name, description, fields⟩
    rw [forall₂_iff BitField.renamedBy_iff] at fields
    rw [kept, name, description, fields]
  · rintro rfl
    exact ⟨rfl, rfl, rfl, (forall₂_iff BitField.renamedBy_iff).2 rfl⟩

theorem AddressBlock.mapDescriptions_mapNames (change : NameKind → String → String)
    (reword : String → String) (b : AddressBlock) :
    (b.mapNames change).mapDescriptions reword = { b with
      name := change .addressBlock b.name
      description := b.description.map reword
      registers := b.registers.map fun r => (r.mapNames change).mapDescriptions reword } := by
  simp [mapNames_eq, mapDescriptions_eq, Label.mapDescription, Function.comp_def]

theorem AddressBlock.renamedBy_iff (b b' : AddressBlock) :
    b.RenamedBy change reword b' ↔ b' = (b.mapNames change).mapDescriptions reword := by
  rw [mapDescriptions_mapNames]
  constructor
  · rintro ⟨kept, name, description, registers⟩
    rw [forall₂_iff Register.renamedBy_iff] at registers
    rw [kept, name, description, registers]
  · rintro rfl
    exact ⟨rfl, rfl, rfl, (forall₂_iff Register.renamedBy_iff).2 rfl⟩

theorem MemoryMap.mapDescriptions_mapNames (change : NameKind → String → String)
    (reword : String → String) (m : MemoryMap) :
    (m.mapNames change).mapDescriptions reword = { m with
      name := change .memoryMap m.name
      description := m.description.map reword
      blocks := m.blocks.map fun b => (b.mapNames change).mapDescriptions reword } := by
  simp [mapNames_eq, mapDescriptions_eq, Label.mapDescription, Function.comp_def]

theorem MemoryMap.renamedBy_iff (m m' : MemoryMap) :
    m.RenamedBy change reword m' ↔ m' = (m.mapNames change).mapDescriptions reword := by
  rw [mapDescriptions_mapNames]
  constructor
  · rintro ⟨kept, name, description, blocks⟩
    rw [forall₂_iff AddressBlock.renamedBy_iff] at blocks
    rw [kept, name, description, blocks]
  · rintro rfl
    exact ⟨rfl, rfl, rfl, (forall₂_iff AddressBlock.renamedBy_iff).2 rfl⟩

theorem Component.mapDescriptions_mapNames (change : NameKind → String → String)
    (reword : String → String) (c : Component) :
    (c.mapNames change).mapDescriptions reword = { c with
      description := c.description.map reword
      parameters := c.parameters.map fun p =>
        { p with toLabel := p.toLabel.mapDescription reword }
      resetTypes := c.resetTypes.map fun t =>
        { t with toLabel := t.toLabel.mapDescription reword }
      memoryMaps := c.memoryMaps.map fun m => (m.mapNames change).mapDescriptions reword } := by
  simp [mapNames_eq, mapDescriptions_eq, Label.mapDescription, Function.comp_def]

/-- One tree is related to a component by a change of names and descriptions. -/
theorem Component.renamedBy_iff (c c' : Component) :
    c.RenamedBy change reword c' ↔ c' = (c.mapNames change).mapDescriptions reword := by
  rw [mapDescriptions_mapNames]
  constructor
  · rintro ⟨kept, description, parameters, resetTypes, memoryMaps⟩
    rw [forall₂_iff Parameter.rewordedBy_iff] at parameters
    rw [forall₂_iff ResetType.rewordedBy_iff] at resetTypes
    rw [forall₂_iff MemoryMap.renamedBy_iff] at memoryMaps
    rw [kept, description, parameters, resetTypes, memoryMaps]
  · rintro rfl
    exact ⟨rfl, rfl, (forall₂_iff Parameter.rewordedBy_iff).2 rfl,
      (forall₂_iff ResetType.rewordedBy_iff).2 rfl, (forall₂_iff MemoryMap.renamedBy_iff).2 rfl⟩

end

/-! ### Descriptions that stay -/

theorem Label.mapDescription_id (l : Label) : l.mapDescription id = l := by
  simp [mapDescription]

theorem EnumValue.mapDescriptions_id (e : EnumValue) : e.mapDescriptions id = e := by
  simp [mapDescriptions_eq, Label.mapDescription_id]

theorem BitField.mapDescriptions_id (f : BitField) : f.mapDescriptions id = f := by
  simp [mapDescriptions_eq, Label.mapDescription_id, List.map_id'' EnumValue.mapDescriptions_id]

theorem Register.mapDescriptions_id (r : Register) : r.mapDescriptions id = r := by
  simp [mapDescriptions_eq, Label.mapDescription_id, List.map_id'' BitField.mapDescriptions_id]

theorem AddressBlock.mapDescriptions_id (b : AddressBlock) : b.mapDescriptions id = b := by
  simp [mapDescriptions_eq, Label.mapDescription_id, List.map_id'' Register.mapDescriptions_id]

theorem MemoryMap.mapDescriptions_id (m : MemoryMap) : m.mapDescriptions id = m := by
  simp [mapDescriptions_eq, Label.mapDescription_id, List.map_id'' AddressBlock.mapDescriptions_id]

theorem Component.mapDescriptions_id (c : Component) : c.mapDescriptions id = c := by
  simp [mapDescriptions_eq, Label.mapDescription_id, List.map_id'' MemoryMap.mapDescriptions_id]

/-! ### Descriptions and siblings -/

/-- Descriptions say nothing about siblings. -/
theorem Component.siblings_mapDescriptions (reword : String → String) (c : Component) :
    (c.mapDescriptions reword).siblings = c.siblings := by
  have hnode : ∀ (_ : Unit) i, ((rewording reword).rewrite () i).siblings? = i.siblings? := by
    intro _ i
    cases i <;> simp only [Rewriter.rewrite, Item.siblings?, Rewriter.onComponent_id,
      Rewriter.onMemoryMap_id, Rewriter.onBlock_id, Rewriter.onRegister_id, Rewriter.onField_id,
      List.map_map] <;> rfl
  exact (rewording_keepsChildren reword).filterMap_subtree hnode () (.component c)

end RegAtlas
