import Mathlib.Data.List.Forall2
import RegAtlas.Proofs.Component.Rewriting
import RegAtlas.Proofs.Component.Traversal
import RegAtlas.Reference

/-!
# References in the tree

The references below the memory maps are the references among the nodes of the maps, in the same
order, each with the names that stand around it. A change of references is characterised slot by
slot, with everything beside the slots kept.
-/

namespace RegAtlas

/-! ### References with their owners -/

/-- Attributes references to an owner. -/
def OwnedReference.ofOwner (path : List String) (rs : List (Option Reference)) :
    List OwnedReference :=
  (rs.filterMap id).map (⟨path, ·⟩)

theorem OwnedReference.ofOwner_append (path : List String) (rs rs' : List (Option Reference)) :
    ofOwner path (rs ++ rs') = ofOwner path rs ++ ofOwner path rs' := by
  simp [ofOwner]

theorem OwnedReference.ofOwner_flatMap {α : Type} (path : List String) (as : List α)
    (rs : α → List (Option Reference)) :
    ofOwner path (as.flatMap rs) = as.flatMap fun a => ofOwner path (rs a) := by
  simp [ofOwner, List.filterMap_flatMap, List.map_flatMap]

/-- The references at and below a node, when the names are those around the node. -/
def Item.referencesIn (path : List String) (i : Item) : List OwnedReference :=
  (i.subtreeIn OwnedReference.pathBelow path).filterMap OwnedReference.ofItem?

def BitField.ownedReferences (path : List String) (f : BitField) : List OwnedReference :=
  (Item.field f).referencesIn path

def Register.ownedReferences (path : List String) (r : Register) : List OwnedReference :=
  (Item.register r).referencesIn path

def AddressBlock.ownedReferences (path : List String) (b : AddressBlock) : List OwnedReference :=
  (Item.block b).referencesIn path

namespace Item

theorem referencesIn_eq (path : List String) (i : Item) : i.referencesIn path =
    (OwnedReference.ofItem? (path, i)).toList ++
      i.children.flatMap (referencesIn (OwnedReference.pathBelow path i)) := by
  rw [referencesIn, subtreeIn_eq, List.filterMap_cons, List.filterMap_flatMap]
  cases OwnedReference.ofItem? (path, i) <;> rfl

@[simp] theorem referencesIn_references (path : List String) (rs : List (Option Reference)) :
    (references rs).flatMap (referencesIn path) = OwnedReference.ofOwner path rs := by
  simp [references, referencesIn, OwnedReference.ofItem?, OwnedReference.ofOwner,
    List.flatMap_map, ← List.map_eq_flatMap]

@[simp] theorem referencesIn_value (path : List String) (v : Value) :
    (value v).referencesIn path = [] := by
  simp [referencesIn, OwnedReference.ofItem?]

theorem referencesIn_reset (path : List String) (r : Reset) :
    (reset r).referencesIn path = OwnedReference.ofOwner path [r.value, r.mask] := by
  have hbelow : OwnedReference.pathBelow path (reset r) = path := List.append_nil path
  rw [referencesIn_eq, children, referencesIn_references, hbelow]
  rfl

theorem referencesIn_enumValue (path : List String) (e : EnumValue) :
    (enumValue e).referencesIn path = [] := by
  rw [referencesIn_eq, children, List.flatMap_map]
  simp [OwnedReference.ofItem?]

end Item

theorem BitField.ownedReferences_eq (path : List String) (f : BitField) :
    f.ownedReferences path = OwnedReference.ofOwner (path ++ [f.name])
      ([f.offset, f.width, f.isPresent, f.reserved, f.writeMinimum, f.writeMaximum] ++
        f.resets.flatMap fun r => [r.value, r.mask]) := by
  have hbelow : OwnedReference.pathBelow path (Item.field f) = path ++ [f.name] := rfl
  rw [ownedReferences, Item.referencesIn_eq, hbelow, OwnedReference.ofOwner_append,
    OwnedReference.ofOwner_flatMap]
  have hid : (f.fieldId.toList.map Item.value).flatMap
      (Item.referencesIn (path ++ [f.name])) = [] := by
    simp
  have hvalues : (f.enumValues.map Item.enumValue).flatMap
      (Item.referencesIn (path ++ [f.name])) = [] := by
    simp [Item.referencesIn_enumValue]
  simp only [Item.children, List.flatMap_append, hid, hvalues, Item.referencesIn_references,
    List.flatMap_map, Item.referencesIn_reset, List.append_nil]
  rfl

theorem Register.ownedReferences_eq (path : List String) (r : Register) :
    r.ownedReferences path =
      OwnedReference.ofOwner (path ++ [r.name]) [r.offset, r.size, r.dimension, r.isPresent] ++
        r.fields.flatMap (BitField.ownedReferences (path ++ [r.name])) := by
  rw [ownedReferences, Item.referencesIn_eq, Item.children, List.flatMap_append,
    Item.referencesIn_references, List.flatMap_map]
  rfl

theorem AddressBlock.ownedReferences_eq (path : List String) (b : AddressBlock) :
    b.ownedReferences path =
      OwnedReference.ofOwner (path ++ [b.name]) [b.baseAddress, b.range, b.width, b.isPresent] ++
        b.registers.flatMap (Register.ownedReferences (path ++ [b.name])) := by
  rw [ownedReferences, Item.referencesIn_eq, Item.children, List.flatMap_append,
    Item.referencesIn_references, List.flatMap_map]
  rfl

theorem MemoryMap.ownedReferences_eq (m : MemoryMap) : m.ownedReferences =
    OwnedReference.ofOwner [m.name] [m.isPresent] ++
      m.blocks.flatMap (AddressBlock.ownedReferences [m.name]) := by
  have hnodes : m.ownedReferences = (Item.memoryMap m).referencesIn [] := by
    rw [ownedReferences, itemsIn_eq]
    rfl
  rw [hnodes, Item.referencesIn_eq, Item.children, List.flatMap_append,
    Item.referencesIn_references, List.flatMap_map]
  rfl

/-! ### The references among the nodes -/

namespace Item

/-- The names of the map, block, register and field that stand around the nodes behind this one.
A node of one of these kinds ends those of its own level and below. -/
def pathBehind (path : List String) : Item → List String
  | memoryMap m => [m.name]
  | block b => path.take 1 ++ [b.name]
  | register r => path.take 2 ++ [r.name]
  | field f => path.take 3 ++ [f.name]
  | _ => path

/-- The references of a list of nodes, each with the names that stand around it. -/
def ownedReferences (path : List String) : List Item → List OwnedReference
  | [] => []
  | .reference r :: items => ⟨path, r⟩ :: ownedReferences path items
  | item :: items => ownedReferences (item.pathBehind path) items

section

variable (path : List String) (rest : List Item)

theorem ownedReferences_references (rs : List (Option Reference)) :
    ownedReferences path (references rs ++ rest) =
      OwnedReference.ofOwner path rs ++ ownedReferences path rest := by
  induction rs with
  | nil => rfl
  | cons r rs ih =>
    cases r with
    | none => exact ih
    | some r => exact congrArg (⟨path, r⟩ :: ·) ih

theorem ownedReferences_resets (resets : List Reset) :
    ownedReferences path (resets.flatMap Reset.items ++ rest) =
      OwnedReference.ofOwner path (resets.flatMap fun r => [r.value, r.mask]) ++
        ownedReferences path rest := by
  induction resets with
  | nil => rfl
  | cons r resets ih =>
    have hone : ownedReferences path (r.items ++ (resets.flatMap Reset.items ++ rest)) =
        OwnedReference.ofOwner path [r.value, r.mask] ++
          ownedReferences path (resets.flatMap Reset.items ++ rest) :=
      ownedReferences_references path _ [r.value, r.mask]
    rw [List.flatMap_cons, List.append_assoc, hone, ih, List.flatMap_cons,
      OwnedReference.ofOwner_append, List.append_assoc]

theorem ownedReferences_values (v : Option Value) :
    ownedReferences path (v.toList.map .value ++ rest) = ownedReferences path rest := by
  cases v <;> rfl

theorem ownedReferences_enumValues (es : List EnumValue) :
    ownedReferences path (es.flatMap EnumValue.items ++ rest) = ownedReferences path rest := by
  induction es with
  | nil => rfl
  | cons e es ih =>
    have hone : ownedReferences path (e.items ++ (es.flatMap EnumValue.items ++ rest)) =
        ownedReferences path (es.flatMap EnumValue.items ++ rest) :=
      ownedReferences_values path _ e.value
    rw [List.flatMap_cons, List.append_assoc, hone, ih]

end

/-- The nodes add the references to those of the nodes behind them, as long as the path begins with
the names around the nodes, which it does behind them as well. -/
def Adds (around : List String) (items : List Item) (refs : List OwnedReference) : Prop :=
  ∀ path, path.take around.length = around → ∃ path', path'.take around.length = around ∧
    ∀ rest, ownedReferences path (items ++ rest) = refs ++ ownedReferences path' rest

theorem Adds.flatMap {α : Type} {around : List String} {as : List α} {nodes : α → List Item}
    {refs : α → List OwnedReference} (h : ∀ a ∈ as, Adds around (nodes a) (refs a)) :
    Adds around (as.flatMap nodes) (as.flatMap refs) := by
  induction as with
  | nil => exact fun path hpath => ⟨path, hpath, fun rest => rfl⟩
  | cons a as ih =>
    rw [List.forall_mem_cons] at h
    intro path hpath
    obtain ⟨path', hpath', hfirst⟩ := h.1 path hpath
    obtain ⟨path'', hpath'', hothers⟩ := ih h.2 path' hpath'
    refine ⟨path'', hpath'', fun rest => ?_⟩
    rw [List.flatMap_cons, List.append_assoc, hfirst, hothers, List.flatMap_cons, List.append_assoc]

/-- A node whose name joins the path, with references of its own and nodes below it. -/
theorem Adds.node {around : List String} {name : String} {item : Item} {items : List Item}
    {rs : List (Option Reference)} {refs : List OwnedReference}
    (hitem : ∀ path rest, path.take around.length = around →
      ownedReferences path (item :: rest) = ownedReferences (around ++ [name]) rest)
    (h : Adds (around ++ [name]) items refs) :
    Adds around (item :: (references rs ++ items))
      (OwnedReference.ofOwner (around ++ [name]) rs ++ refs) := by
  intro path hpath
  obtain ⟨path', hpath', hbelow⟩ := h (around ++ [name]) (List.take_length)
  refine ⟨path', ?_, fun rest => ?_⟩
  · have := congrArg (List.take around.length) hpath'
    simpa [List.take_take] using this
  · rw [List.cons_append, hitem path _ hpath, List.append_assoc, ownedReferences_references, hbelow,
      List.append_assoc]

theorem adds_field {around : List String} (hlevel : around.length = 3) (f : BitField) :
    Adds around f.items (f.ownedReferences around) := by
  intro path hpath
  refine ⟨around ++ [f.name], by simp, fun rest => ?_⟩
  have hbehind : path.take 3 = around := hlevel ▸ hpath
  have hfield : ownedReferences path (f.items ++ rest) =
      ownedReferences (around ++ [f.name]) ((f.fieldId.toList.map .value ++
        references f.references ++ f.resets.flatMap Reset.items ++
        f.enumValues.flatMap EnumValue.items) ++ rest) := by
    rw [← hbehind]
    rfl
  simp only [hfield, List.append_assoc, ownedReferences_values, ownedReferences_references,
    ownedReferences_resets, ownedReferences_enumValues]
  rw [BitField.ownedReferences_eq, OwnedReference.ofOwner_append, List.append_assoc]
  rfl

theorem adds_register {around : List String} (hlevel : around.length = 2) (r : Register) :
    Adds around r.items (r.ownedReferences around) := by
  rw [Register.ownedReferences_eq]
  refine Adds.node (fun path rest hpath => ?_)
    (Adds.flatMap fun f _ => adds_field (by simp [hlevel]) f)
  rw [hlevel] at hpath
  rw [← hpath]
  rfl

theorem adds_block {around : List String} (hlevel : around.length = 1) (b : AddressBlock) :
    Adds around b.items (b.ownedReferences around) := by
  rw [AddressBlock.ownedReferences_eq]
  refine Adds.node (fun path rest hpath => ?_)
    (Adds.flatMap fun r _ => adds_register (by simp [hlevel]) r)
  rw [hlevel] at hpath
  rw [← hpath]
  rfl

theorem adds_memoryMap (m : MemoryMap) : Adds [] m.items m.ownedReferences := by
  rw [MemoryMap.ownedReferences_eq]
  exact Adds.node (fun _ _ _ => rfl) (Adds.flatMap fun b _ => adds_block rfl b)

end Item

/-- The references below the memory maps are those among the nodes of the maps. -/
theorem Component.ownedReferences_eq (c : Component) :
    c.ownedReferences = Item.ownedReferences [] (c.memoryMaps.flatMap MemoryMap.items) := by
  obtain ⟨path, -, h⟩ := Item.Adds.flatMap (fun m (_ : m ∈ c.memoryMaps) => Item.adds_memoryMap m)
    [] rfl
  have := h []
  rw [List.append_nil] at this
  rw [this, ownedReferences, Item.ownedReferences, List.append_nil]

/-! ### Changes of references -/

section

variable (change : Reference → Reference)

theorem changing_keepsChildren : (changing change).KeepsChildren := fun _ i => by cases i <;> rfl

/-- What is read from the nodes after a change of references, when the change keeps what is read
from a node. -/
theorem Component.filterMap_mapReferences (c : Component) {α : Type} {read : Item → Option α}
    (hread : ∀ i, read ((changing change).rewrite () i) = read i)
    (hroot : read (.component (c.mapReferences change)) = read (.component c)) :
    (c.mapReferences change).items.filterMap read = c.items.filterMap read := by
  have hmap : ∀ m : MemoryMap,
      (m.mapReferences change).items.filterMap read = m.items.filterMap read := fun m =>
    (changing_keepsChildren change).filterMap_subtree (fun _ => hread) () (.memoryMap m)
  have hmaps : ((c.memoryMaps.map (MemoryMap.mapReferences change)).flatMap
      MemoryMap.items).filterMap read = (c.memoryMaps.flatMap MemoryMap.items).filterMap read := by
    simp only [List.filterMap_flatMap, List.flatMap_map, hmap]
  rw [items, items, List.filterMap_cons, List.filterMap_cons, hroot]
  simp only [mapReferences, List.filterMap_append, hmaps]

def Reset.mapReferences (r : Reset) : Reset := (changing change).onReset () r

def BitField.mapReferences (f : BitField) : BitField := (changing change).onField () f

def Register.mapReferences (r : Register) : Register := (changing change).onRegister () r

def AddressBlock.mapReferences (b : AddressBlock) : AddressBlock := (changing change).onBlock () b

theorem Reset.mapReferences_eq (r : Reset) : r.mapReferences change =
    { r with value := r.value.map change, mask := r.mask.map change } := by
  rw [mapReferences, Rewriter.onReset_id]
  rfl

theorem BitField.mapReferences_eq (f : BitField) : f.mapReferences change = { f with
    offset := f.offset.map change
    width := f.width.map change
    isPresent := f.isPresent.map change
    reserved := f.reserved.map change
    writeMinimum := f.writeMinimum.map change
    writeMaximum := f.writeMaximum.map change
    resets := f.resets.map (Reset.mapReferences change) } := by
  have hvalue : ∀ seen v, (changing change).value seen v = v := fun _ _ => rfl
  rw [mapReferences, Rewriter.onField_id]
  simp only [Rewriter.map_of_keeps _ hvalue, funext (Rewriter.onEnumValue_of_keeps _ hvalue)]
  exact congrArg (fun enumValues => ({ f with
    offset := f.offset.map change
    width := f.width.map change
    isPresent := f.isPresent.map change
    reserved := f.reserved.map change
    writeMinimum := f.writeMinimum.map change
    writeMaximum := f.writeMaximum.map change
    resets := f.resets.map (Reset.mapReferences change)
    enumValues } : BitField)) (List.map_id' f.enumValues)

theorem Register.mapReferences_eq (r : Register) : r.mapReferences change = { r with
    offset := r.offset.map change
    size := r.size.map change
    dimension := r.dimension.map change
    isPresent := r.isPresent.map change
    fields := r.fields.map (BitField.mapReferences change) } := by
  rw [mapReferences, Rewriter.onRegister_id]
  rfl

theorem AddressBlock.mapReferences_eq (b : AddressBlock) : b.mapReferences change = { b with
    baseAddress := b.baseAddress.map change
    range := b.range.map change
    width := b.width.map change
    isPresent := b.isPresent.map change
    registers := b.registers.map (Register.mapReferences change) } := by
  rw [mapReferences, Rewriter.onBlock_id]
  rfl

theorem MemoryMap.mapReferences_eq (m : MemoryMap) : m.mapReferences change = { m with
    isPresent := m.isPresent.map change
    blocks := m.blocks.map (AddressBlock.mapReferences change) } := by
  rw [mapReferences, Rewriter.onMemoryMap_id]
  rfl

/-- An owned reference after a change. -/
def OwnedReference.mapReference (o : OwnedReference) : OwnedReference :=
  { o with reference := change o.reference }

theorem MemoryMap.ownedReferences_mapReferences (m : MemoryMap) :
    (m.mapReferences change).ownedReferences =
      m.ownedReferences.map (OwnedReference.mapReference change) := by
  have hpath : ∀ path i, OwnedReference.pathBelow path ((changing change).rewrite () i) =
      OwnedReference.pathBelow path i := fun path i => by cases i <;> rfl
  have hnodes :
      (Item.memoryMap (m.mapReferences change)).subtreeIn OwnedReference.pathBelow [] = _ :=
    (changing_keepsChildren change).subtreeIn_rewrite hpath [] (.memoryMap m)
  rw [ownedReferences, ownedReferences, itemsIn_eq, itemsIn_eq, hnodes, List.filterMap_map,
    List.map_filterMap]
  refine List.filterMap_congr fun x _ => ?_
  obtain ⟨path, i⟩ := x
  cases i <;> rfl

/-- A change keeps the order of the references and their owners. -/
theorem Component.ownedReferences_mapReferences (c : Component) :
    (c.mapReferences change).ownedReferences =
      c.ownedReferences.map (OwnedReference.mapReference change) := by
  simp [ownedReferences, mapReferences, List.map_flatMap, List.flatMap_map,
    MemoryMap.ownedReferences_mapReferences]

end

section

variable (change again : Reference → Reference)

theorem Reset.mapReferences_mapReferences (r : Reset) :
    (r.mapReferences change).mapReferences again = r.mapReferences (again ∘ change) := by
  simp [mapReferences_eq]

theorem BitField.mapReferences_mapReferences (f : BitField) :
    (f.mapReferences change).mapReferences again = f.mapReferences (again ∘ change) := by
  simp [mapReferences_eq, Function.comp_def, Reset.mapReferences_mapReferences]

theorem Register.mapReferences_mapReferences (r : Register) :
    (r.mapReferences change).mapReferences again = r.mapReferences (again ∘ change) := by
  simp [mapReferences_eq, Function.comp_def, BitField.mapReferences_mapReferences]

theorem AddressBlock.mapReferences_mapReferences (b : AddressBlock) :
    (b.mapReferences change).mapReferences again = b.mapReferences (again ∘ change) := by
  simp [mapReferences_eq, Function.comp_def, Register.mapReferences_mapReferences]

theorem MemoryMap.mapReferences_mapReferences (m : MemoryMap) :
    (m.mapReferences change).mapReferences again = m.mapReferences (again ∘ change) := by
  simp [mapReferences_eq, Function.comp_def, AddressBlock.mapReferences_mapReferences]

/-- Two changes one after the other are one change. -/
theorem Component.mapReferences_mapReferences (c : Component) :
    (c.mapReferences change).mapReferences again = c.mapReferences (again ∘ change) := by
  simp [mapReferences, Function.comp_def, MemoryMap.mapReferences_mapReferences]

end

/-! ### Trees that differ in references -/

section

variable (R : Reference → Reference → Prop)

/-- The second reset differs from the first in its references, which are related slot by slot. -/
structure Reset.RelatedBy (r r' : Reset) : Prop where
  kept : r' = { r with value := r'.value, mask := r'.mask }
  value : Option.Rel R r.value r'.value
  mask : Option.Rel R r.mask r'.mask

structure BitField.RelatedBy (f f' : BitField) : Prop where
  kept : f' = { f with
    offset := f'.offset
    width := f'.width
    isPresent := f'.isPresent
    reserved := f'.reserved
    writeMinimum := f'.writeMinimum
    writeMaximum := f'.writeMaximum
    resets := f'.resets }
  offset : Option.Rel R f.offset f'.offset
  width : Option.Rel R f.width f'.width
  isPresent : Option.Rel R f.isPresent f'.isPresent
  reserved : Option.Rel R f.reserved f'.reserved
  writeMinimum : Option.Rel R f.writeMinimum f'.writeMinimum
  writeMaximum : Option.Rel R f.writeMaximum f'.writeMaximum
  resets : List.Forall₂ (Reset.RelatedBy R) f.resets f'.resets

structure Register.RelatedBy (r r' : Register) : Prop where
  kept : r' = { r with
    offset := r'.offset
    size := r'.size
    dimension := r'.dimension
    isPresent := r'.isPresent
    fields := r'.fields }
  offset : Option.Rel R r.offset r'.offset
  size : Option.Rel R r.size r'.size
  dimension : Option.Rel R r.dimension r'.dimension
  isPresent : Option.Rel R r.isPresent r'.isPresent
  fields : List.Forall₂ (BitField.RelatedBy R) r.fields r'.fields

structure AddressBlock.RelatedBy (b b' : AddressBlock) : Prop where
  kept : b' = { b with
    baseAddress := b'.baseAddress
    range := b'.range
    width := b'.width
    isPresent := b'.isPresent
    registers := b'.registers }
  baseAddress : Option.Rel R b.baseAddress b'.baseAddress
  range : Option.Rel R b.range b'.range
  width : Option.Rel R b.width b'.width
  isPresent : Option.Rel R b.isPresent b'.isPresent
  registers : List.Forall₂ (Register.RelatedBy R) b.registers b'.registers

structure MemoryMap.RelatedBy (m m' : MemoryMap) : Prop where
  kept : m' = { m with isPresent := m'.isPresent, blocks := m'.blocks }
  isPresent : Option.Rel R m.isPresent m'.isPresent
  blocks : List.Forall₂ (AddressBlock.RelatedBy R) m.blocks m'.blocks

/-- The second component differs from the first in the references below its memory maps, which are
related slot by slot. -/
structure Component.RelatedBy (c c' : Component) : Prop where
  kept : c' = { c with memoryMaps := c'.memoryMaps }
  memoryMaps : List.Forall₂ (MemoryMap.RelatedBy R) c.memoryMaps c'.memoryMaps

end

section

variable {α β : Type} {R : α → β → Prop} {f : α → β}

theorem optionRel_iff (h : ∀ a b, R a b ↔ b = f a) {a : Option α} {b : Option β} :
    Option.Rel R a b ↔ b = a.map f := by
  cases a <;> cases b <;> simp [h]

theorem forall₂_iff (h : ∀ a b, R a b ↔ b = f a) {as : List α} {bs : List β} :
    List.Forall₂ R as bs ↔ bs = as.map f := by
  induction as generalizing bs with
  | nil => simp
  | cons a as ih => cases bs <;> simp [h, ih]

end

section

variable {R : Reference → Reference → Prop} {change : Reference → Reference}
  (h : ∀ r r', R r r' ↔ r' = change r)
include h

theorem Reset.relatedBy_iff (r r' : Reset) : r.RelatedBy R r' ↔ r' = r.mapReferences change := by
  constructor
  · rintro ⟨kept, value, mask⟩
    rw [optionRel_iff h] at value mask
    rw [kept, value, mask, mapReferences_eq]
  · rintro rfl
    constructor <;> simp [optionRel_iff h, mapReferences_eq]

theorem BitField.relatedBy_iff (f f' : BitField) :
    f.RelatedBy R f' ↔ f' = f.mapReferences change := by
  constructor
  · rintro ⟨kept, offset, width, isPresent, reserved, writeMinimum, writeMaximum, resets⟩
    rw [optionRel_iff h] at offset width isPresent reserved writeMinimum writeMaximum
    rw [forall₂_iff (Reset.relatedBy_iff h)] at resets
    rw [kept, offset, width, isPresent, reserved, writeMinimum, writeMaximum, resets,
      mapReferences_eq]
  · rintro rfl
    constructor <;> simp [optionRel_iff h, forall₂_iff (Reset.relatedBy_iff h), mapReferences_eq]

theorem Register.relatedBy_iff (r r' : Register) :
    r.RelatedBy R r' ↔ r' = r.mapReferences change := by
  constructor
  · rintro ⟨kept, offset, size, dimension, isPresent, fields⟩
    rw [optionRel_iff h] at offset size dimension isPresent
    rw [forall₂_iff (BitField.relatedBy_iff h)] at fields
    rw [kept, offset, size, dimension, isPresent, fields, mapReferences_eq]
  · rintro rfl
    constructor <;> simp [optionRel_iff h, forall₂_iff (BitField.relatedBy_iff h), mapReferences_eq]

theorem AddressBlock.relatedBy_iff (b b' : AddressBlock) :
    b.RelatedBy R b' ↔ b' = b.mapReferences change := by
  constructor
  · rintro ⟨kept, baseAddress, range, width, isPresent, registers⟩
    rw [optionRel_iff h] at baseAddress range width isPresent
    rw [forall₂_iff (Register.relatedBy_iff h)] at registers
    rw [kept, baseAddress, range, width, isPresent, registers, mapReferences_eq]
  · rintro rfl
    constructor <;> simp [optionRel_iff h, forall₂_iff (Register.relatedBy_iff h), mapReferences_eq]

theorem MemoryMap.relatedBy_iff (m m' : MemoryMap) :
    m.RelatedBy R m' ↔ m' = m.mapReferences change := by
  constructor
  · rintro ⟨kept, isPresent, blocks⟩
    rw [optionRel_iff h] at isPresent
    rw [forall₂_iff (AddressBlock.relatedBy_iff h)] at blocks
    rw [kept, isPresent, blocks, mapReferences_eq]
  · rintro rfl
    constructor <;>
      simp [optionRel_iff h, forall₂_iff (AddressBlock.relatedBy_iff h), mapReferences_eq]

/-- A component is related to its change, and to no other one. -/
theorem Component.relatedBy_iff (c c' : Component) :
    c.RelatedBy R c' ↔ c' = c.mapReferences change := by
  constructor
  · rintro ⟨kept, memoryMaps⟩
    rw [forall₂_iff (MemoryMap.relatedBy_iff h)] at memoryMaps
    rw [kept, memoryMaps, mapReferences]
  · rintro rfl
    constructor <;> simp [forall₂_iff (MemoryMap.relatedBy_iff h), mapReferences]

end

end RegAtlas
