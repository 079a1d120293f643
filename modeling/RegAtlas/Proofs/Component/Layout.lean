import RegAtlas.Component.Layout
import RegAtlas.Proofs.Literal
import RegAtlas.Proofs.Result
import RegAtlas.Proofs.WordGroup.StableSort

/-!
# Numbers of a layout

Every computation on the layout of a block gives a result under a condition on the numbers of the
component, and there is one result that it can give. A property that gives no number has the number
zero here; the condition stands beside it.
-/

namespace RegAtlas

/-- The number that a property gives, if it is there and numeric. -/
def numberOf? (p : Option Reference) : Option Nat := p.bind Reference.number?

/-- The number of a property, zero if it gives none. -/
def numberOf (p : Option Reference) : Nat := (numberOf? p).getD 0

theorem numberOf_lt_bound (p : Option Reference) : numberOf p < Literal.bound := by
  rw [numberOf]
  cases h : numberOf? p with
  | none => exact (by decide : 0 < Literal.bound)
  | some n =>
    obtain ⟨r, -, hn⟩ := Option.bind_eq_some_iff.1 h
    exact Literal.lt_bound_of_parse? hn

theorem gives_require (owner what : String) (p : Option Reference) :
    Gives (require owner what p) (numberOf? p ≠ none) (numberOf p) := by
  cases p with
  | none => constructor <;> simp [require, numberOf?]
  | some r =>
    constructor <;> cases h : r.number? <;>
      simp [require, Reference.number, numberOf, numberOf?, h]

theorem gives_checkedAdd (fault : Fault) (a b : Nat) :
    Gives (checkedAdd fault a b) (a + b < Literal.bound) (a + b) := by
  constructor <;> intro h <;> simp [checkedAdd, h]

theorem gives_keyed {α : Type} {offset : α → Except Fault Nat} {defined : α → Prop}
    {place : α → Nat} {items : List α}
    (h : ∀ a ∈ items, Gives (offset a) (defined a) (place a)) :
    Gives (keyed offset items) (∀ a ∈ items, defined a) (WordGroup.keyedBy place items) :=
  .mapM fun a ha => (h a ha).bind_pure

/-! ### Enumerated values -/

namespace EnumValue

/-- The number of an enumerated value, if it is there and numeric. -/
def number? (e : EnumValue) : Option Nat := e.value.bind Value.number?

theorem gives_number (e : EnumValue) : Gives e.number (e.number? ≠ none) (e.number?.getD 0) := by
  cases hv : e.value with
  | none => constructor <;> simp [number, number?, hv]
  | some v => constructor <;> cases h : v.number? <;> simp [number, number?, hv, h]

end EnumValue

/-! ### Fields -/

namespace BitField

/-- All enumerated values of the field are numbers. -/
def ValuesDefined (f : BitField) : Prop := ∀ e ∈ f.enumValues, e.number? ≠ none

instance (f : BitField) : Decidable f.ValuesDefined :=
  inferInstanceAs (Decidable (∀ e ∈ f.enumValues, e.number? ≠ none))

/-- First bit in the register. -/
def start (f : BitField) : Nat := numberOf f.offset

/-- Number of bits. -/
def count (f : BitField) : Nat := numberOf f.width

theorem gives_bitOffset (f : BitField) : Gives f.bitOffset (numberOf? f.offset ≠ none) f.start :=
  gives_require _ _ _

theorem gives_bitWidth (f : BitField) : Gives f.bitWidth (numberOf? f.width ≠ none) f.count :=
  gives_require _ _ _

end BitField

/-! ### Registers -/

namespace Register

/-- First byte in the block. -/
def start (r : Register) : Nat := numberOf r.offset

/-- Fields in ascending order of bit offset. -/
def fieldsInOrder (r : Register) : List BitField := WordGroup.inOrder BitField.start r.fields

@[simp] theorem mem_fieldsInOrder {r : Register} {f : BitField} :
    f ∈ r.fieldsInOrder ↔ f ∈ r.fields := WordGroup.mem_inOrder

theorem gives_byteOffset (r : Register) : Gives r.byteOffset (numberOf? r.offset ≠ none) r.start :=
  gives_require _ _ _

theorem gives_sortedFields (r : Register) :
    Gives r.sortedFields (∀ f ∈ r.fields, numberOf? f.offset ≠ none) r.fieldsInOrder := by
  have h := (gives_keyed fun f (_ : f ∈ r.fields) => f.gives_bitOffset).bind_pure
    (f := fun pairs => (WordGroup.sortByOffset pairs).map Prod.snd)
  rwa [WordGroup.sortByOffset_keyedBy, WordGroup.map_snd_keyedBy] at h

end Register

/-! ### Blocks -/

namespace AddressBlock

/-- Registers in ascending order of offset. -/
def registersInOrder (b : AddressBlock) : List Register :=
  WordGroup.inOrder Register.start b.registers

@[simp] theorem mem_registersInOrder {b : AddressBlock} {r : Register} :
    r ∈ b.registersInOrder ↔ r ∈ b.registers := WordGroup.mem_inOrder

theorem gives_sortedRegisters (b : AddressBlock) :
    Gives b.sortedRegisters (∀ r ∈ b.registers, numberOf? r.offset ≠ none) b.registersInOrder := by
  have h := (gives_keyed fun r (_ : r ∈ b.registers) => r.gives_byteOffset).bind_pure
    (f := fun pairs => (WordGroup.sortByOffset pairs).map Prod.snd)
  rwa [WordGroup.sortByOffset_keyedBy, WordGroup.map_snd_keyedBy] at h

/-- The address of a register. -/
def address (b : AddressBlock) (r : Register) : Nat := numberOf b.baseAddress + r.start

/-- A register has an address. -/
def AddressDefined (b : AddressBlock) (r : Register) : Prop :=
  numberOf? b.baseAddress ≠ none ∧ numberOf? r.offset ≠ none ∧ b.address r < Literal.bound

instance (b : AddressBlock) (r : Register) : Decidable (b.AddressDefined r) :=
  inferInstanceAs (Decidable (_ ∧ _ ∧ _))

theorem not_addressDefined_iff {b : AddressBlock} {r : Register} : ¬ b.AddressDefined r ↔
    numberOf? r.offset = none ∨ numberOf? b.baseAddress = none ∨ Literal.bound ≤ b.address r := by
  rw [AddressDefined]
  by_cases hr : numberOf? r.offset = none <;> by_cases hb : numberOf? b.baseAddress = none <;>
    simp [hr, hb]

theorem gives_registerAddress (b : AddressBlock) (r : Register) :
    Gives (b.registerAddress r) (b.AddressDefined r) (b.address r) :=
  (gives_require _ _ _).bind fun _ => r.gives_byteOffset.bind fun _ => gives_checkedAdd _ _ _

end AddressBlock

/-! ### Bits in an access word -/

namespace WordGroup

/-- The first bit of a field in the access word of its register. -/
def bitStart (wordBytes : Nat) (r : Register) (f : BitField) : Nat :=
  f.start + r.start % max wordBytes 1 * 8

/-- The last bit of a field in the access word of its register. A field without bits has its first
bit as its last. -/
def bitLast (wordBytes : Nat) (r : Register) (f : BitField) : Nat :=
  bitStart wordBytes r f + (f.count - 1)

/-- A field has a position in the access word of its register. -/
def PositionDefined (wordBytes : Nat) (r : Register) (f : BitField) : Prop :=
  numberOf? r.offset ≠ none ∧ numberOf? f.offset ≠ none ∧ bitStart wordBytes r f < Literal.bound

/-- A field has a range of bits in the access word of its register. -/
def BitsDefined (wordBytes : Nat) (r : Register) (f : BitField) : Prop :=
  numberOf? r.offset ≠ none ∧ numberOf? f.offset ≠ none ∧ numberOf? f.width ≠ none ∧
    bitLast wordBytes r f < Literal.bound

instance (wordBytes : Nat) (r : Register) (f : BitField) :
    Decidable (PositionDefined wordBytes r f) := inferInstanceAs (Decidable (_ ∧ _ ∧ _))

instance (wordBytes : Nat) (r : Register) (f : BitField) : Decidable (BitsDefined wordBytes r f) :=
  inferInstanceAs (Decidable (_ ∧ _ ∧ _ ∧ _))

theorem gives_bitPosition (wordBytes : Nat) (r : Register) (f : BitField) :
    Gives (bitPosition wordBytes r f) (PositionDefined wordBytes r f) (bitStart wordBytes r f) :=
  r.gives_byteOffset.bind fun _ => f.gives_bitOffset.bind fun _ => gives_checkedAdd _ _ _

theorem bitsDefined_iff {wordBytes : Nat} {r : Register} {f : BitField} :
    PositionDefined wordBytes r f ∧ numberOf? f.width ≠ none ∧
      bitLast wordBytes r f < Literal.bound ↔ BitsDefined wordBytes r f := by
  have hle : bitStart wordBytes r f ≤ bitLast wordBytes r f := Nat.le_add_right _ _
  constructor
  · rintro ⟨⟨hr, hf, _⟩, hw, hlast⟩
    exact ⟨hr, hf, hw, hlast⟩
  · rintro ⟨hr, hf, hw, hlast⟩
    exact ⟨⟨hr, hf, Nat.lt_of_le_of_lt hle hlast⟩, hw, hlast⟩

theorem not_bitsDefined_iff {wordBytes : Nat} {r : Register} {f : BitField}
    (hr : numberOf? r.offset ≠ none) : ¬ BitsDefined wordBytes r f ↔ numberOf? f.offset = none ∨
      numberOf? f.width = none ∨ Literal.bound ≤ bitLast wordBytes r f := by
  rw [BitsDefined]
  by_cases hf : numberOf? f.offset = none <;> by_cases hw : numberOf? f.width = none <;>
    simp [hr, hf, hw]

theorem gives_bitRange (wordBytes : Nat) (r : Register) (f : BitField) :
    Gives (bitRange wordBytes r f) (BitsDefined wordBytes r f)
      (bitStart wordBytes r f, bitLast wordBytes r f) :=
  ((gives_bitPosition wordBytes r f).bind fun _ => f.gives_bitWidth.bind fun _ =>
    (gives_checkedAdd _ _ _).bind_pure).congr bitsDefined_iff

end WordGroup

end RegAtlas
