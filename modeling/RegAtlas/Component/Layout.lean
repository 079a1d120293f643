import RegAtlas.Component.Basic
import RegAtlas.Fault
import RegAtlas.WordGroup

/-!
# Layout of a block

Offsets, sizes and addresses as numbers, the order of registers and fields by offset, and the bits
of an access word that a field takes.
-/

namespace RegAtlas

/-- The number that a literal denotes. -/
def Value.number? (v : Value) : Option Nat := Literal.parse? v.text

/-- The number that the current text denotes. -/
def Reference.number? (r : Reference) : Option Nat := Literal.parse? r.text

/-- The flag that the current text denotes. -/
def Reference.flag? (r : Reference) : Option Bool := Literal.parseFlag? r.text

/-- A parameter gave the value. -/
def Reference.isResolved (r : Reference) : Bool := r.target.isSome

/-- The number of a reference, or a fault that names the owner. -/
def Reference.number (r : Reference) (owner : String) : Except Fault Nat :=
  match r.number? with
  | some n => .ok n
  | none => .error (.invalidLiteral owner r.text)

/-- The number of a property that has to be there. -/
def require (owner what : String) : Option Reference → Except Fault Nat
  | some r => r.number s!"{owner} {what}"
  | none => .error (.missingValue owner what)

/-- A sum that has to fit into 64 bits. -/
def checkedAdd (fault : Fault) (a b : Nat) : Except Fault Nat :=
  if a + b < Literal.bound then .ok (a + b) else .error fault

/-- Elements with their offsets, or the fault of the first element without one. -/
def keyed {α : Type} (offset : α → Except Fault Nat) (items : List α) :
    Except Fault (List (Nat × α)) :=
  items.mapM fun item => do return (← offset item, item)

/-- The number of an enumerated value. -/
def EnumValue.number (e : EnumValue) : Except Fault Nat :=
  let owner := s!"enumerated value {e.name}"
  match e.value with
  | none => .error (.missingValue owner "value")
  | some v => match v.number? with
    | some n => .ok n
    | none => .error (.invalidLiteral owner v.text)

namespace BitField

/-- First bit in the register. -/
def bitOffset (f : BitField) : Except Fault Nat := require s!"field {f.name}" "offset" f.offset

/-- Number of bits. -/
def bitWidth (f : BitField) : Except Fault Nat := require s!"field {f.name}" "width" f.width

/-- The value of the first reset domain that gives a number. -/
def resetNumber? (f : BitField) : Option Nat :=
  (f.resets.filterMap (·.value)).findSome? Reference.number?

def isReserved (f : BitField) : Bool := (f.reserved.bind Reference.flag?).getD false

end BitField

namespace Register

/-- First byte in the block. -/
def byteOffset (r : Register) : Except Fault Nat :=
  require s!"register {r.name}" "offset" r.offset

/-- Number of bits. -/
def bitSize (r : Register) : Except Fault Nat := require s!"register {r.name}" "size" r.size

/-- Fields in ascending order of bit offset. -/
def sortedFields (r : Register) : Except Fault (List BitField) := do
  return (WordGroup.sortByOffset (← keyed BitField.bitOffset r.fields)).map Prod.snd

end Register

namespace AddressBlock

def base (b : AddressBlock) : Except Fault Nat :=
  require s!"address block {b.name}" "baseAddress" b.baseAddress

/-- The address of a register of the block. -/
def registerAddress (b : AddressBlock) (r : Register) : Except Fault Nat := do
  let base ← b.base
  checkedAdd (.overflow s!"register {r.name}" "address") base (← r.byteOffset)

/-- Memory blocks have addresses and nothing else. -/
def isMemory (b : AddressBlock) : Bool := b.usage == .memory

/-- Registers in ascending order of offset. -/
def sortedRegisters (b : AddressBlock) : Except Fault (List Register) := do
  return (WordGroup.sortByOffset (← keyed Register.byteOffset b.registers)).map Prod.snd

end AddressBlock

namespace WordGroup

/-- Groups of registers that share an access word. -/
def registers (wordBytes : Nat) (rs : List Register) : Except Fault (List (List Register)) := do
  return group wordBytes (← keyed Register.byteOffset rs)

/-- The first bit of a field in the access word of its register. -/
def bitPosition (wordBytes : Nat) (r : Register) (f : BitField) : Except Fault Nat := do
  let shift := (← r.byteOffset) % max wordBytes 1 * 8
  checkedAdd (.overflow s!"field {r.name}.{f.name}" "bit position") (← f.bitOffset) shift

/-- The first and last bit of a field in the access word of its register. A field without bits has
its position twice. -/
def bitRange (wordBytes : Nat) (r : Register) (f : BitField) : Except Fault (Nat × Nat) := do
  let low ← bitPosition wordBytes r f
  let width ← f.bitWidth
  let high ← checkedAdd (.overflow s!"field {r.name}.{f.name}" "bit range") low (width - 1)
  return (low, high)

end WordGroup

end RegAtlas
