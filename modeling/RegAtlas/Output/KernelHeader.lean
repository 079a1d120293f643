import RegAtlas.Output.Basic

/-!
# Kernel headers

A header with the register addresses and, for each field, a macro that masks its bits in the access
word.
-/

namespace RegAtlas.KernelHeader

open Output

/-- The mask macro of a field. -/
structure Mask where
  field : BitField
  name : String
  low : Nat
  high : Nat
  deriving DecidableEq, Repr

/-- The masks of an access word. They are named after its first register. -/
structure Word where
  group : List Register
  masks : List Mask
  /-- The width to which the names of the masks are padded. -/
  pad : Nat
  deriving DecidableEq, Repr

/-- What a header shows of one block. -/
structure Region where
  name : String
  words : List Word
  deriving DecidableEq, Repr

/-- The content of a header. -/
structure Content where
  map : MemoryMap
  addresses : List (Register × Nat)
  addressPad : Nat
  regions : List Region
  deriving DecidableEq, Repr

def registerMasks (wordBytes : Nat) (lead : String) (r : Register) : Except Fault (List Mask) := do
  (← r.sortedFields).mapM fun field => do
    let (low, high) ← WordGroup.bitRange wordBytes r field
    return { field, name := s!"{lead}_{Text.shoutingSnake field.name}", low, high }

def wordMasks (wordBytes : Nat) (group : List Register) : Except Fault (List Mask) := do
  let first := (group.head?.map (·.name)).getD ""
  return (← group.mapM (registerMasks wordBytes s!"REG_{Text.shoutingSnake first}")).flatten

def word (wordBytes : Nat) (group : List Register) : Except Fault Word := do
  let masks ← wordMasks wordBytes group
  let pad ← Bounded.formatWidth (Text.widest (masks.map (·.name)))
  return { group, masks, pad }

def region (o : OutputOptions) (b : AddressBlock) : Except Fault Region := do
  let groups ← WordGroup.registers o.wordBytes b.registers
  return { name := b.name, words := ← groups.mapM (word o.wordBytes) }

def content (o : OutputOptions) (m : MemoryMap) : Except Fault Content := do
  let addresses ← addresses m
  let addressPad ← addressPad o.lead addresses
  let regions ← (registerBlocks m).mapM (region o)
  return { map := m, addresses, addressPad, regions }

def Mask.render (m : Mask) : String :=
  if m.high = m.low then s!"BIT({m.low})" else s!"GENMASK({m.high}, {m.low})"

def writeWord (w : LineWriter) (word : Word) : LineWriter :=
  let names := " ".intercalate (word.group.map fun r => Text.upperText r.name)
  let noun := if 1 < word.group.length then "registers" else "register"
  ((w.comment (banner s!"{names} {noun}")).writeLines (word.masks.map fun m =>
    s!"#define {Text.padEnd word.pad m.name} {m.render}")).blank

def writeRegion (w : LineWriter) (r : Region) : LineWriter :=
  r.words.foldl writeWord (w.comment (banner s!"{r.name} memory region")).blank

def write (o : OutputOptions) (c : Content) : LineWriter :=
  let w := ((beginHeader o).line "#include <linux/bits.h>").blank
  let w := (writeAddressEnum c.map o.lead c.addressPad c.addresses w).blank
  (c.regions.foldl writeRegion w).flushAll

/-- The header for a component. -/
def generate (o : OutputOptions) (c : Component) : Except OutputError String :=
  forMap o c fun m => do (write o (← content o m)).text

end RegAtlas.KernelHeader
