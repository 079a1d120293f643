import RegAtlas.Output.Basic

/-!
# C headers

A header with the register addresses, a union for each access word that shows its fields as the
members of a bit-field struct, and an enum for each field with enumerated values.
-/

namespace RegAtlas.CHeader

open Output

/-- A field at its place in an access word. -/
structure Slot where
  field : BitField
  /-- First bit in the word. -/
  position : Nat
  width : Nat
  /-- The register, on its first field. -/
  heading : Option String
  deriving DecidableEq, Repr

/-- A member of a bit-field struct. -/
structure Member where
  /-- The field that the member holds, or nothing for a gap. -/
  field : Option BitField
  name : String
  width : Nat
  heading : Option String
  deriving DecidableEq, Repr

/-- The member that fills a gap. -/
def Member.gap (number width : Nat) : Member :=
  { field := none, name := s!"reserved_{number}", width, heading := none }

def Member.ofSlot (s : Slot) : Member :=
  { field := some s.field
    name := Text.NameCase.snake.convert s.field.name
    width := s.width
    heading := s.heading }

/-- The first bit behind a slot, at most the largest number of 64 bits. -/
def Slot.stop (s : Slot) : Nat := Bounded.addSaturating s.position s.width

/-- The members for slots in order. `next` is the first bit that is not yet taken and `gaps` the
number of gaps filled so far. -/
def membersFrom (wordWidth next gaps : Nat) : List Slot → Except Fault (List Member)
  | [] => do
    if next < wordWidth then return [.gap gaps (← Bounded.sub wordWidth next)] else return []
  | s :: rest => do
    let next' := max next s.stop
    if next < s.position then
      let width ← Bounded.sub s.position next
      return .gap gaps width :: .ofSlot s :: (← membersFrom wordWidth next' (gaps + 1) rest)
    else return .ofSlot s :: (← membersFrom wordWidth next' gaps rest)

/-- The members of the struct for an access word. -/
def members (wordWidth : Nat) (slots : List Slot) : Except Fault (List Member) :=
  membersFrom wordWidth 0 0 slots

/-- The slots of the fields of one register. -/
def registerSlots (wordBytes : Nat) (r : Register) : Except Fault (List Slot) := do
  let fields ← r.sortedFields
  fields.zipIdx.mapM fun (field, i) => do
    return {
      field
      position := ← WordGroup.bitPosition wordBytes r field
      width := ← field.bitWidth
      heading := if i = 0 then some (Text.upperText r.name) else none }

/-- The slots of an access word. -/
def slots (wordBytes : Nat) (group : List Register) : Except Fault (List Slot) := do
  return (← group.mapM (registerSlots wordBytes)).flatten

/-- An enum for the values of a field. -/
structure ValueEnum where
  name : String
  values : List (Nat × String)
  deriving DecidableEq, Repr

/-- The enums of a register, with values in ascending order. -/
def valueEnums (lead : String) (r : Register) : Except Fault (List ValueEnum) := do
  let fields := (← r.sortedFields).filter (! ·.enumValues.isEmpty)
  fields.mapM fun f => do
    let values ← keyed EnumValue.number f.enumValues
    return {
      name := Text.NameCase.snake.convert (withLead lead s!"{r.name}_{f.name}")
      values := (WordGroup.sortByOffset values).map fun (n, e) => (n, Text.shoutingSnake e.name) }

/-- What a header shows of one access word. -/
structure Word where
  group : List Register
  members : List Member
  /-- The width to which the names of the members are padded. -/
  pad : Nat
  enums : List ValueEnum
  deriving DecidableEq, Repr

/-- The content of a header. -/
structure Content where
  map : MemoryMap
  addresses : List (Register × Nat)
  addressPad : Nat
  words : List Word
  deriving DecidableEq, Repr

def word (o : OutputOptions) (group : List Register) : Except Fault Word := do
  let slots ← slots o.wordBytes group
  let members ← members o.wordWidth slots
  -- The struct stands inside of the union, so that its members are two steps in.
  let _ ← Bounded.mul 2 o.style.indent
  let pad ← Bounded.formatWidth (Text.widest (members.map (·.name)))
  let enums ← group.mapM (valueEnums o.lead)
  return { group, members, pad, enums := enums.flatten }

def content (o : OutputOptions) (m : MemoryMap) : Except Fault Content := do
  let addresses ← addresses m
  let addressPad ← addressPad o.lead addresses
  let words ← (registerBlocks m).mapM fun b => do
    (← WordGroup.registers o.wordBytes b.registers).mapM (word o)
  return { map := m, addresses, addressPad, words := words.flatten }

/-- The name of the union for an access word. -/
def unionName (lead : String) (group : List Register) : String :=
  Text.NameCase.snake.convert (withLead lead ("_".intercalate (group.map (·.name))))

def writeMember (wordType : String) (pad : Nat) (w : LineWriter) (m : Member) : LineWriter :=
  let w := match m.heading with
    | some heading => w.comment { text := heading, framed := false, wrapped := false }
    | none => w
  w.line s!"{wordType} {Text.padEnd pad m.name} : {m.width};"

def writeWord (o : OutputOptions) (w : LineWriter) (word : Word) : LineWriter :=
  let wordType := s!"uint{o.wordWidth}_t"
  let name := unionName o.lead word.group
  let w := w.scope ("union " ++ name ++ " \x7b") "\x7d;" fun w =>
    (w.line s!"{wordType} u{o.wordWidth};").scope ("struct " ++ name ++ "_s \x7b") "\x7d s;"
      fun w => word.members.foldl (writeMember wordType word.pad) w
  word.enums.foldl
    (fun w e => (w.scope ("enum " ++ e.name ++ " \x7b") "\x7d;" fun w =>
      w.writeLines (e.values.map fun (n, name) => s!"{name} = {n},")).blank)
    w.blank

def write (o : OutputOptions) (c : Content) : LineWriter :=
  let w := (writeAddressEnum c.map o.lead c.addressPad c.addresses (beginHeader o)).blank
  let w := (w.comment (banner "Register descriptions:")).blank
  (c.words.foldl (writeWord o) w).flushAll

/-- The header for a component. -/
def generate (o : OutputOptions) (c : Component) : Except OutputError String :=
  forMap o c fun m => do (write o (← content o m)).text

end RegAtlas.CHeader
