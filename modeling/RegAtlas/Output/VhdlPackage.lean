import RegAtlas.Output.Basic

/-!
# VHDL packages

A package of constants: register addresses, the bits of every field in its access word, enumerated
values and reset values.
-/

namespace RegAtlas.VhdlPackage

open Output

/-- A constant of the package. -/
structure Constant where
  name : String
  type : String
  value : String
  deriving DecidableEq, Repr

def Constant.render (c : Constant) : String :=
  s!"constant {Text.padEnd 28 c.name} : {c.type} := {c.value};"

/-- The type of a vector of bits. -/
def vectorType (width : Nat) : String := s!"std_logic_vector({width - 1} downto 0)"

/-- A vector literal in hexadecimal digits. -/
def hexLiteral (nibbles n : Nat) : String := "x\"" ++ Text.hexUpper nibbles n ++ "\""

/-- A constant of so many bits. Whole nibbles are written in hexadecimal digits, other widths in
binary digits, and one bit as a character. -/
def bitsConstant (name : String) (width n : Nat) : Except Fault Constant := do
  if width ≤ 1 then
    return { name, type := "std_logic", value := "'" ++ toString (n % 2) ++ "'" }
  else if width % 4 = 0 then
    let nibbles ← Bounded.formatWidth (width / 4)
    return { name, type := vectorType width, value := hexLiteral nibbles n }
  else
    let digits ← Bounded.formatWidth width
    return { name, type := vectorType width, value := "\"" ++ Text.digits 2 digits n ++ "\"" }

/-- Number of binary digits of a number; zero has none. -/
def bitLength (n : Nat) : Nat := if n = 0 then 0 else n.log2 + 1

/-- The least number of bits of an address constant. -/
def minAddressBits : Nat := 12

/-- The width of address constants: whole nibbles that hold the highest address. -/
def addressBits (m : MemoryMap) : Except Fault Nat := do
  let all ← m.blocks.mapM fun b => b.registers.mapM b.registerAddress
  let needed := bitLength (all.flatten.foldl max 0)
  return (max needed minAddressBits + 3) / 4 * 4

def addressConstant (bits : Nat) (r : Register) (address : Nat) : Except Fault Constant := do
  let nibbles ← Bounded.formatWidth (bits / 4)
  return {
    name := s!"{Text.shoutingSnake r.name}_ADR"
    type := vectorType bits
    value := hexLiteral nibbles address }

/-- A field with its bits in the access word. -/
structure FieldRange where
  field : BitField
  low : Nat
  high : Nat
  deriving DecidableEq, Repr

def indexConstant (name : String) (n : Nat) : Constant :=
  { name, type := "natural", value := toString n }

/-- One constant for a field of one bit, otherwise its lowest and highest bit. -/
def FieldRange.constants (r : FieldRange) : List Constant :=
  let name := Text.shoutingSnake r.field.name
  if r.high = r.low then [indexConstant s!"{name}_IND" r.low]
  else [indexConstant s!"{name}_L" r.low, indexConstant s!"{name}_H" r.high]

/-- The enumerated values of a field. -/
structure FieldValues where
  field : BitField
  constants : List Constant
  deriving DecidableEq, Repr

/-- What the package shows of one register. -/
structure RegisterPart where
  register : Register
  ranges : List FieldRange
  values : List FieldValues
  resets : List Constant
  deriving DecidableEq, Repr

def fieldRange (wordBytes : Nat) (r : Register) (field : BitField) : Except Fault FieldRange := do
  let (low, high) ← WordGroup.bitRange wordBytes r field
  return { field, low, high }

def fieldValues (field : BitField) : Except Fault FieldValues := do
  let width ← field.bitWidth
  let constants ← field.enumValues.mapM fun e => do
    bitsConstant (Text.shoutingSnake e.name) width (← e.number)
  return { field, constants }

/-- The constant of the reset value of a field that has one. -/
def resetConstant? (field : BitField) : Except Fault (Option Constant) :=
  match field.resetNumber? with
  | none => return none
  | some n => do
    some <$> bitsConstant s!"{Text.shoutingSnake field.name}_RSTVAL" (← field.bitWidth) n

def registerPart (wordBytes : Nat) (r : Register) : Except Fault RegisterPart := do
  let fields ← r.sortedFields
  return {
    register := r
    ranges := ← fields.mapM (fieldRange wordBytes r)
    values := ← fields.mapM fieldValues
    resets := (← fields.mapM resetConstant?).filterMap id }

/-- What the package shows of one block. -/
structure BlockPart where
  name : String
  registers : List RegisterPart
  deriving DecidableEq, Repr

/-- The content of a package. -/
structure Content where
  map : MemoryMap
  addresses : List Constant
  blocks : List BlockPart
  deriving DecidableEq, Repr

def addressConstants (m : MemoryMap) : Except Fault (List Constant) := do
  let bits ← addressBits m
  (← addresses m).mapM fun (r, address) => addressConstant bits r address

def blockPart (wordBytes : Nat) (b : AddressBlock) : Except Fault BlockPart := do
  return { name := b.name, registers := ← (← b.sortedRegisters).mapM (registerPart wordBytes) }

def content (o : OutputOptions) (m : MemoryMap) : Except Fault Content := do
  return {
    map := m
    addresses := ← addressConstants m
    blocks := ← (registerBlocks m).mapM (blockPart o.wordBytes) }

def writeConstants (cs : List Constant) (w : LineWriter) : LineWriter :=
  w.writeLines (cs.map Constant.render)

def writeValues (w : LineWriter) (v : FieldValues) : LineWriter :=
  let w :=
    if v.field.enumValues.isEmpty then w
    else w.blank.comment (note ("\"" ++ v.field.name ++ "\" field enumerated values"))
  writeConstants v.constants w

def writeRegister (w : LineWriter) (p : RegisterPart) : LineWriter :=
  let name := Text.upperText p.register.name
  let w := w.comment (note s!"{name} register")
  let w := writeConstants (p.ranges.flatMap FieldRange.constants) w
  let w := p.values.foldl writeValues w
  let w :=
    if p.resets.isEmpty then w else w.blank.comment (note s!"{name} register reset values")
  (writeConstants p.resets w).blank

def writeBlock (w : LineWriter) (b : BlockPart) : LineWriter :=
  b.registers.foldl writeRegister (w.comment (banner s!"{b.name} block")).blank

def write (o : OutputOptions) (c : Content) : LineWriter :=
  let name := Text.NameCase.snake.convert (withLead o.lead o.name)
  let w := (((beginText o '-').line "library ieee;").line "use ieee.std_logic_1164.all;").blank
  let w := ((w.line s!"package {name} is").defer "end package;").blank.indent
  let w := w.comment (note s!"{c.map.name} memory map addresses")
  let w := (writeConstants c.addresses w).blank
  (c.blocks.foldl writeBlock w).dedent.flushAll

/-- The package for a component. -/
def generate (o : OutputOptions) (c : Component) : Except OutputError String :=
  forMap o c fun m => do (write o (← content o m)).text

end RegAtlas.VhdlPackage
