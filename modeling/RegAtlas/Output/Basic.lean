import RegAtlas.Component.Layout
import RegAtlas.LineWriter
import RegAtlas.Text.NameCase

/-!
# Generated texts

What the texts generated for a memory map have in common.
-/

namespace RegAtlas

/-- Options of a generated text. -/
structure OutputOptions where
  /-- Name of the header or package. -/
  name : String
  /-- Begins identifiers, may be empty. -/
  lead : String := ""
  /-- Access word in bits. -/
  wordWidth : Nat := 32
  /-- The memory map, the first one when absent. -/
  memoryMap : Option String := none
  /-- License text for the top of the text. -/
  license : Option String := none
  style : Style := {}
  deriving Inhabited, Repr

/-- Access word in bytes. -/
def OutputOptions.wordBytes (o : OutputOptions) : Nat := max (o.wordWidth / 8) 1

/-- Why a text cannot be generated. -/
inductive OutputError where
  | noSuchMap (name component : String)
  | noMaps (component : String)
  | fault (f : Fault)
  deriving DecidableEq, Repr

def OutputError.message : OutputError → String
  | .noSuchMap name component => s!"Memory map '{name}' not found in {component}"
  | .noMaps component => s!"Component {component} has no memory map"
  | .fault f => f.message

namespace Output

/-- The memory map that the options name. -/
def selectMap (o : OutputOptions) (c : Component) : Except OutputError MemoryMap :=
  match c.memoryMap? o.memoryMap, o.memoryMap with
  | some m, _ => .ok m
  | none, some name => .error (.noSuchMap name c.name)
  | none, none => .error (.noMaps c.name)

/-- A computation of a text from the selected memory map. -/
def forMap {α : Type} (o : OutputOptions) (c : Component)
    (compute : MemoryMap → Except Fault α) : Except OutputError α := do
  (compute (← selectMap o c)).mapError .fault

/-- A name behind the lead, or alone if there is no lead. -/
def withLead (lead name : String) : String := if lead.isEmpty then name else s!"{lead}_{name}"

/-- The macro that guards a header. -/
def guardName (o : OutputOptions) : String :=
  let name := Text.shoutingSnake (withLead o.lead o.name)
  s!"__{name}__"

/-- A comment without frame, filled into lines. -/
def note (text : String) : LineWriter.Comment := { text, framed := false }

/-- A comment between rules. -/
def banner (text : String) : LineWriter.Comment := { text }

/-- The license and the note that the text is generated. -/
def preamble (license : Option String) (w : LineWriter) : LineWriter :=
  let w := match license with
    | some text => (w.commentLines text).blank
    | none => w
  (w.comment (note "This file is autogenerated, DO NOT EDIT!")).blank

/-- An empty text with the preamble, for a comment character. -/
def beginText (o : OutputOptions) (commentChar : Char) : LineWriter :=
  preamble o.license { style := o.style.withCommentChar commentChar }

/-- The beginning of a header; its end is deferred. -/
def beginHeader (o : OutputOptions) : LineWriter :=
  let name := guardName o
  ((((beginText o '/').line s!"#ifndef {name}").line s!"#define {name}").defer
    s!"#endif /* {name} */").blank

/-- Blocks whose registers are described. -/
def registerBlocks (m : MemoryMap) : List AddressBlock := m.blocks.filter (! ·.isMemory)

/-! ### Register addresses -/

/-- The addresses of all registers of a memory map, block by block and ascending in a block. -/
def addresses (m : MemoryMap) : Except Fault (List (Register × Nat)) := do
  let blocks ← m.blocks.mapM fun b => do
    (← b.sortedRegisters).mapM fun r => do return (r, ← b.registerAddress r)
  return blocks.flatten

/-- The enumerator of the address of a register. -/
def addressName (lead : String) (r : Register) : String := Text.shoutingSnake (withLead lead r.name)

/-- The width to which the enumerators of addresses are padded. -/
def addressPad (lead : String) (entries : List (Register × Nat)) : Except Fault Nat :=
  Bounded.formatWidth (Text.widest (entries.map fun (r, _) => addressName lead r))

/-- The address enum of a header. -/
def writeAddressEnum (m : MemoryMap) (lead : String) (pad : Nat) (entries : List (Register × Nat))
    (w : LineWriter) : LineWriter :=
  let enumName := Text.NameCase.snake.convert (withLead lead m.name)
  (w.comment (note s!"{m.name} memory map")).scope ("enum " ++ enumName ++ " \x7b") "\x7d;"
    fun w => w.writeLines (entries.map fun (r, address) =>
      Text.padEnd pad (addressName lead r) ++ " = 0x" ++ Text.digits 16 4 address ++ ",")

end Output

end RegAtlas
