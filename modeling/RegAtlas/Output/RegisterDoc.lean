import RegAtlas.Output.Basic
import RegAtlas.Output.Latex

/-!
# Register documentation

LaTeX documentation of a memory map: a table of its blocks, for each block a table that shows which
register takes which byte of an access word, and for each register its properties, a table of bits
for every byte, and its fields.
-/

namespace RegAtlas.RegisterDoc

open Output Latex

/-- What goes into the document. -/
structure DocOptions where
  /-- The table of blocks. -/
  regions : Bool := true
  /-- Bit tables and field descriptions. -/
  fields : Bool := true
  /-- Values of the parameters that decide which conditional registers exist. Without it all
  registers are documented, the conditional ones with a remark. -/
  presence : Option (List (String × Bool)) := none
  deriving DecidableEq, Inhabited, Repr

/-- Whether a register exists. -/
inductive Presence where
  | always
  | never
  /-- It exists if the parameter is true. -/
  | whenTrue (parameter : String)
  deriving DecidableEq, Repr

def presence (doc : DocOptions) (c : Component) (r : Register) : Presence :=
  match r.isPresent with
  | none => .always
  | some guard =>
    let parameter := guard.target.bind fun id => c.parameters.find? (·.id == id)
    let decided : Option Bool → Presence := fun flag =>
      if flag = some false then .never else .always
    match parameter, doc.presence with
    | some p, none => .whenTrue p.name
    | some p, some values =>
      decided (((values.lookup p.name).or (values.lookup p.key)).or guard.flag?)
    | none, _ => decided guard.flag?

/-- The name shown for a node. -/
def title (l : Label) : String := l.displayName.getD l.name

/-! ### Blocks and their words -/

/-- The table of blocks. -/
def regionTable (m : MemoryMap) : Except Fault Table := do
  let rows ← m.blocks.mapM fun b => do
    return [Cell.plain (escape (title b.toLabel)), .plain ("0x" ++ Text.hexUpper 3 (← b.base))]
  return {
    columns := ["p\x7b5cm\x7d", "p\x7b4cm\x7d"]
    rows := [.plain (bold "Memory region"), .plain (bold "Address offset")] :: rows }

/-- An access word with the names of the registers in its bytes, lowest byte first. -/
structure WordRow where
  /-- Number of the word in the block. -/
  word : Nat
  address : Nat
  bytes : List (Option String)
  deriving DecidableEq, Repr

/-- Number of bytes of a register, at least one. -/
def byteSize (bits : Nat) : Except Fault Nat := do return max (← Bounded.divCeil bits 8) 1

/-- Writes a name into the bytes from `first` on. Bytes past the end of the word are dropped. -/
def WordRow.fill (wordBytes first size : Nat) (name : String) (row : WordRow) :
    Except Fault WordRow := do
  let stop := min (Bounded.addSaturating first size) wordBytes
  let bytes ← (List.range' first (stop - first)).foldlM
    (fun bytes i => Bounded.set bytes i (some name)) row.bytes
  return { row with bytes }

/-- Changes the row of a word, which is the fresh one if there is none. Rows are in ascending
order. -/
def updateRow (word : Nat) (fresh : Except Fault WordRow)
    (change : WordRow → Except Fault WordRow) : List WordRow → Except Fault (List WordRow)
  | [] => do return [← change (← fresh)]
  | row :: rows => do
    if word < row.word then return (← change (← fresh)) :: row :: rows
    else if word = row.word then return (← change row) :: rows
    else return row :: (← updateRow word fresh change rows)

/-- The row of a word without registers, from the address of its byte `first`. -/
def freshRow (wordBytes word first address : Nat) : Except Fault WordRow := do
  return { word, address := ← Bounded.sub address first, bytes := List.replicate wordBytes none }

/-- Adds a register to the rows. -/
def addRegister (wordBytes : Nat) (b : AddressBlock) (rows : List WordRow) (r : Register) :
    Except Fault (List WordRow) := do
  let offset ← r.byteOffset
  let address ← b.registerAddress r
  let size ← byteSize (← r.bitSize)
  let first := offset % wordBytes
  let word := offset / wordBytes
  let fresh := freshRow wordBytes word first address
  updateRow word fresh (WordRow.fill wordBytes first size r.name) rows

/-- The access words of a block that hold the first byte of a register. -/
def wordRows (wordBytes : Nat) (b : AddressBlock) (rs : List Register) :
    Except Fault (List WordRow) :=
  rs.foldlM (addRegister wordBytes b) []

/-- The cells of a word, highest byte first. -/
def WordRow.cells (row : WordRow) : List Cell :=
  merge (row.bytes.reverse.map fun b => (b.map escape).getD "") ++
    [.plain ("0x" ++ Text.hexUpper 3 row.address)]

/-- The row that stands for words without registers. -/
def reservedRow (wordBytes : Nat) : List Cell :=
  [.spanning wordBytes "|c|" "Reserved", .plain "\\dots"]

/-- Table rows for words. `next` is the word expected next. -/
def wordCells (wordBytes next : Nat) : List WordRow → Except Fault (List (List Cell))
  | [] => return []
  | row :: rows => do
    let rest ← wordCells wordBytes (← Bounded.add row.word 1) rows
    return (if next < row.word then [reservedRow wordBytes] else []) ++ row.cells :: rest

/-- The head of the column of a byte. -/
def byteHead (byte : Nat) : Except Fault Cell := do
  let high ← Bounded.add (← Bounded.mul byte 8) 7
  let low ← Bounded.mul byte 8
  return .plain (bold s!"Bits [{high}:{low}]")

def wordTable (wordBytes : Nat) (rows : List WordRow) : Except Fault Table := do
  let columns ← Bounded.add wordBytes 1
  let header ← (List.range wordBytes).reverse.mapM byteHead
  let words ← wordCells wordBytes 0 rows
  return {
    columns := List.replicate columns "c"
    rows := (header ++ [.plain (bold "Address offset")]) :: words }

/-! ### Bits of a register -/

/-- A field with its first and last bit in the register. -/
structure Span where
  low : Nat
  high : Nat
  field : BitField
  deriving DecidableEq, Repr

/-- The fields of a register in ascending order. -/
def spans (r : Register) : Except Fault (List Span) := do
  (← r.sortedFields).mapM fun field => do
    let low ← field.bitOffset
    let width ← field.bitWidth
    return { low, high := min (low + (width - 1)) (Literal.bound - 1), field }

/-- One bit of a register as a table shows it. -/
structure BitCell where
  bit : Nat
  name : String
  reset : String
  deriving DecidableEq, Repr

/-- The name of a field in a byte, with the bits of the field that the byte holds unless it holds
them all. -/
def Span.nameIn (s : Span) (byteLow byteHigh : Nat) : Except Fault String := do
  let name := if s.field.isReserved then "Reserved" else escape s.field.name
  if byteLow ≤ s.low ∧ s.high ≤ byteHigh then return name
  else
    let first ← Bounded.sub (max s.low byteLow) s.low
    let last ← Bounded.sub (min s.high byteHigh) s.low
    return if first = last then s!"{name}[{last}]" else s!"{name}[{last}:{first}]"

/-- A bit of the reset value of a field. -/
def resetBit (f : BitField) (bit : Nat) : String :=
  match f.resetNumber? with
  | some n => toString ((n >>> bit) % 2)
  | none => "X"

def bitCell (fields : List Span) (byteLow byteHigh bit : Nat) : Except Fault BitCell :=
  match fields.find? fun s => s.low ≤ bit && bit ≤ s.high with
  | some s => do
    let name ← s.nameIn byteLow byteHigh
    return { bit, name, reset := resetBit s.field (← Bounded.sub bit s.low) }
  | none => return { bit, name := "Reserved", reset := "-" }

/-- The bits of one byte, highest first. -/
def byteCells (fields : List Span) (size byte : Nat) : Except Fault (List BitCell) := do
  let low ← Bounded.mul byte 8
  let high := min (← Bounded.add low 7) (size - 1)
  (List.range' low (high + 1 - low)).reverse.mapM (bitCell fields low high)

/-- The bits of a register byte by byte, highest byte first. -/
def bitCells (r : Register) : Except Fault (List (List BitCell)) := do
  let size ← r.bitSize
  let fields ← spans r
  (List.range (← Bounded.divCeil size 8)).reverse.mapM (byteCells fields size)

/-- The table of one byte. -/
def bitTable (cells : List BitCell) : Table :=
  { columns := "p\x7b2cm\x7d" :: List.replicate cells.length "c"
    rows := [
      .plain (grey "Bit index") :: cells.map fun c => .plain (grey (toString c.bit)),
      .plain "Field name" :: merge (cells.map (·.name)),
      .plain "Reset value" :: cells.map fun c => .plain c.reset] }

/-! ### Registers and fields -/

/-- The access of a register, or the one that all its fields with an access have. -/
def registerAccess (r : Register) : String :=
  match Keyword.keyword? r.access with
  | some access => access
  | none => match (r.fields.filterMap fun f => Keyword.keyword? f.access).eraseDups with
    | [] => "-"
    | [access] => access
    | _ => "mixed"

/-- The line of an enumerated value. -/
def valueLine (width n : Nat) (e : EnumValue) : String :=
  let remark := match e.description with
    | some text => " - " ++ escape text
    | none => ""
  "\\newline 0b" ++ Text.digits 2 width n ++ " - " ++ escape e.name ++ remark

/-- The lines that describe a field. -/
def fieldLines (f : BitField) : Except Fault (List String) := do
  let description := (f.description.map escape).getD ""
  let width := min (max (← f.bitWidth) 1) 64
  let values := WordGroup.sortByOffset (← keyed EnumValue.number f.enumValues)
  return Text.trimEnd ("\\item[" ++ escape f.name ++ "] " ++ description) ::
    values.map fun (n, e) => valueLine width n e

/-- The lines that describe the fields of a register, if there are any to describe. -/
def descriptionLines (r : Register) : Except Fault (List String) := do
  let fields := (← r.sortedFields).filter (! ·.isReserved)
  return (← fields.mapM fieldLines).flatten

/-- The lines of the properties of a register. -/
def propertyLines (b : AddressBlock) (r : Register) (p : Presence) :
    Except Fault (List String) := do
  let size ← byteSize (← r.bitSize)
  let address ← b.registerAddress r
  let plural := if size = 1 then "" else "s"
  let remark := match p with
    | .whenTrue parameter => ["\\item[Note:] Register is present only when " ++ escape parameter ++
        " = true. Otherwise this address is reserved."]
    | _ => []
  return [s!"\\item[Type:] {registerAccess r}", "\\item[Address:] 0x" ++ Text.hexUpper 1 address,
    s!"\\item[Size:] {size} byte{plural}"] ++ remark

/-- A heading with its label, and the description of a node. -/
def writeHeading (level heading : String) (l : Label) (w : LineWriter) : LineWriter :=
  let w := w.line (command level (escape heading) ++ command "label" l.name)
  match l.description with
  | some text => w.line (escape text)
  | none => w

/-- Lines in a list of descriptions. -/
def writeItems (lines : List String) (w : LineWriter) : LineWriter :=
  w.scope (command "begin" "description") (command "end" "description") (·.writeLines lines)

/-! ### The document -/

/-- What the document says of a register. -/
structure RegisterPart where
  register : Register
  properties : List String
  bits : List (List BitCell)
  fields : List String
  deriving DecidableEq, Repr

def registerPart (doc : DocOptions) (b : AddressBlock) (r : Register) (p : Presence) :
    Except Fault RegisterPart := do
  let properties ← propertyLines b r p
  if doc.fields then
    return { register := r, properties, bits := ← bitCells r, fields := ← descriptionLines r }
  else return { register := r, properties, bits := [], fields := [] }

/-- What the document says of a block. -/
structure BlockPart where
  block : AddressBlock
  words : Table
  registers : List RegisterPart
  deriving DecidableEq, Repr

/-- The registers of a block that exist, with the reason. -/
def presentRegisters (doc : DocOptions) (c : Component) (b : AddressBlock) :
    Except Fault (List (Register × Presence)) := do
  return ((← b.sortedRegisters).map fun r => (r, presence doc c r)).filter
    fun (_, p) => p ≠ .never

def blockPart (o : OutputOptions) (doc : DocOptions) (c : Component) (b : AddressBlock) :
    Except Fault BlockPart := do
  let registers ← presentRegisters doc c b
  let words ← wordTable o.wordBytes (← wordRows o.wordBytes b (registers.map Prod.fst))
  let described := if b.isMemory then [] else registers
  return { block := b, words, registers := ← described.mapM fun (r, p) => registerPart doc b r p }

/-- The content of a document. -/
structure Content where
  map : MemoryMap
  regions : Option Table
  blocks : List BlockPart
  deriving DecidableEq, Repr

def content (o : OutputOptions) (doc : DocOptions) (c : Component) (m : MemoryMap) :
    Except Fault Content := do
  let regions ← if doc.regions then some <$> regionTable m else pure none
  return { map := m, regions, blocks := ← m.blocks.mapM (blockPart o doc c) }

def writeRegister (w : LineWriter) (p : RegisterPart) : LineWriter :=
  let r := p.register
  let w := w.line (command "subsection" (escape r.name) ++ command "label" r.name)
  let w := writeItems p.properties w
  let w := match r.description with
    | some text => w.line (escape text)
    | none => w
  let w := p.bits.foldl (fun w cells => ((bitTable cells).write w).blank) w.blank
  if p.fields.isEmpty then w else (writeItems p.fields w).blank

def writeBlock (w : LineWriter) (p : BlockPart) : LineWriter :=
  let w := (writeHeading "section" (title p.block.toLabel) p.block.toLabel w).blank
  p.registers.foldl writeRegister (p.words.write w).blank

def write (o : OutputOptions) (c : Content) : LineWriter :=
  let w := (writeHeading "chapter" (title c.map.toLabel) c.map.toLabel (beginText o '%')).blank
  let w := match c.regions with
    | some table => (table.write (w.comment (note "Memory regions"))).blank
    | none => w
  c.blocks.foldl writeBlock w

/-- The document for a component. -/
def generate (o : OutputOptions) (doc : DocOptions) (c : Component) :
    Except OutputError String :=
  forMap o c fun m => do (write o (← content o doc c m)).text

end RegAtlas.RegisterDoc
