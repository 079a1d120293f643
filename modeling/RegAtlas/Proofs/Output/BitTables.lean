import Mathlib.Tactic.Ring
import RegAtlas.Proofs.Output.BitCells
import RegAtlas.Proofs.Output.TableRows
import RegAtlas.Proofs.Output.TableTexts

/-!
# Tables of bits

The tables of a register whose fields share no bit, read from top to bottom and from left to right:
they show every bit of the register once, in descending order, with the field that holds it and its
reset. The resets of a field read as its reset value, and the parts of a field that the tables of
several bytes show make up the field. The lines that are written for the register show these tables.
-/

namespace RegAtlas.RegisterDoc

open Latex
open Text (trim)

variable {r : Register} {size byte bit : Nat} {f : BitField}

/-! ### Parts of a field -/

/-- Bits of a field that stand together. -/
structure Slice where
  high : Nat
  low : Nat
  low_le_high : low ≤ high

namespace Slice

/-- The bits, highest first. -/
def bits (s : Slice) : List Nat := (List.range' s.low (s.high + 1 - s.low)).reverse

/-- The slice as it stands behind the name of the field. -/
def text (s : Slice) : String := sliceText s.high s.low

end Slice

/-- The bits of a field that cells show, counted from the start of the field. -/
def held (f : BitField) (cells : List BitCell) : List Nat :=
  ((cells.map (·.bit)).filter (f.Holds ·)).map (· - f.start)

/-- A table that holds all bits of a field shows its name, one that holds some of them shows behind
the name which ones. -/
def Names (f : BitField) (bits : List Nat) (name : String) : Prop :=
  if bits.length = f.count then name = shownName f
  else ∃ s : Slice, s.bits = bits ∧ name = shownName f ++ s.text

/-- The bits of a field among those from `low` to `high`. -/
def part (f : BitField) (low high : Nat) {bit : Nat} (hholds : f.Holds bit)
    (hbit : low ≤ bit ∧ bit ≤ high) : Slice where
  high := min (f.start + (f.count - 1)) high - f.start
  low := max f.start low - f.start
  low_le_high := by
    obtain ⟨hstart, hend⟩ := hholds
    omega

theorem bits_part {low high : Nat} (hholds : f.Holds bit) (hbit : low ≤ bit ∧ bit ≤ high) :
    (part f low high hholds hbit).bits = (List.range' (max low f.start - f.start)
      (min (high + 1) (f.start + f.count) - max low f.start)).reverse := by
  obtain ⟨hstart, hend⟩ := hholds
  have hlast : min (high + 1) (f.start + f.count) = min (f.start + (f.count - 1)) high + 1 := by
    omega
  have hfirst : f.start ≤ max f.start low := Nat.le_max_left _ _
  have hle : max f.start low ≤ min (f.start + (f.count - 1)) high := by omega
  simp only [Slice.bits, part]
  rw [hlast, Nat.max_comm low]
  congr 2
  omega

/-- The name of a field in a byte that holds a bit of it. The last bit of the field may be too large
for 64 bits, the last bit of the byte is not. -/
theorem shownIn_spanOf {low high : Nat} (hhigh : high + 1 < Literal.bound) (hholds : f.Holds bit)
    (hbit : low ≤ bit ∧ bit ≤ high) : (spanOf f).shownIn low high =
      if low ≤ f.start ∧ f.start + (f.count - 1) ≤ high then shownName f
      else shownName f ++ (part f low high hholds hbit).text := by
  have hin : (spanOf f).high ≤ high ↔ f.start + (f.count - 1) ≤ high := by
    simp only [spanOf]
    omega
  have hmin : min (spanOf f).high high = min (f.start + (f.count - 1)) high := by
    simp only [spanOf]
    omega
  by_cases hall : low ≤ f.start ∧ f.start + (f.count - 1) ≤ high
  · rw [if_pos hall]
    exact if_pos ⟨hall.1, hin.2 hall.2⟩
  · rw [if_neg hall]
    refine (if_neg fun h => hall ⟨h.1, hin.1 h.2⟩).trans ?_
    rw [hmin]
    rfl

/-- The bits of a field in a byte are a part of the field. -/
theorem held_cellsOf (fields : List Span) (hbyte : byte * 8 ≤ lastBit size byte + 1) :
    held f (cellsOf fields size byte) = (List.range' (max (byte * 8) f.start - f.start)
      (min (lastBit size byte + 1) (f.start + f.count) - max (byte * 8) f.start)).reverse := by
  rw [held, map_bit_cellsOf, List.filter_reverse, List.map_reverse, byteBits,
    filter_holds_range', Nat.add_sub_cancel' hbyte, List.map_sub_range' (Nat.le_max_right _ _)]

/-- The name of a field in a table tells which of its bits the table holds. -/
theorem names_shownIn (hsize : size < Literal.bound) (hholds : f.Holds bit)
    (hbit : bit ∈ byteBits size byte) (fields : List Span) :
    Names f (held f (cellsOf fields size byte))
      ((spanOf f).shownIn (byte * 8) (lastBit size byte)) := by
  have hbit := mem_byteBits.1 hbit
  have hlast : lastBit size byte + 1 < Literal.bound := by
    have hle : lastBit size byte ≤ size - 1 := Nat.min_le_right _ _
    have hone : 1 < Literal.bound := by decide
    omega
  obtain ⟨hstart, hend⟩ := hholds
  rw [Names, held_cellsOf _ (by omega), shownIn_spanOf hlast ⟨hstart, hend⟩ hbit,
    List.length_reverse, List.length_range']
  by_cases hall : byte * 8 ≤ f.start ∧ f.start + (f.count - 1) ≤ lastBit size byte
  · rw [if_pos hall, if_pos (by omega)]
  · rw [if_neg hall, if_neg (by omega)]
    exact ⟨_, bits_part ⟨hstart, hend⟩ hbit, rfl⟩

/-- All bits of a field inside the register are shown, the highest first. -/
theorem held_flatten (r : Register) (hin : f.start + f.count ≤ size) :
    held f (tablesOf r size).flatten = (List.range f.count).reverse := by
  have hcount : min (0 + size) (f.start + f.count) - max 0 f.start = f.count := by omega
  have hstart : max 0 f.start - f.start = 0 := by omega
  rw [held, map_bit_flatten, List.filter_reverse, List.map_reverse, List.range_eq_range',
    filter_holds_range', List.map_sub_range' (Nat.le_max_right _ _), hcount, hstart,
    List.range_eq_range']

theorem flatMap_held (f : BitField) (tables : List (List BitCell)) :
    tables.flatMap (held f) = held f tables.flatten := by
  rw [held, List.map_flatten, List.filter_flatten, List.map_flatten, List.map_map, List.map_map,
    List.flatMap_def]
  rfl

theorem held_eq (f : BitField) (cells : List BitCell) : held f cells =
    (cells.filter fun c => f.Holds c.bit).map fun c => c.bit - f.start := by
  rw [held, List.filter_map, List.map_map]
  rfl

/-! ### Reset values -/

/-- A number with one more binary digit. -/
def pushBit (n : Nat) (digit : String) : Option Nat :=
  if digit = "0" then some (2 * n) else if digit = "1" then some (2 * n + 1) else none

/-- The number with the given binary digits, the highest first. -/
def readBits (digits : List String) : Option Nat := digits.foldlM pushBit 0

theorem foldlM_pushBit {n : Nat} (h : f.resetNumber? = some n) (acc count : Nat) :
    ((List.range count).reverse.map (shownReset f)).foldlM pushBit acc =
      some (acc * 2 ^ count + n % 2 ^ count) := by
  induction count generalizing acc with
  | zero => simp [Nat.mod_one]
  | succ count ih =>
    have hpush : pushBit acc (shownReset f count) =
        some (2 * acc + (n.testBit count).toNat) := by
      simp only [shownReset, h]
      cases n.testBit count <;> rfl
    have hsum : (2 * acc + (n.testBit count).toNat) * 2 ^ count + n % 2 ^ count =
        acc * 2 ^ (count + 1) + n % 2 ^ (count + 1) := by
      rw [Nat.mod_pow_succ, Nat.toNat_testBit]
      ring
    rw [List.range_succ, List.reverse_concat, List.map_cons, List.foldlM_cons, hpush]
    exact (ih _).trans (congrArg some hsum)

/-! ### The tables of a register -/

/-- What the tables of a register show, from top to bottom and from left to right. -/
structure BitsShown (r : Register) (size : Nat) (tables : List (List BitCell)) : Prop where
  bits : tables.flatten.map (·.bit) = (List.range size).reverse
  outside : ∀ c ∈ tables.flatten, (∀ f ∈ r.fields, ¬f.Holds c.bit) →
    c.name = "Reserved" ∧ c.reset = "-"
  inside : ∀ cells ∈ tables, ∀ c ∈ cells, ∀ f ∈ r.fields, f.Holds c.bit →
    Names f (held f cells) c.name ∧ c.reset = shownReset f (c.bit - f.start)
  resets : ∀ f ∈ r.fields, f.start + f.count ≤ size → ∀ n, f.resetNumber? = some n →
    readBits ((tables.flatten.filter fun c => f.Holds c.bit).map (·.reset)) =
      some (n % 2 ^ f.count)
  slices : ∀ f ∈ r.fields, f.start + f.count ≤ size →
    f.start / 8 ≠ (f.start + f.count - 1) / 8 → ∃ slices : List Slice,
      List.Forall₂ (fun cells s => ∀ c ∈ cells, f.Holds c.bit → c.name = shownName f ++ s.text)
        (tables.filter (·.any fun c => f.Holds c.bit)) slices ∧
      slices.flatMap Slice.bits = (List.range f.count).reverse

theorem reset_of_holds (h : r.FieldsApart) (hsize : size < Literal.bound) (hf : f ∈ r.fields)
    {c : BitCell} (hc : c ∈ (tablesOf r size).flatten) (hholds : f.Holds c.bit) :
    c.reset = shownReset f (c.bit - f.start) := by
  obtain ⟨cells, hcells, hc⟩ := List.mem_flatten.1 hc
  obtain ⟨byte, hbyte, rfl⟩ := mem_tablesOf.1 hcells
  exact (eq_of_mem_cellsOf h hsize hbyte hf hc hholds).2.2

/-- The resets of a field inside the register, read as a number. -/
theorem readBits_resets (h : r.FieldsApart) (hsize : size < Literal.bound) (hf : f ∈ r.fields)
    (hin : f.start + f.count ≤ size) {n : Nat} (hn : f.resetNumber? = some n) :
    readBits (((tablesOf r size).flatten.filter fun c => f.Holds c.bit).map (·.reset)) =
      some (n % 2 ^ f.count) := by
  have hresets : ((tablesOf r size).flatten.filter fun c => f.Holds c.bit).map (·.reset) =
      (List.range f.count).reverse.map (shownReset f) := by
    rw [← held_flatten r hin, held_eq, List.map_map]
    refine List.map_congr_left fun c hc => ?_
    obtain ⟨hmem, hholds⟩ := List.mem_filter.1 hc
    exact reset_of_holds h hsize hf hmem (of_decide_eq_true hholds)
  rw [hresets, readBits, foldlM_pushBit hn, Nat.zero_mul, Nat.zero_add]

/-- A byte does not hold all bits of a field that spans several bytes. -/
theorem length_held_ne (hspan : f.start / 8 ≠ (f.start + f.count - 1) / 8) (hholds : f.Holds bit)
    (hbit : bit ∈ byteBits size byte) (fields : List Span) :
    (held f (cellsOf fields size byte)).length ≠ f.count := by
  obtain ⟨hlow, hhigh⟩ := mem_byteBits.1 hbit
  obtain ⟨hstart, hend⟩ := hholds
  rw [held_cellsOf _ (by omega), List.length_reverse, List.length_range']
  intro hlength
  have hfirst : byte * 8 ≤ f.start := by omega
  have hlast : f.start + f.count ≤ byte * 8 + 8 := by
    have hle : lastBit size byte ≤ byte * 8 + 7 := Nat.min_le_left _ _
    omega
  exact hspan (by omega)

/-- A table with a bit of a field that spans several bytes shows a slice of the field. -/
theorem exists_slice (h : r.FieldsApart) (hsize : size < Literal.bound) (hf : f ∈ r.fields)
    (hspan : f.start / 8 ≠ (f.start + f.count - 1) / 8) {cells : List BitCell}
    (hcells : cells ∈ tablesOf r size) (hholds : ∃ c ∈ cells, f.Holds c.bit) :
    ∃ s : Slice, s.bits = held f cells ∧
      ∀ c ∈ cells, f.Holds c.bit → c.name = shownName f ++ s.text := by
  obtain ⟨byte, hbyte, rfl⟩ := mem_tablesOf.1 hcells
  obtain ⟨c, hc, hcbit⟩ := hholds
  have hbit := (eq_of_mem_cellsOf h hsize hbyte hf hc hcbit).1
  have hnames := names_shownIn hsize hcbit hbit (r.fieldsInOrder.map spanOf)
  rw [Names, if_neg (length_held_ne hspan hcbit hbit _)] at hnames
  obtain ⟨s, hs, hname⟩ := hnames
  refine ⟨s, hs, fun c' hc' hcbit' => ?_⟩
  rw [← hname]
  exact (eq_of_mem_cellsOf h hsize hbyte hf hc' hcbit').2.1

/-- Slices of the tables that show a field make up what all tables hold of it. -/
theorem exists_slices_of {tables : List (List BitCell)} {P : List BitCell → Slice → Prop}
    (h : ∀ cells ∈ tables, (∃ c ∈ cells, f.Holds c.bit) →
      ∃ s : Slice, s.bits = held f cells ∧ P cells s) :
    ∃ slices, List.Forall₂ P (tables.filter (·.any fun c => f.Holds c.bit)) slices ∧
      slices.flatMap Slice.bits = tables.flatMap (held f) := by
  induction tables with
  | nil => exact ⟨[], .nil, rfl⟩
  | cons cells tables ih =>
    obtain ⟨slices, hslices, hbits⟩ := ih fun cells hc => h cells (List.mem_cons_of_mem _ hc)
    by_cases hholds : ∃ c ∈ cells, f.Holds c.bit
    · obtain ⟨s, hs, hP⟩ := h cells List.mem_cons_self hholds
      refine ⟨s :: slices, ?_, ?_⟩
      · rw [List.filter_cons_of_pos (by simpa using hholds)]
        exact .cons hP hslices
      · rw [List.flatMap_cons, List.flatMap_cons, hs, hbits]
    · have hnil : held f cells = [] := by
        rw [held_eq, List.map_eq_nil_iff, List.filter_eq_nil_iff]
        simpa using hholds
      refine ⟨slices, ?_, ?_⟩
      · rwa [List.filter_cons_of_neg (by simpa using hholds)]
      · rw [List.flatMap_cons, hnil, List.nil_append, hbits]

/-- The slices of a field inside the register that spans several bytes make up the field. -/
theorem exists_slices (h : r.FieldsApart) (hsize : size < Literal.bound) (hf : f ∈ r.fields)
    (hin : f.start + f.count ≤ size) (hspan : f.start / 8 ≠ (f.start + f.count - 1) / 8) :
    ∃ slices : List Slice,
      List.Forall₂ (fun cells s => ∀ c ∈ cells, f.Holds c.bit → c.name = shownName f ++ s.text)
        ((tablesOf r size).filter (·.any fun c => f.Holds c.bit)) slices ∧
      slices.flatMap Slice.bits = (List.range f.count).reverse := by
  rw [← held_flatten r hin, ← flatMap_held]
  exact exists_slices_of fun cells => exists_slice h hsize hf hspan

theorem bitsShown_tablesOf (h : r.FieldsApart) (hsize : size < Literal.bound) :
    BitsShown r size (tablesOf r size) where
  bits := map_bit_flatten r size
  outside c hc hnone := by
    obtain ⟨cells, hcells, hc⟩ := List.mem_flatten.1 hc
    obtain ⟨byte, hbyte, rfl⟩ := mem_tablesOf.1 hcells
    exact reserved_of_mem_cellsOf h hsize hbyte hc hnone
  inside cells hcells c hc f hf hholds := by
    obtain ⟨byte, hbyte, rfl⟩ := mem_tablesOf.1 hcells
    obtain ⟨hbit, hname, hreset⟩ := eq_of_mem_cellsOf h hsize hbyte hf hc hholds
    rw [hname]
    exact ⟨names_shownIn hsize hholds hbit _, hreset⟩
  resets f hf hin n hn := readBits_resets h hsize hf hin hn
  slices f hf hin hspan := exists_slices h hsize hf hin hspan

/-! ### The written tables -/

/-- The texts in the table of a byte, row by row. -/
def bitTexts (cells : List BitCell) : List (List String) :=
  [grey "Bit index" :: cells.map fun c => grey (toString c.bit),
    "Field name" :: cells.map fun c => trim c.name, "Reset value" :: cells.map (·.reset)]

/-- The lines about the register, in a document with its fields, show these tables and no other
ones. -/
def BitsWritten (r : Register) (tables : List (List BitCell)) : Prop :=
  ∀ (doc : DocOptions) (b : AddressBlock) (p : Presence) (part : RegisterPart),
    doc.fields = true → registerPart doc b r p = .ok part → ∀ w, Tabular.Outside w →
      ∃ shown, Tabular.ofWriter (writeRegister w part) = Tabular.ofWriter w ++ shown ∧
        shown.map Tabular.texts = tables.map bitTexts

theorem trim_grey {text : String}
    (h : ∃ c ∈ text.toList.getLast?, Text.isBlank c = false) : trim (grey text) = grey text := by
  obtain ⟨c, hlast, hc⟩ := h
  have hgrey : (grey text).toList =
      (command "cellcolor" "gray!25").toList ++ text.toList := String.toList_append
  refine trim_eq_self_of_ends ?_ ?_
  · rw [hgrey, List.head?_append, head?_command, Option.some_or]
    decide
  · rw [hgrey, List.getLast?_append, hlast]
    simpa using hc

theorem exists_getLast?_toString (n : Nat) :
    ∃ c ∈ (toString n).toList.getLast?, Text.isBlank c = false := by
  have hdigits : (toString n).toList = Nat.toDigits 10 n := by simp
  have hne : Nat.toDigits 10 n ≠ [] := List.length_pos_iff.1 Nat.length_toDigits_pos
  refine ⟨(Nat.toDigits 10 n).getLast hne, ?_, ?_⟩
  · rw [hdigits, List.getLast?_eq_some_getLast hne]
    rfl
  · have hdigit := Nat.isDigit_of_mem_toDigits (b := 10) (by decide) (by decide)
      (List.getLast_mem hne)
    by_contra hblank
    rw [Text.isDigit_of_isBlank (Bool.of_not_eq_false hblank)] at hdigit
    cases hdigit

theorem trim_shownReset (f : BitField) (bit : Nat) :
    trim (shownReset f bit) = shownReset f bit := by
  rw [shownReset]
  split
  · split <;> decide
  · decide

theorem trim_reset_of_mem {cells : List BitCell} (h : cells ∈ tablesOf r size) :
    ∀ c ∈ cells, trim c.reset = c.reset := by
  obtain ⟨byte, -, rfl⟩ := mem_tablesOf.1 h
  intro c hc
  obtain ⟨bit, -, rfl⟩ := mem_cellsOf.1 hc
  have hnone : trim "-" = "-" := by decide
  rw [cellOf]
  split
  · exact trim_shownReset _ _
  · exact hnone

theorem texts_bitTable {cells : List BitCell} (h : ∀ c ∈ cells, c.Readable)
    (hreset : ∀ c ∈ cells, trim c.reset = c.reset) :
    (bitTable cells).tabular.texts = bitTexts cells := by
  have hindex : trim (grey "Bit index") = grey "Bit index" :=
    trim_grey ⟨'x', by decide, by decide⟩
  have hbits : (cells.map fun c => grey (toString c.bit)).map trim =
      cells.map fun c => grey (toString c.bit) := by
    rw [List.map_map]
    exact List.map_congr_left fun c _ => trim_grey (exists_getLast?_toString c.bit)
  have hresets : (cells.map (·.reset)).map trim = cells.map (·.reset) := by
    rw [List.map_map]
    exact List.map_congr_left hreset
  have hname : trim "Field name" = "Field name" := by decide
  have hvalue : trim "Reset value" = "Reset value" := by decide
  have hrows := congrArg (List.map (List.map trim)) (rows_bitTable cells)
  rw [List.map_map] at hrows
  rw [Tabular.texts_tabular (wellFormed_bitTable h)]
  refine hrows.trans ?_
  simp only [List.map_cons, List.map_nil, hindex, hbits, hname, hvalue, hresets, bitTexts]
  rw [List.map_map]
  rfl

theorem ensures_bits (doc : DocOptions) (b : AddressBlock) (r : Register) (p : Presence) :
    Ensures (registerPart doc b r p) fun part =>
      doc.fields = true → bitCells r = .ok part.bits := by
  refine (Ensures.trivial _).bind fun properties _ => ?_
  split
  · exact (Ensures.self (bitCells r)).bind fun bits hbits =>
      (Ensures.trivial _).bind fun fields _ => .pure fun _ => hbits
  case isFalse h => exact .pure fun hfields => absurd hfields h

theorem bitsWritten_tablesOf (h : bitCells r = .ok (tablesOf r size)) :
    BitsWritten r (tablesOf r size) := by
  intro doc b p part hfields hpart w hw
  have hwell := ensures_registerPart doc b r p part hpart
  have hbits : tablesOf r size = part.bits :=
    Except.ok.inj (h.symm.trans (ensures_bits doc b r p part hpart hfields))
  refine ⟨(part.bits.map bitTable).map Table.tabular,
    (adds_writeRegister hwell w).ofWriter_append hw, ?_⟩
  rw [List.map_map, List.map_map, ← hbits]
  refine List.map_congr_left fun cells hcells => ?_
  exact texts_bitTable (hwell.bits cells (hbits ▸ hcells)) (trim_reset_of_mem hcells)

/-- A register of a byte and a half: one bit, a gap, and a field across the border of the bytes
whose reset has more bits than the field. -/
def crossing : Register where
  size := some (.ofText "12")
  fields := [
    { name := "en", offset := some (.ofText "0"), width := some (.ofText "1") },
    { name := "baud", offset := some (.ofText "4"), width := some (.ofText "8"),
      resets := [{ value := some (.ofText "0x15A") }] }]

end RegAtlas.RegisterDoc
