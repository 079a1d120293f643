import Mathlib.Data.List.Pairwise
import RegAtlas.Output.RegisterDoc
import RegAtlas.Proofs.Bounded
import RegAtlas.Proofs.Component.Layout

/-!
# Cells of tables of bits

The cells that the tables of a register consist of: a row of a table shows its texts whatever cells
are merged, the bytes hold the bits of the register in descending order, and where no two fields
share a bit the cell of a bit shows the field that holds it. Whatever fields a register has, no
number of a cell leaves its range.
-/

namespace RegAtlas

/-- Of things in ranges that do not overlap, one at most holds a place. -/
theorem eq_of_ranges_apart {α : Type} {start count : α → Nat} {as : List α}
    (h : as.Pairwise fun a b => start a + count a ≤ start b ∨ start b + count b ≤ start a)
    {a b : α} (ha : a ∈ as) (hb : b ∈ as) {place : Nat}
    (haplace : start a ≤ place ∧ place < start a + count a)
    (hbplace : start b ≤ place ∧ place < start b + count b) : a = b := by
  by_contra hne
  have hsymm : Std.Symm fun a b : α =>
      start a + count a ≤ start b ∨ start b + count b ≤ start a := ⟨fun _ _ => Or.symm⟩
  have hapart := h.forall ha hb hne
  omega

/-! ### Fields that share no bit -/

/-- The bit of the register is one of the field. -/
def BitField.Holds (f : BitField) (bit : Nat) : Prop := f.start ≤ bit ∧ bit < f.start + f.count

instance (f : BitField) (bit : Nat) : Decidable (f.Holds bit) := inferInstanceAs (Decidable (_ ∧ _))

/-- The fields of a register have numbers and bits, and share no bit. -/
@[mk_iff]
structure Register.FieldsApart (r : Register) : Prop where
  numbers : ∀ f ∈ r.fields, numberOf? f.offset ≠ none ∧ numberOf? f.width ≠ none
  positive : ∀ f ∈ r.fields, 1 ≤ f.count
  apart : r.fields.Pairwise fun f g =>
    f.start + f.count ≤ g.start ∨ g.start + g.count ≤ f.start

instance (r : Register) : Decidable r.FieldsApart := decidable_of_iff' _ r.fieldsApart_iff

/-- A bit lies in one field at most. -/
theorem Register.FieldsApart.eq_of_holds {r : Register} (h : r.FieldsApart) {f g : BitField}
    (hf : f ∈ r.fields) (hg : g ∈ r.fields) {bit : Nat} (hfbit : f.Holds bit)
    (hgbit : g.Holds bit) : f = g :=
  eq_of_ranges_apart h.apart hf hg hfbit hgbit

namespace RegisterDoc

open Bounded Latex

/-! ### Rows of a table -/

/-- The texts that a row shows, column by column. -/
def columnTexts (row : List Cell) : List String :=
  row.flatMap fun cell => List.replicate cell.columns cell.text

theorem columnTexts_cons (cell : Cell) (row : List Cell) :
    columnTexts (cell :: row) = List.replicate cell.columns cell.text ++ columnTexts row :=
  List.flatMap_cons

theorem columnTexts_append (row row' : List Cell) :
    columnTexts (row ++ row') = columnTexts row ++ columnTexts row' := List.flatMap_append

/-- A run of equal texts and what stands behind it. -/
theorem replicate_append_drop (text : String) (rest : List String) :
    List.replicate (rest.takeWhile (· == text)).length text ++
      rest.drop (rest.takeWhile (· == text)).length = rest := by
  have hrun : rest.takeWhile (· == text) =
      List.replicate (rest.takeWhile (· == text)).length text :=
    List.eq_replicate_iff.2 ⟨rfl, fun _ ht => by simpa using List.mem_takeWhile_imp ht⟩
  rw [← hrun]
  exact List.prefix_iff_eq_append.1 (List.takeWhile_prefix _)

/-- Merging cells does not change what a row shows. -/
theorem columnTexts_mergeFrom (first : Bool) (texts : List String) :
    columnTexts (mergeFrom first texts) = texts := by
  fun_induction mergeFrom first texts with
  | case1 => rfl
  | case2 first text rest run hrun ih =>
    rw [columnTexts_cons, ih]
    exact congrArg (text :: ·) (replicate_append_drop text rest)
  | case3 first text rest run hrun ih =>
    rw [columnTexts_cons, ih]
    rfl

theorem columnTexts_map_plain {α : Type} (text : α → String) (xs : List α) :
    columnTexts (xs.map fun x => .plain (text x)) = xs.map text := by
  induction xs with
  | nil => rfl
  | cons x xs ih =>
    rw [List.map_cons, columnTexts_cons, ih]
    rfl

/-- The rows of a table, column by column. -/
theorem rows_bitTable (cells : List BitCell) : (bitTable cells).rows.map columnTexts =
    [grey "Bit index" :: cells.map fun c => grey (toString c.bit),
      "Field name" :: cells.map (·.name), "Reset value" :: cells.map (·.reset)] := by
  simp only [bitTable, List.map_cons, List.map_nil, columnTexts_cons, columnTexts_map_plain,
    merge, columnTexts_mergeFrom]
  rfl

/-! ### Ranges -/

/-- The bits of a field in a range are a range. -/
theorem filter_holds_range' (f : BitField) (start n : Nat) :
    (List.range' start n).filter (f.Holds ·) =
      List.range' (max start f.start)
        (min (start + n) (f.start + f.count) - max start f.start) := by
  induction n with
  | zero =>
    have hzero : min (start + 0) (f.start + f.count) - max start f.start = 0 := by omega
    rw [hzero]
    rfl
  | succ n ih =>
    rw [List.range'_concat, Nat.one_mul, List.filter_append, ih]
    by_cases hin : f.Holds (start + n)
    · rw [List.filter_cons_of_pos (by simpa using hin), List.filter_nil]
      obtain ⟨hlow, hhigh⟩ := hin
      have hcount : min (start + (n + 1)) (f.start + f.count) - max start f.start =
          min (start + n) (f.start + f.count) - max start f.start + 1 := by omega
      have hlast : max start f.start + (min (start + n) (f.start + f.count) - max start f.start) =
          start + n := by omega
      rw [hcount, List.range'_concat, Nat.one_mul, hlast]
    · rw [List.filter_cons_of_neg (by simpa using hin), List.filter_nil, List.append_nil]
      rw [BitField.Holds] at hin
      by_cases hempty : min (start + (n + 1)) (f.start + f.count) ≤ max start f.start
      · rw [Nat.sub_eq_zero_of_le hempty, Nat.sub_eq_zero_of_le (by omega)]
      · congr 1
        omega

/-- The last bit of a byte of a register. -/
def lastBit (size byte : Nat) : Nat := min (byte * 8 + 7) (size - 1)

/-- The bits of a byte of a register, lowest first. -/
def byteBits (size byte : Nat) : List Nat :=
  List.range' (byte * 8) (lastBit size byte + 1 - byte * 8)

theorem mem_byteBits {size byte bit : Nat} :
    bit ∈ byteBits size byte ↔ byte * 8 ≤ bit ∧ bit ≤ lastBit size byte := by
  rw [byteBits, List.mem_range'_1]
  omega

theorem lt_of_mem_byteBits {size byte bit : Nat} (hbyte : byte < (size + 7) / 8)
    (hbit : bit ∈ byteBits size byte) : bit < size := by
  have hle := (mem_byteBits.1 hbit).2
  rw [lastBit] at hle
  omega

/-- The bytes of a register hold its bits in order. -/
theorem flatMap_byteBits {size n : Nat} (h : n ≤ (size + 7) / 8) :
    (List.range n).flatMap (byteBits size) = List.range' 0 (min (n * 8) size) := by
  induction n with
  | zero => simp
  | succ n ih =>
    have hcount : min (n * 8) size + (lastBit size n + 1 - n * 8) = min ((n + 1) * 8) size := by
      unfold lastBit
      omega
    have hstart : n * 8 = 0 + 1 * min (n * 8) size := by omega
    rw [List.range_succ, List.flatMap_append, ih (by omega), List.flatMap_singleton, byteBits,
      ← hcount, ← List.range'_append, ← hstart]

theorem flatMap_reverse_byteBits (size : Nat) :
    (List.range ((size + 7) / 8)).reverse.flatMap (fun byte => (byteBits size byte).reverse) =
      (List.range size).reverse := by
  have hsize : min ((size + 7) / 8 * 8) size = size := by omega
  have hreverse := List.reverse_flatMap (l := List.range ((size + 7) / 8)) (f := byteBits size)
  rw [flatMap_byteBits (Nat.le_refl _), hsize, ← List.range_eq_range'] at hreverse
  exact hreverse.symm

/-! ### Cells -/

/-- The name under which a table shows a field. -/
def shownName (f : BitField) : String := if f.isReserved then "Reserved" else escape f.name

/-- The reset that a table shows for a bit of a field. -/
def shownReset (f : BitField) (bit : Nat) : String :=
  match f.resetNumber? with
  | some n => if n.testBit bit then "1" else "0"
  | none => "X"

theorem resetBit_eq (f : BitField) (bit : Nat) : resetBit f bit = shownReset f bit := by
  rw [resetBit, shownReset]
  cases f.resetNumber? with
  | none => rfl
  | some n =>
    dsimp only
    rw [Nat.testBit_eq_decide_div_mod_eq, Nat.shiftRight_eq_div_pow]
    obtain hzero | hone := Nat.mod_two_eq_zero_or_one (n / 2 ^ bit)
    · rw [hzero]
      rfl
    · rw [hone]
      rfl

/-- A field with its first and its last bit. -/
def spanOf (f : BitField) : Span where
  low := f.start
  high := min (f.start + (f.count - 1)) (Literal.bound - 1)
  field := f

/-- What the cell of a bit looks for. -/
def Span.covers (bit : Nat) (s : Span) : Bool := s.low ≤ bit && bit ≤ s.high

/-- The bits of a field behind its name, from the highest one to the lowest one. -/
def sliceText (high low : Nat) : String := if low = high then s!"[{high}]" else s!"[{high}:{low}]"

/-- The name of a field in a byte that holds a bit of it. -/
def Span.shownIn (s : Span) (byteLow byteHigh : Nat) : String :=
  if byteLow ≤ s.low ∧ s.high ≤ byteHigh then shownName s.field
  else shownName s.field ++
    sliceText (min s.high byteHigh - s.low) (max s.low byteLow - s.low)

/-- A field that has a bit in a byte begins before the byte ends. -/
theorem Span.nameIn_eq {s : Span} {bit byteHigh : Nat} (hcovers : s.covers bit)
    (hbit : bit ≤ byteHigh) (byteLow : Nat) :
    s.nameIn byteLow byteHigh = .ok (s.shownIn byteLow byteHigh) := by
  simp only [covers, Bool.and_eq_true, decide_eq_true_eq] at hcovers
  obtain ⟨hlow, hhigh⟩ := hcovers
  have hlast : s.low ≤ min s.high byteHigh := Nat.le_min.2 ⟨hlow.trans hhigh, hlow.trans hbit⟩
  rw [nameIn, shownIn]
  split
  · rfl
  · rw [sub_of_le (Nat.le_max_left _ _), ok_bind, sub_of_le hlast, ok_bind, sliceText]
    split <;> simp only [toString, String.append_assoc] <;> rfl

/-- The cell of a bit. -/
def cellOf (fields : List Span) (byteLow byteHigh bit : Nat) : BitCell :=
  match fields.find? (Span.covers bit) with
  | some s =>
    { bit, name := s.shownIn byteLow byteHigh, reset := shownReset s.field (bit - s.low) }
  | none => { bit, name := "Reserved", reset := "-" }

theorem bitCell_eq (fields : List Span) (byteLow : Nat) {byteHigh bit : Nat}
    (hbit : bit ≤ byteHigh) :
    bitCell fields byteLow byteHigh bit = .ok (cellOf fields byteLow byteHigh bit) := by
  have hcovers : (fun s : Span => decide (s.low ≤ bit) && decide (bit ≤ s.high)) =
      Span.covers bit := rfl
  rw [bitCell, hcovers, cellOf]
  cases hfind : fields.find? (Span.covers bit) with
  | none => rfl
  | some s =>
    have hs : s.covers bit := List.find?_some hfind
    have hlow : s.low ≤ bit := by
      rw [Span.covers, Bool.and_eq_true, decide_eq_true_eq] at hs
      exact hs.1
    dsimp only
    rw [s.nameIn_eq hs hbit, ok_bind, sub_of_le hlow, ok_bind, resetBit_eq]
    rfl

/-- The cells of a byte, highest bit first. -/
def cellsOf (fields : List Span) (size byte : Nat) : List BitCell :=
  (byteBits size byte).reverse.map (cellOf fields (byte * 8) (lastBit size byte))

theorem byteCells_eq (fields : List Span) (size : Nat) {byte : Nat}
    (h : byte * 8 + 7 < Literal.bound) :
    byteCells fields size byte = .ok (cellsOf fields size byte) := by
  rw [byteCells, mul_of_lt (by omega), ok_bind, add_of_lt h, ok_bind]
  refine mapM_eq_ok fun bit hbit => bitCell_eq _ _ ?_
  rw [List.mem_reverse, List.mem_range'_1] at hbit
  omega

theorem gives_spans (r : Register) : Gives (spans r)
    (∀ f ∈ r.fields, numberOf? f.offset ≠ none ∧ numberOf? f.width ≠ none)
    (r.fieldsInOrder.map spanOf) := by
  refine (r.gives_sortedFields.bind fun _ => Gives.mapM fun f _ => f.gives_bitOffset.bind fun _ =>
    f.gives_bitWidth.bind_pure).congr ?_
  simp only [Register.mem_fieldsInOrder]
  exact and_iff_right_of_imp fun h f hf => (h f hf).1

/-- The tables of a register. -/
def tablesOf (r : Register) (size : Nat) : List (List BitCell) :=
  (List.range ((size + 7) / 8)).reverse.map (cellsOf (r.fieldsInOrder.map spanOf) size)

theorem gives_bitCells (r : Register) : Gives (bitCells r) (numberOf? r.size ≠ none ∧
    ∀ f ∈ r.fields, numberOf? f.offset ≠ none ∧ numberOf? f.width ≠ none)
      (tablesOf r (numberOf r.size)) := by
  have hlt : numberOf r.size < Literal.bound := numberOf_lt_bound r.size
  refine (gives_require _ _ r.size).bind fun _ => ((gives_spans r).bind fun _ =>
    Gives.bind (.of_eq_ok (divCeil_eight hlt)) fun _ =>
      .of_eq_ok (mapM_eq_ok fun byte hbyte => byteCells_eq _ _ ?_)).congr (by simp)
  rw [List.mem_reverse, List.mem_range] at hbyte
  rw [Literal.bound] at hlt ⊢
  omega

section

variable {r : Register} {size byte bit : Nat} {f : BitField}

theorem covers_iff (hcount : 1 ≤ f.count) (hbit : bit < Literal.bound) :
    (spanOf f).covers bit ↔ f.Holds bit := by
  rw [Span.covers, Bool.and_eq_true, decide_eq_true_iff, decide_eq_true_iff, BitField.Holds]
  simp only [spanOf]
  omega

/-- A bit of a field shows the field. -/
theorem cellOf_of_holds (h : r.FieldsApart) (hf : f ∈ r.fields) (hbit : bit < Literal.bound)
    (hholds : f.Holds bit) (low high : Nat) :
    cellOf (r.fieldsInOrder.map spanOf) low high bit =
      { bit, name := (spanOf f).shownIn low high, reset := shownReset f (bit - f.start) } := by
  have hfind : (r.fieldsInOrder.map spanOf).find? (Span.covers bit) = some (spanOf f) := by
    cases hfind : (r.fieldsInOrder.map spanOf).find? (Span.covers bit) with
    | none =>
      have hmem : spanOf f ∈ r.fieldsInOrder.map spanOf :=
        List.mem_map_of_mem (Register.mem_fieldsInOrder.2 hf)
      exact absurd ((covers_iff (h.positive f hf) hbit).2 hholds)
        (List.find?_eq_none.1 hfind _ hmem)
    | some s =>
      obtain ⟨g, hg, rfl⟩ := List.mem_map.1 (List.mem_of_find?_eq_some hfind)
      have hg := Register.mem_fieldsInOrder.1 hg
      have hgholds := (covers_iff (h.positive g hg) hbit).1 (List.find?_some hfind)
      rw [h.eq_of_holds hf hg hholds hgholds]
  rw [cellOf, hfind]
  rfl

/-- A bit of no field shows that it is reserved. -/
theorem cellOf_of_not_holds (h : r.FieldsApart) (hbit : bit < Literal.bound)
    (hnone : ∀ f ∈ r.fields, ¬f.Holds bit) (low high : Nat) :
    cellOf (r.fieldsInOrder.map spanOf) low high bit =
      { bit, name := "Reserved", reset := "-" } := by
  have hfind : (r.fieldsInOrder.map spanOf).find? (Span.covers bit) = none := by
    refine List.find?_eq_none.2 (List.forall_mem_map.2 fun f hf => ?_)
    have hf := Register.mem_fieldsInOrder.1 hf
    rw [covers_iff (h.positive f hf) hbit]
    exact hnone f hf
  rw [cellOf, hfind]

@[simp] theorem bit_cellOf (fields : List Span) (low high bit : Nat) :
    (cellOf fields low high bit).bit = bit := by
  rw [cellOf]
  split <;> rfl

theorem map_bit_cellsOf (fields : List Span) (size byte : Nat) :
    (cellsOf fields size byte).map (·.bit) = (byteBits size byte).reverse := by
  rw [cellsOf, List.map_map]
  exact (List.map_congr_left fun bit _ => bit_cellOf fields _ _ bit).trans (List.map_id _)

/-- The tables show all bits in descending order. -/
theorem map_bit_flatten (r : Register) (size : Nat) :
    (tablesOf r size).flatten.map (·.bit) = (List.range size).reverse := by
  rw [← flatMap_reverse_byteBits, tablesOf, ← List.flatMap_def, List.map_flatMap]
  exact List.flatMap_congr fun byte _ => map_bit_cellsOf _ size byte

theorem mem_tablesOf {cells : List BitCell} : cells ∈ tablesOf r size ↔
    ∃ byte < (size + 7) / 8, cellsOf (r.fieldsInOrder.map spanOf) size byte = cells := by
  simp [tablesOf]

/-- A cell of a table shows a bit of its byte. -/
theorem mem_cellsOf {fields : List Span} {c : BitCell} : c ∈ cellsOf fields size byte ↔
    ∃ bit ∈ byteBits size byte, cellOf fields (byte * 8) (lastBit size byte) bit = c := by
  simp [cellsOf]

/-- A cell of a byte with a bit of a field. -/
theorem eq_of_mem_cellsOf (h : r.FieldsApart) (hsize : size < Literal.bound)
    (hbyte : byte < (size + 7) / 8) (hf : f ∈ r.fields) {c : BitCell}
    (hc : c ∈ cellsOf (r.fieldsInOrder.map spanOf) size byte) (hholds : f.Holds c.bit) :
    c.bit ∈ byteBits size byte ∧ c.name = (spanOf f).shownIn (byte * 8) (lastBit size byte) ∧
      c.reset = shownReset f (c.bit - f.start) := by
  obtain ⟨bit, hbit, rfl⟩ := mem_cellsOf.1 hc
  rw [bit_cellOf] at hholds
  rw [cellOf_of_holds h hf (Nat.lt_trans (lt_of_mem_byteBits hbyte hbit) hsize) hholds]
  exact ⟨hbit, rfl, rfl⟩

/-- A cell of a byte with a bit of no field. -/
theorem reserved_of_mem_cellsOf (h : r.FieldsApart) (hsize : size < Literal.bound)
    (hbyte : byte < (size + 7) / 8) {c : BitCell}
    (hc : c ∈ cellsOf (r.fieldsInOrder.map spanOf) size byte)
    (hnone : ∀ f ∈ r.fields, ¬f.Holds c.bit) : c.name = "Reserved" ∧ c.reset = "-" := by
  obtain ⟨bit, hbit, rfl⟩ := mem_cellsOf.1 hc
  rw [bit_cellOf] at hnone
  rw [cellOf_of_not_holds h (Nat.lt_trans (lt_of_mem_byteBits hbyte hbit) hsize) hnone]
  exact ⟨rfl, rfl⟩

end

end RegisterDoc

end RegAtlas
