import Mathlib.Order.Bounds.Basic
import RegAtlas.Output.VhdlPackage
import RegAtlas.Proofs.Output.Basic

/-!
# Contents of VHDL packages

When a package has a content, what it is, and the bits that its index constants show.
-/

namespace RegAtlas.VhdlPackage

open Output WordGroup

/-! ### Addresses -/

/-- The width of address constants that hold all addresses of a map. -/
def addressBitsOf (m : MemoryMap) : Nat :=
  let all := m.blocks.flatMap fun b => b.registers.map b.address
  (max (bitLength (all.foldl max 0)) minAddressBits + 3) / 4 * 4

theorem bitLength_le_iff {n k : Nat} : bitLength n ≤ k ↔ n < 2 ^ k := by
  unfold bitLength
  split_ifs with hn
  · simp [hn]
  · rw [Nat.succ_le_iff, Nat.log2_lt hn]

theorem foldl_max_lt_iff {as : List Nat} {a k : Nat} :
    as.foldl max a < k ↔ a < k ∧ ∀ x ∈ as, x < k := by
  induction as generalizing a with
  | nil => simp
  | cons b as ih => simp [ih, and_assoc]

/-- The widths of whole nibbles, three at least, that hold every address of a map. -/
def addressWidths (m : MemoryMap) : Set Nat :=
  {n | 4 ∣ n ∧ 12 ≤ n ∧ ∀ b ∈ m.blocks, ∀ r ∈ b.registers, b.address r < 2 ^ n}

theorem isLeast_addressBitsOf (m : MemoryMap) : IsLeast (addressWidths m) (addressBitsOf m) := by
  have hholds (n : Nat) : bitLength ((m.blocks.flatMap fun b => b.registers.map b.address).foldl
      max 0) ≤ n ↔ ∀ b ∈ m.blocks, ∀ r ∈ b.registers, b.address r < 2 ^ n := by
    simp only [bitLength_le_iff, foldl_max_lt_iff, List.forall_mem_flatMap, List.forall_mem_map]
    exact and_iff_right (Nat.two_pow_pos n)
  simp only [addressBitsOf, minAddressBits]
  generalize bitLength (List.foldl max 0 _) = needed at hholds ⊢
  constructor
  · refine ⟨by omega, by omega, (hholds _).1 (by omega)⟩
  · rintro n ⟨hnibbles, hleast, haddresses⟩
    have := (hholds n).2 haddresses
    omega

/-- Addresses have 64 bits. -/
theorem addressBitsOf_le {m : MemoryMap} (h : AddressesDefined m) : addressBitsOf m ≤ 64 := by
  apply (isLeast_addressBitsOf m).2
  refine ⟨by decide, by decide, ?_⟩
  intro b hb r hr
  exact (h b hb r hr).2.2

/-- The constant for the address of a register. -/
def addressConstantOf (bits : Nat) (r : Register) (address : Nat) : Constant where
  name := s!"{Text.shoutingSnake r.name}_ADR"
  type := vectorType bits
  value := hexLiteral (bits / 4) address

theorem gives_addressBits (m : MemoryMap) :
    Gives (addressBits m) (AddressesDefined m) (addressBitsOf m) :=
  (Gives.mapM fun b _ => .mapM fun r _ => b.gives_registerAddress r).bind_pure

theorem gives_addressConstant (bits : Nat) (r : Register) (address : Nat) :
    Gives (addressConstant bits r address) (bits / 4 < Bounded.widthBound)
      (addressConstantOf bits r address) := (Bounded.gives_formatWidth _).bind_pure

/-- No address has so many digits that its constant cannot be written. -/
theorem gives_addressConstants (m : MemoryMap) :
    Gives (addressConstants m) (AddressesDefined m)
      ((addressesOf m).map fun (r, address) => addressConstantOf (addressBitsOf m) r address) := by
  refine ((gives_addressBits m).bind fun _ => (gives_addresses m).bind fun _ =>
    .mapM fun x _ => gives_addressConstant (addressBitsOf m) x.1 x.2).congr ?_
  refine ⟨fun h => h.1, fun h => ⟨h, h, fun _ _ => ?_⟩⟩
  have hle := addressBitsOf_le h
  rw [Bounded.widthBound]
  omega

/-! ### Fields -/

/-- The bits of a field. -/
def fieldRangeOf (wordBytes : Nat) (r : Register) (f : BitField) : FieldRange where
  field := f
  low := bitStart wordBytes r f
  high := bitLast wordBytes r f

/-- The constant of a number in so many bits. -/
def bitsConstantOf (name : String) (width n : Nat) : Constant :=
  if width ≤ 1 then { name, type := "std_logic", value := "'" ++ toString (n % 2) ++ "'" }
  else if width % 4 = 0 then { name, type := vectorType width, value := hexLiteral (width / 4) n }
  else { name, type := vectorType width, value := "\"" ++ Text.digits 2 width n ++ "\"" }

/-- The number of digits of a literal for so many bits. -/
def digitCount (width : Nat) : Nat := if width % 4 = 0 then width / 4 else width

theorem gives_bitsConstant (name : String) (width n : Nat) :
    Gives (bitsConstant name width n) (digitCount width < Bounded.widthBound)
      (bitsConstantOf name width n) := by
  rw [bitsConstant, bitsConstantOf, digitCount]
  split
  case isTrue h =>
    refine (Gives.pure _).congr (iff_of_true trivial ?_)
    rw [Bounded.widthBound]
    split <;> omega
  case isFalse =>
    split
    · exact (Bounded.gives_formatWidth _).bind_pure
    · exact (Bounded.gives_formatWidth _).bind_pure

/-- The enumerated values of a field. -/
def fieldValuesOf (f : BitField) : FieldValues where
  field := f
  constants := f.enumValues.map fun e =>
    bitsConstantOf (Text.shoutingSnake e.name) f.count (e.number?.getD 0)

/-- The reset value of a field that has one. -/
def resetOf? (f : BitField) : Option Constant :=
  f.resetNumber?.map (bitsConstantOf s!"{Text.shoutingSnake f.name}_RSTVAL" f.count)

/-- The values that a field has, if it has any, can be written in its bits. -/
def ValuesFit (f : BitField) : Prop :=
  f.enumValues ≠ [] ∨ f.resetNumber? ≠ none → digitCount f.count < Bounded.widthBound

instance (f : BitField) : Decidable (ValuesFit f) := inferInstanceAs (Decidable (_ → _))

theorem name_bitsConstantOf (name : String) (width n : Nat) :
    (bitsConstantOf name width n).name = name := by
  rw [bitsConstantOf]
  split
  · rfl
  · split <;> rfl

theorem gives_fieldRange (wordBytes : Nat) (r : Register) (f : BitField) :
    Gives (fieldRange wordBytes r f) (BitsDefined wordBytes r f) (fieldRangeOf wordBytes r f) :=
  (gives_bitRange wordBytes r f).bind_pure

theorem gives_ranges (wordBytes : Nat) (r : Register) :
    Gives (do (← r.sortedFields).mapM (fieldRange wordBytes r))
      (∀ f ∈ r.fields, BitsDefined wordBytes r f)
      (r.fieldsInOrder.map (fieldRangeOf wordBytes r)) := by
  refine (r.gives_sortedFields.bind fun _ =>
    .mapM fun f _ => gives_fieldRange wordBytes r f).congr ?_
  simp only [Register.mem_fieldsInOrder]
  exact and_iff_right_of_imp fun h f hf => (h f hf).2.1

theorem gives_fieldValues (f : BitField) : Gives (fieldValues f)
    (numberOf? f.width ≠ none ∧ f.ValuesDefined ∧
      (f.enumValues ≠ [] → digitCount f.count < Bounded.widthBound)) (fieldValuesOf f) := by
  refine (f.gives_bitWidth.bind fun _ => (Gives.mapM fun e _ => e.gives_number.bind fun _ =>
    gives_bitsConstant _ _ _).bind_pure).congr (and_congr_right fun _ => ?_)
  rw [BitField.ValuesDefined, forall₂_and]
  refine and_congr_right fun _ => ⟨fun h hne => ?_, fun h e he => h (List.ne_nil_of_mem he)⟩
  obtain ⟨e, he⟩ := List.exists_mem_of_ne_nil _ hne
  exact h e he

/-- A reset value needs the width of its field. -/
theorem gives_resetConstant? {f : BitField} (hw : numberOf? f.width ≠ none) :
    Gives (resetConstant? f) (f.resetNumber? ≠ none → digitCount f.count < Bounded.widthBound)
      (resetOf? f) := by
  cases h : f.resetNumber? with
  | none => simpa [resetConstant?, resetOf?, h] using Gives.pure none
  | some n =>
    simpa [resetConstant?, resetOf?, h, hw] using
      f.gives_bitWidth.bind fun _ => (gives_bitsConstant _ _ n).map

/-! ### Registers, blocks and maps -/

/-- What a package shows of a register. -/
def registerPartOf (wordBytes : Nat) (r : Register) : RegisterPart where
  register := r
  ranges := r.fieldsInOrder.map (fieldRangeOf wordBytes r)
  values := r.fieldsInOrder.map fieldValuesOf
  resets := (r.fieldsInOrder.map resetOf?).filterMap id

/-- What a package shows of a block. -/
def blockPartOf (wordBytes : Nat) (b : AddressBlock) : BlockPart where
  name := b.name
  registers := b.registersInOrder.map (registerPartOf wordBytes)

/-- What a package shows of a memory map. -/
def contentOf (wordBytes : Nat) (m : MemoryMap) : Content where
  map := m
  addresses := (addressesOf m).map fun (r, address) =>
    addressConstantOf (addressBitsOf m) r address
  blocks := (registerBlocks m).map (blockPartOf wordBytes)

/-- The bits and the values of a field can be written. -/
def FieldFits (wordBytes : Nat) (r : Register) (f : BitField) : Prop :=
  BitsDefined wordBytes r f ∧ f.ValuesDefined ∧ ValuesFit f

instance (wordBytes : Nat) (r : Register) (f : BitField) : Decidable (FieldFits wordBytes r f) :=
  inferInstanceAs (Decidable (_ ∧ _ ∧ _))

/-- A package has a content. -/
def Defined (wordBytes : Nat) (m : MemoryMap) : Prop :=
  AddressesDefined m ∧ EveryField m (FieldFits wordBytes)

instance (wordBytes : Nat) (m : MemoryMap) : Decidable (Defined wordBytes m) :=
  inferInstanceAs (Decidable (_ ∧ _))

theorem gives_registerPart (wordBytes : Nat) (r : Register) :
    Gives (registerPart wordBytes r) (∀ f ∈ r.fields, FieldFits wordBytes r f)
      (registerPartOf wordBytes r) := by
  refine (r.gives_sortedFields.bind fun _ =>
    (Gives.mapM fun f _ => gives_fieldRange wordBytes r f).bind fun hbits =>
    (Gives.mapM fun f _ => gives_fieldValues f).bind fun _ =>
    (Gives.mapM fun f hf => gives_resetConstant? (hbits f hf).2.2.1).bind_pure).congr ?_
  simp only [Register.mem_fieldsInOrder]
  constructor
  · rintro ⟨_, hbits, hvalues, hresets⟩ f hf
    exact ⟨hbits f hf, (hvalues f hf).2.1, fun h => h.elim (hvalues f hf).2.2 (hresets f hf)⟩
  · exact fun h => ⟨fun f hf => (h f hf).1.2.1, fun f hf => (h f hf).1,
      fun f hf => ⟨(h f hf).1.2.2.1, (h f hf).2.1, fun hne => (h f hf).2.2 (.inl hne)⟩,
      fun f hf hne => (h f hf).2.2 (.inr hne)⟩

theorem gives_blockPart (wordBytes : Nat) (b : AddressBlock) :
    Gives (blockPart wordBytes b) ((∀ r ∈ b.registers, numberOf? r.offset ≠ none) ∧
      ∀ r ∈ b.registers, ∀ f ∈ r.fields, FieldFits wordBytes r f) (blockPartOf wordBytes b) := by
  refine (b.gives_sortedRegisters.bind fun _ =>
    (Gives.mapM fun r _ => gives_registerPart wordBytes r).bind_pure).congr ?_
  simp only [AddressBlock.mem_registersInOrder]

theorem gives_content (o : OutputOptions) (m : MemoryMap) :
    Gives (content o m) (Defined o.wordBytes m) (contentOf o.wordBytes m) := by
  refine ((gives_addressConstants m).bind fun _ =>
    (Gives.mapM fun b _ => gives_blockPart o.wordBytes b).bind_pure).congr ?_
  refine and_congr_right fun haddr => forall₂_congr fun b hb => ?_
  exact and_iff_right (haddr.offsets b hb)

/-! ### Generated packages -/

section

variable {w : LineWriter} {style : Style} {level : Nat}

theorem stands_writeConstants (h : w.Stands style level) (cs : List Constant) :
    (writeConstants cs w).Stands style level := h.writeLines _

theorem stands_writeValues (h : w.Stands style level) (v : FieldValues) :
    (writeValues w v).Stands style level := by
  rw [writeValues]
  split
  · exact stands_writeConstants h _
  · exact stands_writeConstants (h.blank.comment _) _

theorem stands_writeRegister (h : w.Stands style level) (p : RegisterPart) :
    (writeRegister w p).Stands style level := by
  have hvalues : (p.values.foldl writeValues (writeConstants (p.ranges.flatMap FieldRange.constants)
      (w.comment (note s!"{Text.upperText p.register.name} register")))).Stands style level :=
    .foldl (fun v hv x _ => stands_writeValues hv x) (stands_writeConstants (h.comment _) _)
  rw [writeRegister]
  split
  · exact (stands_writeConstants hvalues _).blank
  · exact (stands_writeConstants (hvalues.blank.comment _) _).blank

end

/-- The lines of a package are one step in. -/
theorem stands_write {o : OutputOptions} (hindent : o.style.indent < Literal.bound) (c : Content) :
    (write o c).Stands (o.style.withCommentChar '-') 0 := by
  have hone : 0 + (o.style.withCommentChar '-').indent < Literal.bound := by
    rwa [Nat.zero_add]
  have hpackage := ((((((stands_beginText o '-').line "library ieee;").line
    "use ieee.std_logic_1164.all;").blank.line
    s!"package {Text.NameCase.snake.convert (withLead o.lead o.name)} is").defer
    "end package;").blank).indent hone
  have haddresses := (stands_writeConstants (hpackage.comment
    (note s!"{c.map.name} memory map addresses")) c.addresses).blank
  refine .flushAll (.dedent (.foldl (fun v hv b _ => ?_) haddresses))
  exact .foldl (fun u hu p _ => stands_writeRegister hu p) (hv.comment _).blank

theorem gives_text (o : OutputOptions) (m : MemoryMap) :
    Gives (do (write o (← content o m)).text)
      (Defined o.wordBytes m ∧ (write o (contentOf o.wordBytes m)).stopped = false)
      (write o (contentOf o.wordBytes m)).finish :=
  (gives_content o m).bind fun _ => LineWriter.gives_text _

theorem generate_eq_ok {o : OutputOptions} {c : Component} {text : String}
    (h : generate o c = .ok text) : ∃ m, c.memoryMap? o.memoryMap = some m ∧
      Defined o.wordBytes m ∧ text = (write o (contentOf o.wordBytes m)).finish := by
  obtain ⟨m, hm, hdefined, rfl⟩ := (forMap_eq_ok_iff (gives_text o)).1 h
  exact ⟨m, hm, hdefined.1, rfl⟩

/-- A package is generated if the map exists and has a content. -/
theorem generate_eq_ok_iff {o : OutputOptions} (hindent : o.style.indent < Literal.bound)
    {c : Component} {text : String} : generate o c = .ok text ↔
      ∃ m, c.memoryMap? o.memoryMap = some m ∧ Defined o.wordBytes m ∧
        (write o (contentOf o.wordBytes m)).finish = text :=
  (forMap_eq_ok_iff (gives_text o)).trans (exists_congr fun _ => and_congr_right fun _ =>
    and_congr_left fun _ => and_iff_left (stands_write hindent _).going)

/-! ### Bits -/

def FieldRange.bits (r : FieldRange) : BitField × Nat × Nat := (r.field, r.low, r.high)

/-- The bits of the fields of a package, in the order of its lines. -/
def Content.ranges (c : Content) : List FieldRange :=
  c.blocks.flatMap fun block => block.registers.flatMap (·.ranges)

theorem map_bits_contentOf (wordBytes : Nat) (m : MemoryMap) :
    (contentOf wordBytes m).ranges.map FieldRange.bits = bitsOf wordBytes m := by
  simp only [Content.ranges, contentOf, blockPartOf, registerPartOf, List.flatMap_map,
    List.map_map, bitsOf, fieldsOf, List.map_flatMap]
  rfl

end RegAtlas.VhdlPackage
