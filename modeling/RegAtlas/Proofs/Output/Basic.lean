import Mathlib.Data.List.Perm.Basic
import RegAtlas.Output.Basic
import RegAtlas.Proofs.Bounded
import RegAtlas.Proofs.LineWriter.Stands
import RegAtlas.Proofs.WordGroup.Windows

/-!
# What generated texts describe

The addresses that a text for a memory map lists, and the fields that it describes: those of the
register blocks, block by block, with the registers of a block and the fields of a register in
ascending order.
-/

namespace RegAtlas

/-- Two texts of one component are about the same memory map, with the same access word. -/
structure OutputOptions.SameMap (o o' : OutputOptions) : Prop where
  memoryMap : o.memoryMap = o'.memoryMap
  wordWidth : o.wordWidth = o'.wordWidth

theorem OutputOptions.SameMap.wordBytes {o o' : OutputOptions} (h : o.SameMap o') :
    o.wordBytes = o'.wordBytes := by
  rw [OutputOptions.wordBytes, h.wordWidth, OutputOptions.wordBytes]

namespace Output

/-! ### Numbers in lines -/

theorem toDigits_inj {a b : Nat} : Nat.toDigits 10 a = Nat.toDigits 10 b ↔ a = b := by
  refine ⟨fun h => ?_, fun h => h ▸ rfl⟩
  rw [← Nat.ofDigitChars_toDigits (b := 10) (n := a) (by decide) (by decide), h,
    Nat.ofDigitChars_toDigits (by decide) (by decide)]

/-- The decimal number at the beginning of a text. -/
def numberAt (cs : List Char) : Nat := Nat.ofDigitChars 10 (cs.takeWhile Char.isDigit) 0

/-- A number is read up to a character that is no digit. -/
theorem numberAt_toString_append (n : Nat) {c : Char} (hc : c.isDigit = false) (rest : List Char) :
    numberAt ((toString n).toList ++ c :: rest) = n := by
  rw [numberAt, Nat.toString_eq_repr, Nat.toList_repr, List.takeWhile_append_of_pos fun d hd =>
    Nat.isDigit_of_mem_toDigits (by decide) (by decide) hd,
    List.takeWhile_cons_of_neg (by simp [hc]), List.append_nil,
    Nat.ofDigitChars_toDigits (by decide) (by decide)]

/-! ### The memory map -/

theorem selectMap_eq_ok_iff {o : OutputOptions} {c : Component} {m : MemoryMap} :
    selectMap o c = .ok m ↔ c.memoryMap? o.memoryMap = some m := by
  unfold selectMap
  split <;> simp_all

/-- A text is generated if the map exists and its content is defined. -/
theorem forMap_eq_ok_iff {α : Type} {o : OutputOptions} {c : Component}
    {compute : MemoryMap → Except Fault α} {defined : MemoryMap → Prop} {value : MemoryMap → α}
    (h : ∀ m, Gives (compute m) (defined m) (value m)) {a : α} : forMap o c compute = .ok a ↔
      ∃ m, c.memoryMap? o.memoryMap = some m ∧ defined m ∧ value m = a := by
  simp only [← selectMap_eq_ok_iff, forMap]
  cases selectMap o c with
  | error e => simp [bind, Except.bind]
  | ok m => simpa [bind, Except.bind] using (h m).mapError.eq_ok_iff

/-! ### Padded names -/

/-- The names are short enough for lines in which they are padded to the longest of them. -/
def Short (names : List String) : Prop := ∀ name ∈ names, name.utf8ByteSize < Bounded.widthBound

instance (names : List String) : Decidable (Short names) :=
  inferInstanceAs (Decidable (∀ name ∈ names, _))

theorem widest_lt_iff {names : List String} {n : Nat} (h : 0 < n) :
    Text.widest names < n ↔ ∀ name ∈ names, name.utf8ByteSize < n := by
  have hfold (sizes : List Nat) (m : Nat) :
      sizes.foldl max m < n ↔ m < n ∧ ∀ size ∈ sizes, size < n := by
    induction sizes generalizing m with
    | nil => simp
    | cons size sizes ih => simp [ih, and_assoc]
  simp [Text.widest, hfold, h]

theorem gives_pad (names : List String) :
    Gives (Bounded.formatWidth (Text.widest names)) (Short names) (Text.widest names) :=
  (Bounded.gives_formatWidth _).congr (widest_lt_iff (by decide))

/-! ### Addresses -/

/-- Every register of the map has an address. -/
def AddressesDefined (m : MemoryMap) : Prop :=
  ∀ b ∈ m.blocks, ∀ r ∈ b.registers, b.AddressDefined r

instance (m : MemoryMap) : Decidable (AddressesDefined m) :=
  inferInstanceAs (Decidable (∀ b ∈ m.blocks, ∀ r ∈ b.registers, b.AddressDefined r))

/-- The registers of all blocks with their addresses. -/
def addressesOf (m : MemoryMap) : List (Register × Nat) :=
  m.blocks.flatMap fun b => b.registersInOrder.map fun r => (r, b.address r)

theorem gives_addresses (m : MemoryMap) :
    Gives (addresses m) (AddressesDefined m) (addressesOf m) := by
  have hblock : ∀ b ∈ m.blocks, Gives
      (do (← b.sortedRegisters).mapM fun r => do return (r, ← b.registerAddress r))
      (∀ r ∈ b.registers, b.AddressDefined r)
      (b.registersInOrder.map fun r => (r, b.address r)) := by
    intro b _
    refine (b.gives_sortedRegisters.bind fun _ => .mapM fun r _ =>
      (b.gives_registerAddress r).bind_pure).congr ?_
    simp only [AddressBlock.mem_registersInOrder]
    exact and_iff_right_of_imp fun h r hr => (h r hr).2.1
  exact (Gives.mapM hblock).bind_pure

/-- The names of the enumerators of addresses. -/
def addressNames (lead : String) (m : MemoryMap) : List String :=
  (addressesOf m).map fun (r, _) => addressName lead r

theorem gives_addressPad (lead : String) (m : MemoryMap) :
    Gives (addressPad lead (addressesOf m)) (Short (addressNames lead m))
      (Text.widest (addressNames lead m)) := gives_pad _

theorem short_addressNames {lead : String} {m : MemoryMap} : Short (addressNames lead m) ↔
    ∀ b ∈ m.blocks, ∀ r ∈ b.registers,
      (addressName lead r).utf8ByteSize < Bounded.widthBound := by
  simp only [Short, addressNames, addressesOf, List.map_flatMap, List.map_map,
    List.forall_mem_flatMap, List.forall_mem_map, AddressBlock.mem_registersInOrder,
    Function.comp_apply]

/-- Registers with addresses can be grouped. -/
theorem AddressesDefined.offsets {m : MemoryMap} (h : AddressesDefined m) :
    ∀ b ∈ registerBlocks m, ∀ r ∈ b.registers, numberOf? r.offset ≠ none := fun b hb r hr =>
  (h b (List.mem_of_mem_filter hb) r hr).2.1

/-! ### Fields -/

theorem registerBlocks_eq (m : MemoryMap) :
    registerBlocks m = m.blocks.filter (·.usage ≠ .memory) :=
  List.filter_congr fun b _ => by cases h : b.usage <;> simp [AddressBlock.isMemory, h]

theorem mem_registerBlocks {m : MemoryMap} {b : AddressBlock} :
    b ∈ registerBlocks m ↔ b ∈ m.blocks ∧ b.usage ≠ .memory := by
  simp [registerBlocks_eq]

/-- The registers of every access word of a map, in the order of the headers. -/
def groupsOf (wordBytes : Nat) (m : MemoryMap) : List (List Register) :=
  (registerBlocks m).flatMap fun b => WordGroup.groupBy wordBytes Register.start b.registers

theorem forall_groupsOf {wordBytes : Nat} {m : MemoryMap} {p : List Register → Prop} :
    (∀ g ∈ groupsOf wordBytes m, p g) ↔ ∀ b ∈ registerBlocks m,
      ∀ g ∈ WordGroup.groupBy wordBytes Register.start b.registers, p g := by
  simp only [groupsOf, List.forall_mem_flatMap]

/-- The fields that a text describes, in its order, with their registers. -/
def fieldsOf (m : MemoryMap) : List (Register × BitField) :=
  (registerBlocks m).flatMap fun b =>
    b.registersInOrder.flatMap fun r => r.fieldsInOrder.map fun f => (r, f)

/-- The same fields with their first and last bits in the access words. -/
def bitsOf (wordBytes : Nat) (m : MemoryMap) : List (BitField × Nat × Nat) :=
  (fieldsOf m).map fun (r, f) =>
    (f, WordGroup.bitStart wordBytes r f, WordGroup.bitLast wordBytes r f)

/-- A property of every field that a text describes. -/
def EveryField (m : MemoryMap) (p : Register → BitField → Prop) : Prop :=
  ∀ b ∈ registerBlocks m, ∀ r ∈ b.registers, ∀ f ∈ r.fields, p r f

instance (m : MemoryMap) (p : Register → BitField → Prop) [∀ r f, Decidable (p r f)] :
    Decidable (EveryField m p) :=
  inferInstanceAs (Decidable (∀ b ∈ registerBlocks m, ∀ r ∈ b.registers, ∀ f ∈ r.fields, p r f))

theorem everyField_iff {m : MemoryMap} {p : Register → BitField → Prop} :
    EveryField m p ↔ ∀ x ∈ fieldsOf m, p x.1 x.2 := by
  simp only [EveryField, fieldsOf, List.mem_flatMap, List.mem_map,
    AddressBlock.mem_registersInOrder, Register.mem_fieldsInOrder]
  constructor
  · rintro h _ ⟨b, hb, r, hr, f, hf, rfl⟩
    exact h b hb r hr f hf
  · exact fun h b hb r hr f hf => h (r, f) ⟨b, hb, r, hr, f, hf, rfl⟩

/-- Ordering registers and fields loses none of them. -/
theorem fieldsOf_perm (m : MemoryMap) : (fieldsOf m).Perm ((registerBlocks m).flatMap fun b =>
    b.registers.flatMap fun r => r.fields.map fun f => (r, f)) := by
  refine .flatMap_left _ fun b _ => (WordGroup.inOrder_perm _ _).flatMap fun r _ => ?_
  exact (WordGroup.inOrder_perm _ _).map _

/-! ### Writers that have not stopped -/

section

variable {w : LineWriter} {style : Style} {level : Nat}

theorem stands_preamble (h : w.Stands style level) (license : Option String) :
    (preamble license w).Stands style level := by
  cases license with
  | none => exact (h.comment _).blank
  | some text => exact (((h.commentLines text).blank).comment _).blank

theorem stands_beginText (o : OutputOptions) (c : Char) :
    (beginText o c).Stands (o.style.withCommentChar c) 0 :=
  stands_preamble (.start _) o.license

theorem stands_beginHeader (o : OutputOptions) :
    (beginHeader o).Stands (o.style.withCommentChar '/') 0 :=
  ((((stands_beginText o '/').line _).line _).defer _).blank

theorem stands_writeAddressEnum (h : w.Stands style level)
    (hbound : level + style.indent < Literal.bound) (m : MemoryMap) (lead : String) (pad : Nat)
    (entries : List (Register × Nat)) :
    (writeAddressEnum m lead pad entries w).Stands style level :=
  (h.comment _).scope _ _ hbound fun _ hv => hv.writeLines _

end

end Output

end RegAtlas
