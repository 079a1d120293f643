import RegAtlas.Plan.Reader
import RegAtlas.Proofs.Literal
import RegAtlas.Proofs.Output.HeaderClash
import RegAtlas.Proofs.Output.IndexLines
import RegAtlas.Proofs.Output.MaskLines

/-!
# Places in bit-field structs

The place of a field in the struct of an access word is not written anywhere: it is the sum of the
widths of the members before it. It is the first bit of the field if every field ends before the
next one begins.
-/

namespace RegAtlas

/-! ### Registers without overlap -/

/-- The fields of a register lie in it and do not overlap, and the register lies in one access word.
A field without bits counts as one bit. -/
@[mk_iff]
structure Register.Tidy (wordBytes : Nat) (r : Register) : Prop where
  offset : numberOf? r.offset ≠ none
  size : numberOf? r.size ≠ none
  inWord : r.start % wordBytes * 8 + numberOf r.size ≤ wordBytes * 8
  numbers : ∀ f ∈ r.fields, numberOf? f.offset ≠ none ∧ numberOf? f.width ≠ none
  inside : ∀ f ∈ r.fields, f.start + max f.count 1 ≤ numberOf r.size
  apart : r.fields.Pairwise fun f g =>
    f.start + max f.count 1 ≤ g.start ∨ g.start + max g.count 1 ≤ f.start

/-- The registers of a block are tidy and do not overlap. -/
@[mk_iff]
structure AddressBlock.Tidy (wordBytes : Nat) (b : AddressBlock) : Prop where
  registers : ∀ r ∈ b.registers, r.Tidy wordBytes
  apart : b.registers.Pairwise fun r s =>
    r.start * 8 + numberOf r.size ≤ s.start * 8 ∨ s.start * 8 + numberOf s.size ≤ r.start * 8

instance (wordBytes : Nat) (r : Register) : Decidable (r.Tidy wordBytes) :=
  decidable_of_iff' _ (Register.tidy_iff wordBytes r)

instance (wordBytes : Nat) (b : AddressBlock) : Decidable (b.Tidy wordBytes) :=
  decidable_of_iff' _ (AddressBlock.tidy_iff wordBytes b)

namespace CHeader

open WordGroup

/-! ### Places -/

/-- The fields of members, each with the sum of the widths of the members before it. -/
def placesFrom (place : Nat) : List Member → List (BitField × Nat)
  | [] => []
  | m :: ms => (m.field.map (·, place)).toList ++ placesFrom (place + m.width) ms

@[simp] theorem placesFrom_nil (place : Nat) : placesFrom place [] = [] := rfl

@[simp] theorem placesFrom_gap (place number width : Nat) (ms : List Member) :
    placesFrom place (.gap number width :: ms) = placesFrom (place + width) ms := rfl

@[simp] theorem placesFrom_ofSlot (place : Nat) (s : Slot) (ms : List Member) :
    placesFrom place (.ofSlot s :: ms) = (s.field, place) :: placesFrom (place + s.width) ms := rfl

/-- The slots end before the next ones begin. -/
def Ascending (slots : List Slot) : Prop :=
  slots.Pairwise fun s t => s.position + s.width ≤ t.position

/-- As long as the fields are placed at their positions, the place is the first bit that is not yet
taken. -/
theorem placesFrom_membersFromOf_iff {wordWidth next gaps : Nat} {slots : List Slot}
    (h : ∀ s ∈ slots, s.position + s.width < Literal.bound) :
    placesFrom next (membersFromOf wordWidth next gaps slots) =
        slots.map (fun s => (s.field, s.position)) ↔
      (∀ s ∈ slots, next ≤ s.position) ∧ Ascending slots := by
  induction slots generalizing next gaps with
  | nil =>
    unfold membersFromOf Ascending
    split <;> simp
  | cons s slots ih =>
    rw [List.forall_mem_cons] at h
    have hstop : s.stop = s.position + s.width := by
      unfold Slot.stop Bounded.addSaturating
      omega
    have hrest : ∀ gaps', (placesFrom (s.position + s.width)
          (membersFromOf wordWidth (s.position + s.width) gaps' slots) =
          slots.map fun s => (s.field, s.position)) ↔ Ascending (s :: slots) := fun gaps' => by
      rw [ih h.2, Ascending, Ascending, List.pairwise_cons]
    have hnext : next ≤ s.position → Ascending (s :: slots) → ∀ t ∈ slots, next ≤ t.position := by
      intro hle hasc t ht
      have := (List.pairwise_cons.1 hasc).1 t ht
      omega
    unfold membersFromOf
    rw [List.forall_mem_cons, List.map_cons]
    split
    case isTrue hlt =>
      have hadd : next + (s.position - next) = s.position := by omega
      have hmax : max next s.stop = s.position + s.width := by omega
      simp only [placesFrom_gap, placesFrom_ofSlot, hadd, hmax, List.cons.injEq, true_and, hrest]
      exact ⟨fun hasc => ⟨⟨by omega, hnext (by omega) hasc⟩, hasc⟩, fun h => h.2⟩
    case isFalse hge =>
      rw [placesFrom_ofSlot, List.cons.injEq, Prod.mk.injEq]
      constructor
      · rintro ⟨⟨-, rfl⟩, hplaces⟩
        have hmax : max s.position s.stop = s.position + s.width := by omega
        rw [hmax, hrest] at hplaces
        exact ⟨⟨Nat.le_refl _, hnext (Nat.le_refl _) hplaces⟩, hplaces⟩
      · rintro ⟨⟨hle, -⟩, hasc⟩
        obtain rfl : next = s.position := by omega
        have hmax : max s.position s.stop = s.position + s.width := by omega
        rw [hmax, hrest]
        exact ⟨⟨rfl, rfl⟩, hasc⟩

/-- A struct places its fields at their positions if every slot ends before the next one begins. -/
theorem places_members_iff {wordWidth : Nat} {slots : List Slot}
    (h : ∀ s ∈ slots, s.position + s.width < Literal.bound) :
    placesFrom 0 (membersOf wordWidth slots) = slots.map (fun s => (s.field, s.position)) ↔
      Ascending slots := by
  simp [membersOf, placesFrom_membersFromOf_iff h]

/-! ### Groups -/

section Groups

variable {wordBytes : Nat} {b : AddressBlock} {r s : Register} {f : BitField} {g : List Register}

theorem bitStart_of_tidy (hr : r.Tidy wordBytes) (hf : f ∈ r.fields) :
    bitStart wordBytes r f = f.start + r.start % wordBytes * 8 := by
  have hinside := hr.inside f hf
  have hword := hr.inWord
  have hmax : max wordBytes 1 = wordBytes := by omega
  rw [bitStart, hmax]

theorem bitStart_add_count_le (hr : r.Tidy wordBytes) (hf : f ∈ r.fields) :
    bitStart wordBytes r f + max f.count 1 ≤ r.start % wordBytes * 8 + numberOf r.size := by
  have hinside := hr.inside f hf
  rw [bitStart_of_tidy hr hf]
  omega

/-- The fields of a register in order end before the next ones begin. -/
theorem ascending_fieldsInOrder (hr : r.Tidy wordBytes) : r.fieldsInOrder.Pairwise fun f g =>
    bitStart wordBytes r f + f.count ≤ bitStart wordBytes r g := by
  have happart := ((inOrder_perm BitField.start r.fields).pairwise_iff fun h => h.symm).2 hr.apart
  refine (List.pairwise_and_iff.2 ⟨pairwise_inOrder BitField.start r.fields, happart⟩).imp ?_
  rintro f g ⟨hle, hapart⟩
  simp only [bitStart]
  omega

/-- The fields of registers of one access word are apart as the registers are. -/
theorem apart_of_div_eq (hr : r.Tidy wordBytes) (hs : s.Tidy wordBytes)
    (hle : r.start ≤ s.start)
    (hapart : r.start * 8 + numberOf r.size ≤ s.start * 8 ∨
      s.start * 8 + numberOf s.size ≤ r.start * 8)
    (hword : r.start / wordBytes = s.start / wordBytes) :
    ∀ x ∈ r.fields, ∀ y ∈ s.fields,
      bitStart wordBytes r x + x.count ≤ bitStart wordBytes s y := by
  intro x hx y hy
  have hxin := bitStart_add_count_le hr hx
  have hyin := hs.inside y hy
  have hrdiv := Nat.div_add_mod r.start wordBytes
  have hsdiv := Nat.div_add_mod s.start wordBytes
  rw [hword] at hrdiv
  rw [bitStart_of_tidy hs hy]
  omega

/-- Registers of different words stand in the order of their bits. -/
def WordsInOrder (wordBytes : Nat) (g : List Register) : Prop :=
  g.Pairwise fun r s => r.start / wordBytes ≠ s.start / wordBytes →
    ∀ x ∈ r.fields, ∀ y ∈ s.fields, bitStart wordBytes r x + x.count ≤ bitStart wordBytes s y

theorem ascending_iff {slots : List Slot} : Ascending slots ↔
    (slots.map Slot.bits).Pairwise fun x y => x.2.1 + x.2.2 ≤ y.2.1 := by
  rw [List.pairwise_map]
  rfl

theorem ascending_slotsOf_iff (hb : b.Tidy wordBytes) (hg : g.Sublist b.registersInOrder) :
    Ascending (slotsOf wordBytes g) ↔ WordsInOrder wordBytes g := by
  have htidy : ∀ r ∈ g, r.Tidy wordBytes := fun r hr =>
    hb.registers r (AddressBlock.mem_registersInOrder.1 (hg.subset hr))
  have hperm := inOrder_perm Register.start b.registers
  have happart := (hperm.pairwise_iff fun h => h.symm).2 hb.apart
  have hpairs := (List.pairwise_and_iff.2
    ⟨pairwise_inOrder Register.start b.registers, happart⟩).sublist hg
  rw [ascending_iff, map_bits_slotsOf, List.pairwise_flatMap]
  simp only [List.pairwise_map, List.forall_mem_map, Register.mem_fieldsInOrder]
  constructor
  · rintro ⟨-, hall⟩
    refine hall.imp ?_
    intro r s h _
    exact h
  · intro hwords
    refine ⟨fun r hr => ascending_fieldsInOrder (htidy r hr), ?_⟩
    refine (hpairs.and hwords).imp_of_mem ?_
    rintro r s hr hs ⟨⟨hle, hapart⟩, hwords⟩
    by_cases hword : r.start / wordBytes = s.start / wordBytes
    · exact apart_of_div_eq (htidy r hr) (htidy s hs) hle hapart hword
    · exact hwords hword

theorem sublist_registersInOrder (hg : g ∈ groupBy wordBytes Register.start b.registers) :
    g.Sublist b.registersInOrder := by
  have h := List.sublist_flatten_of_mem hg
  rwa [flatten_groupBy] at h

/-- The fields of a tidy register have bits. -/
theorem bitsDefined_of_tidy (hr : r.Tidy wordBytes) (hbound : wordBytes * 8 < Literal.bound)
    (hf : f ∈ r.fields) : BitsDefined wordBytes r f := by
  have hin := bitStart_add_count_le hr hf
  have hword := hr.inWord
  refine ⟨hr.offset, (hr.numbers f hf).1, (hr.numbers f hf).2, ?_⟩
  rw [bitLast]
  omega

theorem slot_lt_bound (htidy : ∀ r ∈ g, r.Tidy wordBytes) (hbound : wordBytes * 8 < Literal.bound) :
    ∀ s ∈ slotsOf wordBytes g, s.position + s.width < Literal.bound := by
  intro s hs
  have hbits : s.bits ∈ (slotsOf wordBytes g).map Slot.bits := List.mem_map_of_mem hs
  rw [map_bits_slotsOf] at hbits
  simp only [List.mem_flatMap, List.mem_map, Register.mem_fieldsInOrder] at hbits
  obtain ⟨r, hr, f, hf, heq⟩ := hbits
  simp only [Slot.bits, Prod.mk.injEq] at heq
  have hin := bitStart_add_count_le (htidy r hr) hf
  have hword := (htidy r hr).inWord
  omega

/-- The masks show the positions of the slots. -/
theorem map_low_masksOf (wordBytes : Nat) (g : List Register) :
    (KernelHeader.masksOf wordBytes g).map (fun k => (k.field, k.low)) =
      (slotsOf wordBytes g).map fun s => (s.field, s.position) := by
  have hmasks := congrArg (List.map fun x : BitField × Nat × Nat => (x.1, x.2.1))
    (KernelHeader.map_bits_masksOf wordBytes g)
  have hslots := congrArg (List.map fun x : BitField × Nat × Nat => (x.1, x.2.1))
    (map_bits_slotsOf wordBytes g)
  rw [List.map_map, List.map_flatMap] at hmasks hslots
  simp only [List.map_map] at hmasks hslots
  exact hmasks.trans hslots.symm

theorem wordsInOrder_of_div_eq
    (h : ∀ r ∈ g, ∀ s ∈ g, r.start / wordBytes = s.start / wordBytes) : WordsInOrder wordBytes g :=
  List.pairwise_of_forall_mem_list fun r hr s hs hne => absurd (h r hr s hs) hne

end Groups

/-! ### Word boundaries -/

section Boundary

variable {wordBytes : Nat}

/-- A field of one byte. -/
def byteField : BitField where
  offset := some (.ofText "0")
  width := some (.ofText "8")

/-- A register of one byte that is one field. -/
def byteRegister (offset : Nat) : Register where
  offset := some (.ofText offset.repr)
  size := some (.ofText "8")
  fields := [byteField]

/-- Bytes on both sides of a word boundary. -/
def boundaryBlock (wordBytes : Nat) : AddressBlock where
  registers := [byteRegister (2 * wordBytes - 1), byteRegister (2 * wordBytes)]

theorem numberOf?_ofText_repr {n : Nat} (h : n < Literal.bound) :
    numberOf? (some (.ofText n.repr)) = some n := by
  rw [numberOf?, Option.bind_some, Reference.number?]
  exact Literal.parse?_repr h

theorem start_byteRegister {n : Nat} (h : n < Literal.bound) : (byteRegister n).start = n := by
  rw [Register.start, byteRegister, numberOf, numberOf?_ofText_repr h, Option.getD_some]

theorem size_byteRegister (n : Nat) : numberOf? (byteRegister n).size = some 8 := by
  have : numberOf? (some (.ofText "8")) = some 8 := by decide
  exact this

theorem tidy_byteRegister {n : Nat} (h : n < Literal.bound) (hpos : 0 < wordBytes) :
    (byteRegister n).Tidy wordBytes where
  offset := by simp [byteRegister, numberOf?_ofText_repr h]
  size := by simp [size_byteRegister]
  inWord := by
    have hlt := Nat.mod_lt (byteRegister n).start hpos
    rw [numberOf, size_byteRegister, Option.getD_some]
    omega
  numbers := by
    simp only [byteRegister, List.mem_singleton, forall_eq]
    decide
  inside := by
    simp only [numberOf, byteRegister, List.mem_singleton, forall_eq]
    decide
  apart := by simp [byteRegister]

theorem tidy_boundaryBlock (hpos : 0 < wordBytes) (hbound : wordBytes * 8 < Literal.bound) :
    (boundaryBlock wordBytes).Tidy wordBytes where
  registers := by
    simp only [boundaryBlock, List.forall_mem_cons, List.not_mem_nil, false_implies, implies_true]
    exact ⟨tidy_byteRegister (by omega) hpos, tidy_byteRegister (by omega) hpos, trivial⟩
  apart := by
    have hbefore := start_byteRegister (n := 2 * wordBytes - 1) (by omega)
    have hbehind := start_byteRegister (n := 2 * wordBytes) (by omega)
    simp only [boundaryBlock, List.pairwise_pair, numberOf, size_byteRegister,
      Option.getD_some, hbefore, hbehind]
    omega

/-- A window that begins at a multiple of four holds both sides of the boundary, unless the boundary
is itself a multiple of four and a window away. -/
theorem groupBy_boundaryBlock (hpos : 0 < wordBytes) (hdvd : ¬ wordBytes ∣ 4)
    (hbound : wordBytes * 8 < Literal.bound) :
    groupBy wordBytes Register.start (boundaryBlock wordBytes).registers =
      [(boundaryBlock wordBytes).registers] := by
  have hlast : Literal.bound = maxOffset + 1 := rfl
  have hbefore := start_byteRegister (n := 2 * wordBytes - 1) (by omega)
  have hbehind := start_byteRegister (n := 2 * wordBytes) (by omega)
  symm
  rw [← isGrouping_iff (by omega)]
  refine ⟨⟨by simp, ?_, by simp⟩, fillsWindows_cons.2 ⟨?_, by simp, fillsWindows_nil⟩⟩
  · simp only [boundaryBlock, List.flatten_cons, List.flatten_nil, List.append_nil,
      List.pairwise_pair, hbefore, hbehind]
    omega
  · have hmod : wordBytes ≠ 1 ∧ wordBytes ≠ 2 ∧ wordBytes ≠ 4 := by
      refine ⟨?_, ?_, ?_⟩ <;> rintro rfl <;> omega
    have hmax : max wordBytes 1 = wordBytes := by omega
    simp only [List.mem_singleton, forall_eq, groupLow, windowStart, windowEnd, hbefore, hbehind,
      hmax]
    split <;> omega

theorem not_wordsInOrder_boundaryBlock (hpos : 0 < wordBytes)
    (hbound : wordBytes * 8 < Literal.bound) :
    ¬ WordsInOrder wordBytes (boundaryBlock wordBytes).registers := by
  have hbefore := start_byteRegister (n := 2 * wordBytes - 1) (by omega)
  have hbehind := start_byteRegister (n := 2 * wordBytes) (by omega)
  have hmax : max wordBytes 1 = wordBytes := by omega
  have hdiv : (2 * wordBytes - 1) / wordBytes = 1 := Nat.div_eq_of_lt_le (by omega) (by omega)
  have hmod := Nat.div_add_mod (2 * wordBytes - 1) wordBytes
  have hfield : byteField.start = 0 ∧ byteField.count = 8 := by decide
  have hmem : ∀ n, byteField ∈ (byteRegister n).fields := by simp [byteRegister]
  rw [WordsInOrder, boundaryBlock, List.pairwise_pair, hbefore, hbehind, hdiv,
    Nat.mul_div_cancel _ hpos]
  intro h
  have hle := h (by decide) byteField (hmem _) byteField (hmem _)
  rw [hdiv] at hmod
  rw [bitStart, bitStart, hbefore, hbehind, hmax, hfield.1, hfield.2, Nat.mul_mod_left] at hle
  omega

end Boundary

/-! ### Agreement with masks and index constants -/

theorem isWordWidth_iff {o : OutputOptions} :
    Plan.isWordWidth o.wordWidth ↔ 0 < o.wordBytes ∧ o.wordBytes * 8 = o.wordWidth := by
  simp only [Plan.isWordWidth, OutputOptions.wordBytes, Bool.and_eq_true, bne_iff_ne, beq_iff_eq]
  omega

/-- What the generated texts show of registers that share an access word: the lines of a header have
the members of the struct, those of a kernel header the masks, and those of a package the natural
constants of the ranges. -/
structure Shown (o : OutputOptions) (g : List Register) (slots : List Slot) (ms : List Member)
    (masks : List KernelHeader.Mask) (ranges : List (List VhdlPackage.FieldRange)) : Prop where
  slots_ok : CHeader.slots o.wordBytes g = .ok slots
  members_ok : members o.wordWidth slots = .ok ms
  struct : ∀ word, CHeader.word o g = .ok word → ∀ w, Outside w →
    bitFields (writeWord o w word) = bitFields w ++ [ms.map fun m => (m.name, m.width)]
  masks_ok : KernelHeader.wordMasks o.wordBytes g = .ok masks
  defines : ∀ word, KernelHeader.word o.wordBytes g = .ok word →
    ∀ w : LineWriter, w.style.commentChar = '/' →
      KernelHeader.masks (KernelHeader.writeWord w word) =
        KernelHeader.masks w ++ masks.map KernelHeader.Mask.definition
  ranges_ok : (g.mapM fun r => do
    (← r.sortedFields).mapM (VhdlPackage.fieldRange o.wordBytes r)) = .ok ranges
  declares : ∀ parts, g.mapM (VhdlPackage.registerPart o.wordBytes) = .ok parts →
    ∀ w : LineWriter, w.style.commentChar = '-' →
      VhdlPackage.naturals (parts.foldl VhdlPackage.writeRegister w) =
        VhdlPackage.naturals w ++ ranges.flatten.flatMap VhdlPackage.FieldRange.naturals
  same_bits : masks.map KernelHeader.Mask.bits = ranges.flatten.map VhdlPackage.FieldRange.bits

/-- The struct of registers that share an access word places their fields at the bits that their
masks show. -/
def PlacesAgree (o : OutputOptions) (g : List Register) : Prop :=
  ∀ slots ms masks, CHeader.slots o.wordBytes g = .ok slots → members o.wordWidth slots = .ok ms →
    KernelHeader.wordMasks o.wordBytes g = .ok masks →
    placesFrom 0 ms = masks.map fun k => (k.field, k.low)

section Agreement

variable {o : OutputOptions} {b : AddressBlock} {g : List Register}

theorem shown_of_tidy (htidy : ∀ r ∈ g, r.Tidy o.wordBytes)
    (hbound : o.wordBytes * 8 < Literal.bound) :
    Shown o g (slotsOf o.wordBytes g) (wordOf o g).members (KernelHeader.masksOf o.wordBytes g)
      (g.map fun r => r.fieldsInOrder.map (VhdlPackage.fieldRangeOf o.wordBytes r)) := by
  have hdefined : ∀ r ∈ g, ∀ f ∈ r.fields, BitsDefined o.wordBytes r f := fun r hr f hf =>
    bitsDefined_of_tidy (htidy r hr) hbound hf
  refine ⟨(gives_slots o.wordBytes g).ok fun r hr f hf => ?_, members_eq _ _, fun word hword w hw =>
    ?_, (KernelHeader.gives_wordMasks o.wordBytes g).ok hdefined, fun word hword w hmark => ?_,
    (Gives.mapM fun r _ => VhdlPackage.gives_ranges o.wordBytes r).ok hdefined,
    fun parts hparts w hmark => ?_, ?_⟩
  · have hbits := hdefined r hr f hf
    exact ⟨(bitsDefined_iff.2 hbits).1, hbits.2.2.1⟩
  · obtain ⟨-, rfl⟩ := (gives_word o g).eq_ok_iff.1 hword
    exact bitFields_writeWord o (plain_wordOf o g) hw
  · obtain ⟨-, rfl⟩ := (KernelHeader.gives_word o.wordBytes g).eq_ok_iff.1 hword
    exact KernelHeader.masks_writeWord (KernelHeader.plain_masksOf o.wordBytes g) hmark
  · obtain ⟨-, rfl⟩ :=
      (Gives.mapM fun r _ => VhdlPackage.gives_registerPart o.wordBytes r).eq_ok_iff.1 hparts
    rw [VhdlPackage.naturals_writeRegisters _ _ hmark, ← List.flatMap_def, List.flatMap_assoc]
    rfl
  · rw [KernelHeader.map_bits_masksOf, List.map_flatten, List.map_map]
    simp only [Function.comp_def, List.map_map]
    rfl

theorem placesAgree_iff (htidy : ∀ r ∈ g, r.Tidy o.wordBytes)
    (hbound : o.wordBytes * 8 < Literal.bound) :
    PlacesAgree o g ↔ Ascending (slotsOf o.wordBytes g) := by
  have hshown := shown_of_tidy htidy hbound
  rw [← places_members_iff (slot_lt_bound htidy hbound), ← map_low_masksOf]
  constructor
  · exact fun h => h _ _ _ hshown.slots_ok hshown.members_ok hshown.masks_ok
  · rintro h slots ms masks hslots hms hmasks
    obtain rfl : slotsOf o.wordBytes g = slots := by simpa [hshown.slots_ok] using hslots
    obtain rfl : (wordOf o g).members = ms := by simpa [hshown.members_ok] using hms
    obtain rfl : KernelHeader.masksOf o.wordBytes g = masks := by
      simpa [hshown.masks_ok] using hmasks
    exact h

/-- The texts show every group of registers of a tidy block. Its struct agrees with its masks
exactly when the registers of different words stand in the order of their bits. -/
theorem group_places (hb : b.Tidy o.wordBytes) (hbound : o.wordBytes * 8 < Literal.bound)
    (hg : g ∈ groupBy o.wordBytes Register.start b.registers) :
    (∃ slots ms masks ranges, Shown o g slots ms masks ranges) ∧
      (PlacesAgree o g ↔ WordsInOrder o.wordBytes g) := by
  have hsub := sublist_registersInOrder hg
  have htidy : ∀ r ∈ g, r.Tidy o.wordBytes := fun r hr =>
    hb.registers r (AddressBlock.mem_registersInOrder.1 (hsub.subset hr))
  exact ⟨⟨_, _, _, _, shown_of_tidy htidy hbound⟩,
    (placesAgree_iff htidy hbound).trans (ascending_slotsOf_iff hb hsub)⟩

end Agreement

/-- With words of one, two or four bytes no struct holds registers of different words. With all
others there is a struct against the order of bits. -/
theorem forall_wordsInOrder_iff {wordBytes : Nat} (hpos : 0 < wordBytes)
    (hbound : wordBytes * 8 < Literal.bound) :
    (∀ b : AddressBlock, b.usage ≠ .memory → b.Tidy wordBytes →
      ∀ g ∈ groupBy wordBytes Register.start b.registers, WordsInOrder wordBytes g) ↔
      wordBytes ∣ 4 := by
  constructor
  · intro h
    by_contra hdvd
    have hmem : (boundaryBlock wordBytes).usage ≠ .memory := by simp [boundaryBlock]
    refine not_wordsInOrder_boundaryBlock hpos hbound
      (h _ hmem (tidy_boundaryBlock hpos hbound) _ ?_)
    rw [groupBy_boundaryBlock hpos hdvd hbound]
    exact List.mem_singleton_self _
  · intro hdvd b _ _ g hg
    exact wordsInOrder_of_div_eq fun r hr s hs => div_eq_of_mem_group hdvd hg hr hs

/-- The structs of blocks without overlap against the masks and index constants of their fields:
the texts show every group of registers; its struct agrees with its masks exactly when the registers
of different words stand in the order of their bits; and all structs agree for words of one, two or
four bytes, and for no others. -/
theorem struct_places {o : OutputOptions} (hwidth : Plan.isWordWidth o.wordWidth)
    (hbound : o.wordWidth < Plan.widthBound) :
    (∀ b : AddressBlock, b.Tidy o.wordBytes →
      ∃ groups, registers o.wordBytes b.registers = .ok groups ∧ ∀ g ∈ groups,
        (∃ slots ms masks ranges, Shown o g slots ms masks ranges) ∧
        (PlacesAgree o g ↔ WordsInOrder o.wordBytes g)) ∧
    ((∀ (b : AddressBlock) (groups : List (List Register)), b.usage ≠ .memory →
      b.Tidy o.wordBytes → registers o.wordBytes b.registers = .ok groups →
      ∀ g ∈ groups, PlacesAgree o g) ↔ o.wordWidth ∣ 32) := by
  obtain ⟨hpos, hbits⟩ := isWordWidth_iff.1 hwidth
  have hbound' : o.wordBytes * 8 < Literal.bound := by
    rw [hbits]
    exact Nat.lt_trans hbound (by decide)
  have hgroups : ∀ b : AddressBlock, b.Tidy o.wordBytes → registers o.wordBytes b.registers =
      .ok (groupBy o.wordBytes Register.start b.registers) := fun b hb =>
    (gives_registers _ _).ok fun r hr => (hb.registers r hr).offset
  refine ⟨fun b hb => ⟨_, hgroups b hb, fun g hg => group_places hb hbound' hg⟩, ?_⟩
  have hdvd : o.wordWidth ∣ 32 ↔ o.wordBytes ∣ 4 := by
    have hbytes : 32 = 4 * 8 := rfl
    rw [← hbits, hbytes, Nat.mul_dvd_mul_iff_right (by decide)]
  rw [hdvd, ← forall_wordsInOrder_iff hpos hbound']
  constructor
  · intro h b hmem hb g hg
    exact (group_places hb hbound' hg).2.1 (h b _ hmem hb (hgroups b hb) g hg)
  · intro h b groups hmem hb hok g hg
    obtain rfl : groupBy o.wordBytes Register.start b.registers = groups := by
      simpa [hgroups b hb] using hok
    exact (group_places hb hbound' hg).2.2 (h b hmem hb g hg)

theorem struct_places_narrow : Plan.isWordWidth 32 ∧ 32 < Plan.widthBound ∧
    (boundaryBlock 4).Tidy 4 ∧ ∀ groups, registers 4 (boundaryBlock 4).registers = .ok groups →
      ∀ g ∈ groups, PlacesAgree { name := "regs" } g := by
  have htidy : (boundaryBlock 4).Tidy 4 := by decide
  have h := struct_places (o := { name := "regs" }) (by decide) (by decide)
  exact ⟨by decide, by decide, htidy, fun groups => h.2.2 (by decide) _ groups (by decide) htidy⟩

/-- With words of eight bytes, the registers on both sides of a boundary share a struct, which
places the field behind the boundary at bit 64 of the word. Its mask shows bit 0. -/
theorem struct_places_wide : Plan.isWordWidth 64 ∧ 64 < Plan.widthBound ∧
    (boundaryBlock 8).usage ≠ .memory ∧ (boundaryBlock 8).Tidy 8 ∧
    registers 8 (boundaryBlock 8).registers = .ok [(boundaryBlock 8).registers] ∧
    (do return placesFrom 0 (← members 64 (← slots 8 (boundaryBlock 8).registers))) =
      .ok [(byteField, 56), (byteField, 64)] ∧
    (KernelHeader.wordMasks 8 (boundaryBlock 8).registers).map
      (fun masks => masks.map fun k => (k.field, k.low)) =
      .ok [(byteField, 56), (byteField, 0)] := by
  exact ⟨by decide, by decide, by decide, by decide, by cbv, by cbv, by cbv⟩

end CHeader

end RegAtlas
