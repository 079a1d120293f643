import RegAtlas.Proofs.Output.Agreement

/-!
# Maps that texts are generated for

Both headers and the package of a memory map need the same numbers: the addresses of its registers,
the bits of its fields and their values. Each text also fails for what is too long for a format: the
names that a header pads to one width, and the literals of a package. The headers show no values in
bits and the package pads no names, so that one text can fail for this where the others do not.
-/

namespace RegAtlas.Output

variable {c : Component} {oc ok ov : OutputOptions}

/-! ### Numbers -/

/-- Every register has an address, and every field outside of memories has bits and values. -/
structure Numbered (wordBytes : Nat) (m : MemoryMap) : Prop where
  addresses : AddressesDefined m
  bits : EveryField m (WordGroup.BitsDefined wordBytes)
  values : EveryField m fun _ f => f.ValuesDefined

/-- What keeps the addresses or the bits of a map from being defined. -/
theorem not_defined_iff {wordBytes : Nat} {m : MemoryMap} :
    ¬ (AddressesDefined m ∧ EveryField m (WordGroup.BitsDefined wordBytes)) ↔
      (∃ b ∈ m.blocks, ∃ r ∈ b.registers, numberOf? r.offset = none ∨
        numberOf? b.baseAddress = none ∨ Literal.bound ≤ b.address r) ∨
      ∃ b ∈ m.blocks, b.usage ≠ .memory ∧ ∃ r ∈ b.registers, ∃ f ∈ r.fields,
        numberOf? f.offset = none ∨ numberOf? f.width = none ∨
          Literal.bound ≤ WordGroup.bitLast wordBytes r f := by
  by_cases haddr : AddressesDefined m
  · have hno : ¬ ∃ b ∈ m.blocks, ∃ r ∈ b.registers, ¬ b.AddressDefined r := by
      simpa [AddressesDefined] using haddr
    simp only [← AddressBlock.not_addressDefined_iff, hno, haddr, true_and, false_or, EveryField,
      not_forall, mem_registerBlocks]
    constructor
    · rintro ⟨b, ⟨hb, husage⟩, r, hr, f, hf, hnot⟩
      have hbits := (WordGroup.not_bitsDefined_iff (haddr b hb r hr).2.1).1 hnot
      exact ⟨b, hb, husage, r, hr, f, hf, hbits⟩
    · rintro ⟨b, hb, husage, r, hr, f, hf, hbits⟩
      have hnot := (WordGroup.not_bitsDefined_iff (haddr b hb r hr).2.1).2 hbits
      exact ⟨b, ⟨hb, husage⟩, r, hr, f, hf, hnot⟩
  · have hsome : ∃ b ∈ m.blocks, ∃ r ∈ b.registers, ¬ b.AddressDefined r := by
      simpa [AddressesDefined] using haddr
    simp only [← AddressBlock.not_addressDefined_iff, hsome, haddr, false_and, not_false_eq_true,
      true_or]

/-! ### Formats -/

/-- The names that a C header pads are short enough, and so is the indentation of its structs. -/
structure HeaderFits (o : OutputOptions) (m : MemoryMap) : Prop where
  addresses : Short (addressNames o.lead m)
  members : ∀ g ∈ groupsOf o.wordBytes m,
    2 * o.style.indent < Literal.bound ∧ Short (CHeader.memberNames o g)

/-- The names that a kernel header pads are short enough. -/
structure KernelHeaderFits (o : OutputOptions) (m : MemoryMap) : Prop where
  addresses : Short (addressNames o.lead m)
  masks : ∀ g ∈ groupsOf o.wordBytes m, Short (KernelHeader.maskNames o.wordBytes g)

/-- The values of fields have literals that are short enough. -/
def PackageFits (m : MemoryMap) : Prop := EveryField m fun _ f => VhdlPackage.ValuesFit f

theorem defined_package_iff {wordBytes : Nat} {m : MemoryMap} :
    VhdlPackage.Defined wordBytes m ↔ Numbered wordBytes m ∧ PackageFits m := by
  constructor
  · rintro ⟨haddr, hfields⟩
    exact ⟨⟨haddr, fun b hb r hr f hf => (hfields b hb r hr f hf).1,
      fun b hb r hr f hf => (hfields b hb r hr f hf).2.1⟩,
      fun b hb r hr f hf => (hfields b hb r hr f hf).2.2⟩
  · rintro ⟨h, hfits⟩
    exact ⟨h.addresses, fun b hb r hr f hf =>
      ⟨h.bits b hb r hr f hf, h.values b hb r hr f hf, hfits b hb r hr f hf⟩⟩

theorem defined_kernelHeader_iff {m : MemoryMap} : KernelHeader.Defined ok m ↔
    (AddressesDefined m ∧ EveryField m (WordGroup.BitsDefined ok.wordBytes)) ∧
      KernelHeaderFits ok m :=
  ⟨fun h => ⟨⟨h.addresses, h.fields⟩, h.names, h.words⟩,
    fun ⟨⟨haddr, hbits⟩, h⟩ => ⟨haddr, h.addresses, hbits, h.masks⟩⟩

/-- What keeps a kernel header from having a content. -/
theorem not_defined_kernelHeader_iff {m : MemoryMap} : ¬ KernelHeader.Defined ok m ↔
    (∃ b ∈ m.blocks, ∃ r ∈ b.registers, numberOf? r.offset = none ∨
      numberOf? b.baseAddress = none ∨ Literal.bound ≤ b.address r) ∨
    (∃ b ∈ m.blocks, b.usage ≠ .memory ∧ ∃ r ∈ b.registers, ∃ f ∈ r.fields,
      numberOf? f.offset = none ∨ numberOf? f.width = none ∨
        Literal.bound ≤ WordGroup.bitLast ok.wordBytes r f) ∨
    ¬ KernelHeaderFits ok m := by
  rw [defined_kernelHeader_iff, not_and_or, not_defined_iff, or_assoc]

/-- Both headers together need the numbers that the package needs. -/
theorem defined_headers_iff {m : MemoryMap} (hk : ok.SameMap oc) :
    CHeader.Defined oc m ∧ KernelHeader.Defined ok m ↔
      Numbered oc.wordBytes m ∧ HeaderFits oc m ∧ KernelHeaderFits ok m := by
  constructor
  · rintro ⟨hc, hk'⟩
    exact ⟨⟨hc.addresses, hk.wordBytes ▸ hk'.fields,
      fun b hb r hr f hf => (hc.fields b hb r hr f hf).2⟩, ⟨hc.names, hc.words⟩,
      ⟨hk'.names, hk'.words⟩⟩
  · rintro ⟨h, hc, hk'⟩
    refine ⟨⟨h.addresses, hc.addresses, fun b hb r hr f hf => ?_, hc.members⟩,
      ⟨h.addresses, hk'.addresses, hk.wordBytes ▸ h.bits, hk'.masks⟩⟩
    have hbits := h.bits b hb r hr f hf
    exact ⟨⟨(WordGroup.bitsDefined_iff.2 hbits).1, hbits.2.2.1⟩, h.values b hb r hr f hf⟩

/-! ### Acceptance -/

/-- The package is generated for a map with numbers in short literals, and both headers are for a
map with numbers and short names. Without such a length the package is generated if both headers
are. A kernel header also fails for the lengths of its names alone. -/
theorem generated_exact (hk : ok.SameMap oc) (hv : ov.SameMap oc)
    (hc : oc.style.indent < Literal.bound) (hindent : ok.style.indent < Literal.bound)
    (hindent' : ov.style.indent < Literal.bound) :
    ((∃ package, VhdlPackage.generate ov c = .ok package) ↔
      ∃ m, c.memoryMap? oc.memoryMap = some m ∧ Numbered oc.wordBytes m ∧ PackageFits m) ∧
    ((∃ header, CHeader.generate oc c = .ok header) ∧
        (∃ header, KernelHeader.generate ok c = .ok header) ↔
      ∃ m, c.memoryMap? oc.memoryMap = some m ∧ Numbered oc.wordBytes m ∧
        HeaderFits oc m ∧ KernelHeaderFits ok m) ∧
    ((∃ e, KernelHeader.generate ok c = .error e) ↔
      c.memoryMap? ok.memoryMap = none ∨ ∃ m, c.memoryMap? ok.memoryMap = some m ∧
        ((∃ b ∈ m.blocks, ∃ r ∈ b.registers, numberOf? r.offset = none ∨
          numberOf? b.baseAddress = none ∨ Literal.bound ≤ b.address r) ∨
        (∃ b ∈ m.blocks, b.usage ≠ .memory ∧ ∃ r ∈ b.registers, ∃ f ∈ r.fields,
          numberOf? f.offset = none ∨ numberOf? f.width = none ∨
            Literal.bound ≤ WordGroup.bitLast ok.wordBytes r f) ∨
        ¬ KernelHeaderFits ok m)) := by
  refine ⟨?_, ?_, ?_⟩
  · simp only [VhdlPackage.generate_eq_ok_iff hindent', hv.memoryMap, hv.wordBytes,
      defined_package_iff]
    exact ⟨fun ⟨_, m, hm, h, _⟩ => ⟨m, hm, h⟩, fun ⟨m, hm, h⟩ => ⟨_, m, hm, h, rfl⟩⟩
  · simp only [CHeader.generate_eq_ok_iff hc, KernelHeader.generate_eq_ok_iff hindent,
      hk.memoryMap, ← defined_headers_iff hk]
    constructor
    · rintro ⟨⟨_, m, hm, hheader, -⟩, _, m', hm', hkernelHeader, -⟩
      obtain rfl : m = m' := by simpa [hm] using hm'
      exact ⟨m, hm, hheader, hkernelHeader⟩
    · exact fun ⟨m, hm, hheader, hkernelHeader⟩ =>
        ⟨⟨_, m, hm, hheader, rfl⟩, _, m, hm, hkernelHeader, rfl⟩
  · rw [exists_error_iff]
    simp only [KernelHeader.generate_eq_ok_iff hindent, ← not_defined_kernelHeader_iff]
    cases c.memoryMap? ok.memoryMap <;> simp

theorem generated_exact_sample :
    let c : Component := { memoryMaps := [sampleMap] }
    let o : OutputOptions := { name := "regs" }
    (∃ package, VhdlPackage.generate { o with lead := "p" } c = .ok package) ∧
      ∃ e, KernelHeader.generate { o with memoryMap := some "io" } c = .error e := by
  intro c o
  have hnumbers : Numbered o.wordBytes sampleMap ∧ PackageFits sampleMap :=
    defined_package_iff.1 (by decide +kernel)
  have hindent : o.style.indent < Literal.bound := by decide
  let other : OutputOptions := { o with memoryMap := some "io" }
  have hpackage := @generated_exact c o o { o with lead := "p" } ⟨rfl, rfl⟩ ⟨rfl, rfl⟩
    hindent hindent hindent
  have hkernelHeader := @generated_exact c other other other ⟨rfl, rfl⟩ ⟨rfl, rfl⟩
    hindent hindent hindent
  exact ⟨hpackage.1.2 ⟨sampleMap, rfl, hnumbers⟩, hkernelHeader.2.2.2 (.inl (by decide))⟩

/-! ### Literals that are too long -/

/-- A map with a field of 65537 bits that has a reset value. -/
def wideMap : MemoryMap where
  blocks := [
    { name := "block", baseAddress := some (.ofText "0"), registers := [
      { name := "wide", offset := some (.ofText "0"), size := some (.ofText "32"), fields := [
        { name := "field", offset := some (.ofText "0"), width := some (.ofText "65537")
          resets := [{ value := some (.ofText "1") }] }] }] }]

/-- Both headers are generated, and the package is not: the literal of the reset value has more
digits than a format can have. -/
theorem wide_literal_refused :
    let c : Component := { memoryMaps := [wideMap] }
    let o : OutputOptions := { name := "regs" }
    (∃ header, CHeader.generate o c = .ok header) ∧
      (∃ header, KernelHeader.generate o c = .ok header) ∧
      VhdlPackage.generate o c = .error (.fault .outOfRange) := by
  intro c o
  have hindent : o.style.indent < Literal.bound := by decide
  refine ⟨⟨_, (CHeader.generate_eq_ok_iff hindent).2 ⟨wideMap, rfl, by decide +kernel, rfl⟩⟩,
    ⟨_, (KernelHeader.generate_eq_ok_iff hindent).2 ⟨wideMap, rfl, by decide +kernel, rfl⟩⟩, ?_⟩
  decide +kernel

end RegAtlas.Output
