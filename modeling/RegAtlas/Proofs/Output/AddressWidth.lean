import RegAtlas.Proofs.Literal
import RegAtlas.Proofs.Output.PackageNames

/-!
# Address constants of VHDL packages

A package declares the address of every register of a map, those of memory blocks too. All
declarations have one width, the least of whole nibbles that holds every address, and a literal with
as many digits as the width has nibbles.
-/

namespace RegAtlas.VhdlPackage

open Output LineWriter

/-! ### The literals -/

/-- A constant that declares the address of a register in so many bits. -/
structure Constant.ShowsAddress (bits : Nat) (b : AddressBlock) (r : Register) (c : Constant) :
    Prop where
  name : c.name = Text.shoutingSnake r.name ++ "_ADR"
  type : c.type = "std_logic_vector(" ++ toString (bits - 1) ++ " downto 0)"
  value : ∃ digits : String, c.value = "x\"" ++ digits ++ "\"" ∧ digits.length = bits / 4 ∧
    Literal.Numeral 16 digits.toList (numberOf b.baseAddress + r.start)

theorem showsAddress_addressConstantOf {bits : Nat} {b : AddressBlock} {r : Register}
    (hbits : 4 ∣ bits ∧ 12 ≤ bits) (h : b.address r < 2 ^ bits) :
    (addressConstantOf bits r (b.address r)).ShowsAddress bits b r where
  name := rfl
  type := rfl
  value := by
    refine ⟨Text.hexUpper (bits / 4) (b.address r), rfl, ?_, Literal.numeral_hexUpper _ _⟩
    exact Literal.length_hexUpper (by omega) (Literal.sixteen_pow_div_four hbits.1 ▸ h)

/-! ### The constants of a map -/

/-- The registers of all blocks with their blocks, in the order of the constants. -/
def placedRegisters (m : MemoryMap) : List (AddressBlock × Register) :=
  m.blocks.flatMap fun b => b.registersInOrder.map fun r => (b, r)

theorem addressesOf_eq (m : MemoryMap) :
    addressesOf m = (placedRegisters m).map fun x => (x.2, x.1.address x.2) := by
  simp [addressesOf, placedRegisters, List.map_flatMap, Function.comp_def]

theorem mem_placedRegisters {m : MemoryMap} {x : AddressBlock × Register} :
    x ∈ placedRegisters m ↔ x.1 ∈ m.blocks ∧ x.2 ∈ x.1.registers := by
  simp only [placedRegisters, List.mem_flatMap, List.mem_map, AddressBlock.mem_registersInOrder]
  constructor
  · rintro ⟨b, hb, r, hr, rfl⟩
    exact ⟨hb, hr⟩
  · rintro ⟨hb, hr⟩
    exact ⟨x.1, hb, x.2, hr, rfl⟩

theorem shown_writeConstants (cs : List Constant) (w : LineWriter) :
    (writeConstants cs w).shown = w.shown ++ cs.map Constant.render := by
  simp [writeConstants]

/-- The declarations of a package begin with the addresses. -/
theorem declarations_of_content {o : OutputOptions} {m : MemoryMap} {cs : List Constant}
    {c : Content} (hcs : addressConstants m = .ok cs) (hc : content o m = .ok c) :
    (write o c).shown.filter IsDeclaration =
      (cs ++ c.blocks.flatMap fun b => b.registers.flatMap RegisterPart.constants).map
        Constant.render := by
  have haddresses : c.addresses = cs := by
    obtain ⟨-, rfl⟩ := (gives_content o m).eq_ok_iff.1 hc
    obtain ⟨-, rfl⟩ := (gives_addressConstants m).eq_ok_iff.1 hcs
    rfl
  rw [filter_isDeclaration_write, Content.constants, haddresses]

/-- Every register has one constant for its address, in the least width for all of them, and a
package begins with these constants. -/
theorem address_constants {m : MemoryMap} (h : AddressesDefined m) :
    ∃ (bits : Nat) (cs : List Constant) (placed : List (AddressBlock × Register)),
      IsLeast (addressWidths m) bits ∧ bits ≤ 64 ∧ addressConstants m = .ok cs ∧
      (∀ w, (writeConstants cs w).shown = w.shown ++ cs.map Constant.render) ∧
      (∀ o c, content o m = .ok c → (write o c).shown.filter IsDeclaration =
        (cs ++ c.blocks.flatMap fun b => b.registers.flatMap RegisterPart.constants).map
          Constant.render) ∧
      placed.Perm (m.blocks.flatMap fun b => b.registers.map fun r => (b, r)) ∧
      List.Forall₂ (fun x c => c.ShowsAddress bits x.1 x.2) placed cs := by
  have hleast := isLeast_addressBitsOf m
  refine ⟨addressBitsOf m, _, placedRegisters m, hleast, addressBitsOf_le h,
    (gives_addressConstants m).ok h, shown_writeConstants _,
    fun o c hc => declarations_of_content ((gives_addressConstants m).ok h) hc, ?_, ?_⟩
  · exact .flatMap_left _ fun b _ => (WordGroup.inOrder_perm _ _).map _
  · rw [addressesOf_eq, List.map_map, List.forall₂_map_right_iff, List.forall₂_same]
    intro x hx
    obtain ⟨hb, hr⟩ := mem_placedRegisters.1 hx
    obtain ⟨hnibbles, hmin, haddresses⟩ := hleast.1
    exact showsAddress_addressConstantOf ⟨hnibbles, hmin⟩ (haddresses x.1 hb x.2 hr)

/-- A map with a register block that ends at the last address of three nibbles, and a memory block
behind it. -/
def boundaryMap : MemoryMap where
  blocks := [
    { name := "regs", baseAddress := some (.ofText "0xFF0"), registers := [
      { name := "last", offset := some (.ofText "0xF") }] },
    { name := "ram", baseAddress := some (.ofText "4096"), usage := .memory, registers := [
      { name := "first", offset := some (.ofText "'h0") }] }]

theorem address_constants_boundaryMap : AddressesDefined boundaryMap ∧
    ∃ (cs : List Constant) (placed : List (AddressBlock × Register)),
      addressConstants boundaryMap = .ok cs ∧ placed.length = 2 ∧
      List.Forall₂ (fun x c => c.ShowsAddress 16 x.1 x.2) placed cs := by
  have hdefined : AddressesDefined boundaryMap := by decide
  obtain ⟨bits, cs, placed, hleast, -, hcs, -, -, hperm, hshows⟩ := address_constants hdefined
  have hbits : IsLeast (addressWidths boundaryMap) 16 := isLeast_addressBitsOf boundaryMap
  obtain rfl : bits = 16 := hleast.unique hbits
  exact ⟨hdefined, cs, placed, hcs, hperm.length_eq, hshows⟩

end RegAtlas.VhdlPackage
