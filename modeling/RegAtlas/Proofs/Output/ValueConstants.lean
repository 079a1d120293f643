import Mathlib.Data.List.Flatten
import RegAtlas.Proofs.Literal
import RegAtlas.Proofs.Output.PackageNames

/-!
# Value constants of VHDL packages

A package declares a constant for every enumerated value and for every reset value of a field, with
the type of the field. A number that the field can hold has a literal of just its bits, and is read
back from it. Larger numbers are not refused: a vector literal then has too many digits, and a
single bit shows the lowest bit of the number alone.
-/

namespace RegAtlas.VhdlPackage

open Output Text

/-! ### Literals for bits -/

/-- The literals for a number in so many bits: a character for one bit, hexadecimal digits for whole
nibbles, binary digits otherwise. -/
inductive BitsLiteral : Nat → Nat → String → Prop
  | bit {n : Nat} {digits : String} (hlength : digits.length = 1)
      (hdigits : Literal.Numeral 2 digits.toList n) : BitsLiteral 1 n ("'" ++ digits ++ "'")
  | nibbles {width n : Nat} {digits : String} (hwidth : 4 ∣ width)
      (hlength : digits.length = width / 4) (hdigits : Literal.Numeral 16 digits.toList n) :
      BitsLiteral width n ("x\"" ++ digits ++ "\"")
  | binary {width n : Nat} {digits : String} (hwidth : 1 < width) (hnibbles : ¬ 4 ∣ width)
      (hlength : digits.length = width) (hdigits : Literal.Numeral 2 digits.toList n) :
      BitsLiteral width n ("\"" ++ digits ++ "\"")

/-- No literal has more bits than its width. -/
theorem BitsLiteral.lt {width n : Nat} {literal : String} (h : BitsLiteral width n literal) :
    n < 2 ^ width := by
  cases h with
  | bit hlength hdigits =>
    rw [← hlength]
    exact hdigits.lt_pow (by decide)
  | nibbles hwidth hlength hdigits =>
    rw [← Literal.sixteen_pow_div_four hwidth, ← hlength]
    exact hdigits.lt_pow (by decide)
  | binary _ _ hlength hdigits =>
    rw [← hlength]
    exact hdigits.lt_pow (by decide)

/-- A constant of so many bits that holds a number. -/
structure Constant.Holds (width n : Nat) (c : Constant) : Prop where
  type : c.type = if width = 1 then "std_logic"
    else "std_logic_vector(" ++ toString (width - 1) ++ " downto 0)"
  literal : BitsLiteral width n c.value

theorem holds_bitsConstantOf_one (name : String) {n : Nat} (h : n < 2) :
    (bitsConstantOf name 1 n).Holds 1 n where
  type := rfl
  literal := by
    have htext : (toString n).toList = Nat.toDigits 2 n := by
      rw [Nat.toString_eq_repr, Nat.toList_repr, Nat.toDigits_of_lt_base h,
        Nat.toDigits_of_lt_base (by omega)]
    have hlength : (toString n).length = 1 := by
      rw [← String.length_toList, htext, Nat.toDigits_of_lt_base h, List.length_singleton]
    show BitsLiteral 1 n ("'" ++ toString (n % 2) ++ "'")
    rw [Nat.mod_eq_of_lt h]
    exact .bit hlength (htext ▸ Literal.numeral_toDigits (by decide) (by decide) n)

theorem holds_bitsConstantOf_vector (name : String) {width n : Nat} (hwidth : 1 < width)
    (h : n < 2 ^ width) : (bitsConstantOf name width n).Holds width n := by
  unfold bitsConstantOf
  rw [if_neg (by omega)]
  have htype : vectorType width = if width = 1 then "std_logic"
      else "std_logic_vector(" ++ toString (width - 1) ++ " downto 0)" := by
    rw [if_neg (by omega)]
    rfl
  split
  case isTrue hmod =>
    have hnibbles : 4 ∣ width := Nat.dvd_of_mod_eq_zero hmod
    refine ⟨htype, .nibbles hnibbles ?_ (Literal.numeral_hexUpper _ _)⟩
    exact Literal.length_hexUpper (by omega) (Literal.sixteen_pow_div_four hnibbles ▸ h)
  case isFalse hmod =>
    have hnibbles : ¬ 4 ∣ width := mt Nat.mod_eq_zero_of_dvd hmod
    refine ⟨htype, .binary hwidth hnibbles ?_ ?_⟩
    · exact Literal.length_digits (by decide) (by omega) h
    · exact Literal.numeral_digits (by decide) (by decide) _ _

/-- The constant of a number holds it if and only if the number fits. -/
theorem holds_bitsConstantOf_iff (name : String) {width n : Nat} (hwidth : 1 ≤ width) :
    (bitsConstantOf name width n).Holds width n ↔ n < 2 ^ width := by
  refine ⟨fun h => h.literal.lt, fun h => ?_⟩
  rcases hwidth.eq_or_lt with rfl | hwidth
  · exact holds_bitsConstantOf_one name h
  · exact holds_bitsConstantOf_vector name hwidth h

/-- A single bit holds the lowest bit of a number. -/
theorem holds_bitsConstantOf_lowest (name : String) (n : Nat) :
    (bitsConstantOf name 1 n).Holds 1 (n % 2) := by
  have hlowest : bitsConstantOf name 1 n = bitsConstantOf name 1 (n % 2) := by
    simp [bitsConstantOf]
  rw [hlowest]
  exact holds_bitsConstantOf_one name (Nat.mod_lt n (by decide))

/-- A vector constant with all digits of a number, which are too many for the width. -/
def Constant.Overflows (width n : Nat) (c : Constant) : Prop :=
  ∃ digits : String,
    (c.value = "x\"" ++ digits ++ "\"" ∧ width < 4 * digits.length ∧
      Literal.Numeral 16 digits.toList n) ∨
    (c.value = "\"" ++ digits ++ "\"" ∧ width < digits.length ∧
      Literal.Numeral 2 digits.toList n)

theorem overflows_bitsConstantOf (name : String) {width n : Nat} (hwidth : 1 < width)
    (h : 2 ^ width ≤ n) : (bitsConstantOf name width n).Overflows width n := by
  unfold bitsConstantOf
  rw [if_neg (by omega)]
  split
  case isTrue =>
    have hdigits := Literal.numeral_hexUpper (width / 4) n
    refine ⟨_, .inl ⟨rfl, ?_, hdigits⟩⟩
    have hlt : 2 ^ width < 2 ^ (4 * (hexUpper (width / 4) n).length) := by
      rw [Nat.pow_mul, ← String.length_toList]
      exact h.trans_lt (hdigits.lt_pow (by decide))
    exact (Nat.pow_lt_pow_iff_right (by decide)).1 hlt
  case isFalse =>
    have hdigits := Literal.numeral_digits (by decide : 1 < 2) (by decide) width n
    refine ⟨_, .inr ⟨rfl, ?_, hdigits⟩⟩
    have hlt : 2 ^ width < 2 ^ (digits 2 width n).length := by
      rw [← String.length_toList]
      exact h.trans_lt (hdigits.lt_pow (by decide))
    exact (Nat.pow_lt_pow_iff_right (by decide)).1 hlt

example : bitsConstantOf "READY" 1 2 =
    { name := "READY", type := "std_logic", value := "'0'" } := by decide

/-! ### The numbers that a package shows -/

/-- A number of a field under the name of its constant. -/
structure FieldNumber where
  name : String
  /-- Number of bits of the field. -/
  width : Nat
  number : Nat
  deriving DecidableEq, Repr

def FieldNumber.constant (v : FieldNumber) : Constant := bitsConstantOf v.name v.width v.number

/-- The constant has the name, and if the field has bits, it holds the number just if they do. What
it has of a larger number depends on whether there are several bits. -/
structure FieldNumber.ShownBy (v : FieldNumber) (c : Constant) : Prop where
  name : c.name = v.name
  holds_iff : 1 ≤ v.width → (c.Holds v.width v.number ↔ v.number < 2 ^ v.width)
  lowest : v.width = 1 → c.Holds 1 (v.number % 2)
  overflows : 1 < v.width → 2 ^ v.width ≤ v.number → c.Overflows v.width v.number

theorem FieldNumber.shownBy_constant (v : FieldNumber) : v.ShownBy v.constant where
  name := name_bitsConstantOf v.name v.width v.number
  holds_iff := holds_bitsConstantOf_iff v.name
  lowest hwidth := by
    rw [constant, hwidth]
    exact holds_bitsConstantOf_lowest v.name v.number
  overflows := overflows_bitsConstantOf v.name

/-- The enumerated values of a field that are numbers. -/
def enumNumbers (f : BitField) : List FieldNumber :=
  f.enumValues.filterMap fun e =>
    e.number?.map fun n => { name := shoutingSnake e.name, width := f.count, number := n }

/-- The reset value of a field that has one. -/
def resetNumber? (f : BitField) : Option FieldNumber :=
  f.resetNumber?.map fun n =>
    { name := shoutingSnake f.name ++ "_RSTVAL", width := f.count, number := n }

/-- Enumerated values come before reset values. -/
def registerNumbers (r : Register) : List FieldNumber :=
  r.fieldsInOrder.flatMap enumNumbers ++ r.fieldsInOrder.filterMap resetNumber?

/-- The enumerated values and reset values of the register blocks of a map. -/
def fieldNumbers (m : MemoryMap) : List FieldNumber :=
  (registerBlocks m).flatMap fun b => b.registersInOrder.flatMap registerNumbers

/-! ### The constants for them -/

/-- The constants for the values of the fields of a register. -/
def RegisterPart.valueConstants (p : RegisterPart) : List Constant :=
  p.values.flatMap FieldValues.constants ++ p.resets

/-- The constants for enumerated values and reset values. -/
def Content.valueConstants (c : Content) : List Constant :=
  c.blocks.flatMap fun b => b.registers.flatMap RegisterPart.valueConstants

theorem valueConstants_sublist (c : Content) : c.valueConstants.Sublist c.constants := by
  refine .trans ?_ (List.sublist_append_right _ _)
  exact .flatMap_right _ fun b _ => .flatMap_right _ fun p _ => List.sublist_append_right _ _

theorem constants_fieldValuesOf {f : BitField} (h : f.ValuesDefined) :
    (fieldValuesOf f).constants = (enumNumbers f).map FieldNumber.constant := by
  have hvalue : ∀ e ∈ f.enumValues, (e.number?.map fun n =>
      FieldNumber.constant ⟨shoutingSnake e.name, f.count, n⟩) =
        some (bitsConstantOf (shoutingSnake e.name) f.count (e.number?.getD 0)) := by
    intro e he
    obtain ⟨n, hn⟩ := Option.ne_none_iff_exists'.1 (h e he)
    rw [hn]
    rfl
  simp only [fieldValuesOf, enumNumbers, List.map_filterMap, Option.map_map, Function.comp_def]
  rw [List.filterMap_congr hvalue, List.filterMap_eq_map']

theorem resets_registerPartOf (wordBytes : Nat) (r : Register) :
    (registerPartOf wordBytes r).resets =
      (r.fieldsInOrder.filterMap resetNumber?).map FieldNumber.constant := by
  simp only [registerPartOf, List.filterMap_map, List.map_filterMap, resetNumber?, Option.map_map]
  rfl

theorem valueConstants_registerPartOf (wordBytes : Nat) {r : Register}
    (h : ∀ f ∈ r.fields, f.ValuesDefined) : (registerPartOf wordBytes r).valueConstants =
      (registerNumbers r).map FieldNumber.constant := by
  have hvalues : (registerPartOf wordBytes r).values.flatMap FieldValues.constants =
      (r.fieldsInOrder.flatMap enumNumbers).map FieldNumber.constant := by
    rw [registerPartOf, List.flatMap_map, List.map_flatMap]
    exact List.flatMap_congr fun f hf => constants_fieldValuesOf (h f (by simpa using hf))
  rw [RegisterPart.valueConstants, hvalues, resets_registerPartOf, registerNumbers,
    List.map_append]

theorem valueConstants_contentOf (wordBytes : Nat) {m : MemoryMap}
    (h : EveryField m fun _ f => f.ValuesDefined) :
    (contentOf wordBytes m).valueConstants = (fieldNumbers m).map FieldNumber.constant := by
  simp only [Content.valueConstants, contentOf, blockPartOf, fieldNumbers, List.flatMap_map,
    List.map_flatMap]
  refine List.flatMap_congr fun b hb => List.flatMap_congr fun r hr => ?_
  exact valueConstants_registerPartOf wordBytes (h b hb r (by simpa using hr))

/-- In a generated package, the constants for enumerated values and reset values are those of the
fields in their order, and each one holds its number if and only if the field does. -/
theorem value_constants {o : OutputOptions} {c : Component} {text : String}
    (h : generate o c = .ok text) : ∃ m content, selectMap o c = .ok m ∧
      VhdlPackage.content o m = .ok content ∧ text = (write o content).finish ∧
      (write o content).shown.filter IsDeclaration = content.constants.map Constant.render ∧
      content.valueConstants.Sublist content.constants ∧
      List.Forall₂ FieldNumber.ShownBy (fieldNumbers m) content.valueConstants := by
  obtain ⟨m, hm, hdefined, htext⟩ := generate_eq_ok h
  have hvalues : EveryField m fun _ f => f.ValuesDefined := fun b hb r hr f hf =>
    (hdefined.2 b hb r hr f hf).2.1
  refine ⟨m, _, selectMap_eq_ok_iff.2 hm, (gives_content o m).ok hdefined, htext,
    filter_isDeclaration_write o _, valueConstants_sublist _, ?_⟩
  rw [valueConstants_contentOf o.wordBytes hvalues, List.forall₂_map_right_iff, List.forall₂_same]
  exact fun v _ => v.shownBy_constant

/-- A map with a field of three bits that takes the value 5, and 9 after reset. -/
def modeMap : MemoryMap where
  name := "map"
  blocks := [
    { name := "block", baseAddress := some (.ofText "0"), registers := [
      { name := "control", offset := some (.ofText "0"), fields := [
        { name := "mode", offset := some (.ofText "0"), width := some (.ofText "3")
          resets := [{ value := some (.ofText "9") }]
          enumValues := [{ name := "fast", value := some { text := "5" } }] }] }] }]

theorem fieldNumbers_modeMap : fieldNumbers modeMap =
    [{ name := "FAST", width := 3, number := 5 },
      { name := "MODE_RSTVAL", width := 3, number := 9 }] := by
  decide +kernel

theorem generate_modeMap : generate { name := "regs" } { memoryMaps := [modeMap] } =
    .ok (write { name := "regs" } (contentOf 4 modeMap)).finish :=
  (generate_eq_ok_iff (by decide)).2 ⟨modeMap, rfl, by decide, rfl⟩

theorem value_constants_modeMap : ∃ content,
    generate { name := "regs" } { memoryMaps := [modeMap] } =
      .ok (write { name := "regs" } content).finish ∧
    List.Forall₂ FieldNumber.ShownBy [⟨"FAST", 3, 5⟩, ⟨"MODE_RSTVAL", 3, 9⟩]
      content.valueConstants := by
  obtain ⟨m, content, hm, -, htext, -, -, hshown⟩ := value_constants generate_modeMap
  obtain rfl : modeMap = m := Except.ok.inj hm
  exact ⟨content, generate_modeMap.trans (congrArg _ htext), fieldNumbers_modeMap ▸ hshown⟩

/-- The reset value does not fit into three bits, and its constant has four. -/
theorem reset_literal_too_wide : ∃ content c,
    generate { name := "regs" } { memoryMaps := [modeMap] } =
      .ok (write { name := "regs" } content).finish ∧
    c ∈ content.valueConstants ∧ c.name = "MODE_RSTVAL" ∧
    c.type = "std_logic_vector(2 downto 0)" ∧ c.value = "\"1001\"" ∧ ¬ c.Holds 3 9 := by
  refine ⟨_, bitsConstantOf "MODE_RSTVAL" 3 9, generate_modeMap, ?_, rfl, by decide, by decide, ?_⟩
  · rw [valueConstants_contentOf 4 (by decide), fieldNumbers_modeMap]
    simp [FieldNumber.constant]
  · exact fun h => absurd h.literal.lt (by decide)

end RegAtlas.VhdlPackage
