import Mathlib.Data.List.Nodup
import RegAtlas.Proofs.Output.Declared
import RegAtlas.Proofs.Output.VhdlPackage

/-!
# Constants of VHDL packages

The lines of a package that declare constants are those of its content, and the names are read off
these lines. All constants of a package share one scope, in which case does not matter. Then it is
told from the memory map when a name is declared twice: constants of registers and fields carry a
suffix that tells their kinds apart, but a field does not carry the name of its register, and
enumerated values have no suffix at all.
-/

namespace RegAtlas.VhdlPackage

open Output Text LineWriter WordGroup

/-! ### Reading declarations -/

/-- The line declares a constant. -/
def IsDeclaration (line : String) : Prop := "constant ".toList <+: line.toList

instance : DecidablePred IsDeclaration := fun line =>
  inferInstanceAs (Decidable ("constant ".toList <+: line.toList))

theorem not_isDeclaration_of_head? {line : String} {c : Char} (hhead : line.toList.head? = some c)
    (hc : c ≠ 'c') : ¬ IsDeclaration line := by
  rintro ⟨rest, hrest⟩
  rw [← hrest] at hhead
  exact hc (Option.some.inj hhead).symm

theorem not_isDeclaration_of_isCommentary {line : String} (h : IsCommentary '-' line) :
    ¬ IsDeclaration line := by
  obtain rfl | hhead := h
  · decide
  · exact not_isDeclaration_of_head? hhead (by decide)

/-- Collects the declarations of constants. -/
def declarationReader : LineReader (List String) String where
  start := []
  step found line := if IsDeclaration line then found ++ [line] else found
  state found := found
  mark := '-'
  mark_not_blank := by decide
  passes _ _ h := if_neg (not_isDeclaration_of_isCommentary h)

variable {w : LineWriter} {waiting found : List String}

theorem foldl_declarationReader (lines found : List String) :
    lines.foldl declarationReader.step found = found ++ lines.filter IsDeclaration := by
  induction lines generalizing found with
  | nil => simp
  | cons line lines ih =>
    rw [List.foldl_cons, ih]
    by_cases hline : IsDeclaration line <;> simp [declarationReader, hline]

/-- The declarations are the lines that the reader finds. -/
theorem filter_isDeclaration_of_finds (h : declarationReader.Finds w waiting found) :
    w.shown.filter IsDeclaration = found :=
  (foldl_declarationReader w.shown []).symm.trans h.read_eq

/-- The reader can begin anywhere. -/
theorem finds_filter_isDeclaration (h : w.style.commentChar = '-') :
    declarationReader.Finds w w.deferred (w.shown.filter IsDeclaration) :=
  ⟨h, rfl, foldl_declarationReader w.shown []⟩

/-- A line that begins with another character than a declaration. -/
theorem declarationReader_step {text : String} {c : Char} (hhead : text.toList.head? = some c)
    (hc : c ≠ 'c' ∧ isBlank c = false) (found : List String) :
    declarationReader.step (declarationReader.state found) (trimStart text) =
      declarationReader.state found := by
  rw [trimStart_of_head? hhead hc.2]
  exact if_neg (not_isDeclaration_of_head? hhead hc.1)

theorem toList_render (c : Constant) : c.render.toList = "constant ".toList ++ (c.name.toList ++
    ((List.replicate (28 - c.name.length) ' ' ++ [' ']) ++ ':' ::
      (' ' :: (c.type.toList ++ (" := ".toList ++ (c.value.toList ++ [';'])))))) := by
  unfold Constant.render
  simp only [String.toList_append, toString_string, toList_padEnd, List.append_assoc]
  rfl

@[simp] theorem trimStart_render (c : Constant) : trimStart c.render = c.render := by
  have hhead : c.render.toList.head? = some 'c' := by
    rw [toList_render]
    rfl
  exact trimStart_of_head? hhead (by decide)

theorem isDeclaration_render (c : Constant) : IsDeclaration c.render := by
  rw [IsDeclaration, toList_render]
  exact List.prefix_append _ _

/-! ### Writing declarations -/

theorem finds_constants (cs : List Constant) (h : declarationReader.Finds w waiting found) :
    declarationReader.Finds (writeConstants cs w) waiting (found ++ cs.map Constant.render) := by
  rw [List.map_eq_flatMap]
  refine h.writeLines Constant.render (fun c => [c.render]) cs fun found c _ => ?_
  rw [trimStart_render]
  exact if_pos (isDeclaration_render c)

/-- The constants for a register, in the order of their lines. -/
def RegisterPart.constants (p : RegisterPart) : List Constant :=
  p.ranges.flatMap FieldRange.constants ++ (p.values.flatMap FieldValues.constants ++ p.resets)

/-- The constants of a package, in the order of their lines. -/
def Content.constants (c : Content) : List Constant :=
  c.addresses ++ c.blocks.flatMap fun b => b.registers.flatMap RegisterPart.constants

theorem finds_values (v : FieldValues) (h : declarationReader.Finds w waiting found) :
    declarationReader.Finds (writeValues w v) waiting
      (found ++ v.constants.map Constant.render) := by
  rw [writeValues]
  split
  · exact finds_constants _ h
  · exact finds_constants _ (h.blank.comment _)

theorem finds_register (p : RegisterPart) (h : declarationReader.Finds w waiting found) :
    declarationReader.Finds (writeRegister w p) waiting
      (found ++ p.constants.map Constant.render) := by
  have hbits := finds_constants (p.ranges.flatMap FieldRange.constants)
    (h.comment (note s!"{upperText p.register.name} register"))
  have hall := hbits.foldl writeValues (fun v => v.constants.map Constant.render) p.values
    fun _ _ hw v _ => finds_values v hw
  have hlines : found ++ p.constants.map Constant.render =
      found ++ (p.ranges.flatMap FieldRange.constants).map Constant.render ++
        p.values.flatMap (fun v => v.constants.map Constant.render) ++
          p.resets.map Constant.render := by
    simp [RegisterPart.constants, List.map_flatMap]
  rw [hlines, writeRegister]
  split
  · exact (finds_constants _ hall).blank
  · exact (finds_constants _ (hall.blank.comment _)).blank

theorem finds_block (b : BlockPart) (h : declarationReader.Finds w waiting found) :
    declarationReader.Finds (writeBlock w b) waiting
      (found ++ (b.registers.flatMap RegisterPart.constants).map Constant.render) := by
  rw [List.map_flatMap]
  exact (h.comment _).blank.foldl writeRegister _ b.registers fun _ _ hw p _ => finds_register p hw

/-- The lines of a package declare the constants of its content and nothing else. -/
theorem filter_isDeclaration_write (o : OutputOptions) (c : Content) :
    (write o c).shown.filter IsDeclaration = c.constants.map Constant.render := by
  have hbegin := (((LineReader.finds_beginText rfl o).line "library ieee;"
    (declarationReader_step (c := 'l') (by decide) (by decide) [])).line
    "use ieee.std_logic_1164.all;"
    (declarationReader_step (c := 'u') (by decide) (by decide) [])).blank
  have hpackage := ((hbegin.line s!"package {NameCase.snake.convert (withLead o.lead o.name)} is"
    (declarationReader_step (c := 'p') (by simp) (by decide) [])).defer "end package;").blank.indent
  have hmap := (finds_constants c.addresses (hpackage.comment
    (note s!"{c.map.name} memory map addresses"))).blank
  have hall := hmap.foldl writeBlock _ c.blocks fun _ _ hw b _ => finds_block b hw
  have hend := hall.dedent.flushAll
    (declarationReader_step (c := 'e') (by decide) (by decide) _)
  have hlines : c.constants.map Constant.render = [] ++ c.addresses.map Constant.render ++
      c.blocks.flatMap fun b =>
        (b.registers.flatMap RegisterPart.constants).map Constant.render := by
    simp [Content.constants, List.map_flatMap]
  rw [hlines]
  exact filter_isDeclaration_of_finds hend

/-! ### The names of constants -/

/-- The name of the constant that a line declares. -/
def declared? (line : String) : Option String :=
  (stripStart? "constant ".toList line.toList).map nameAt

/-- The constants in the lines of a text, in their order. -/
def constantNames (w : LineWriter) : List String := w.shown.filterMap declared?

/-- All constants can be read back. -/
def AllPlain (cs : List Constant) : Prop := ∀ c ∈ cs, IsPlainName c.name

theorem declared?_render {c : Constant} (hname : IsPlainName c.name) :
    declared? c.render = some c.name := by
  rw [declared?, toList_render, stripStart?_append, Option.map_some]
  exact congrArg some
    (nameAt_append hname (fun _ => isBlank_of_mem_padding) (by decide) (by decide))

/-- Names are found in declarations alone. -/
theorem constantNames_eq (w : LineWriter) :
    constantNames w = (w.shown.filter IsDeclaration).filterMap declared? := by
  rw [constantNames, List.filterMap_filter]
  refine List.filterMap_congr fun line _ => ?_
  by_cases hline : IsDeclaration line
  · simp [hline]
  · have hnone : stripStart? "constant ".toList line.toList = none :=
      if_neg (mt List.isPrefixOf_iff_prefix.1 hline)
    rw [declared?, hnone]
    simp [hline]

/-- The lines of a package declare the constants of its content. -/
theorem constantNames_write {o : OutputOptions} {c : Content} (hplain : AllPlain c.constants) :
    constantNames (write o c) = c.constants.map (·.name) := by
  rw [constantNames_eq, filter_isDeclaration_write, List.filterMap_map, ← List.filterMap_eq_map]
  exact List.filterMap_congr fun k hk => declared?_render (hplain k hk)

end RegAtlas.VhdlPackage
