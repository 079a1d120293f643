import Mathlib.Data.List.Forall2
import RegAtlas.Proofs.Output.HeaderClash
import RegAtlas.Proofs.Output.IndexLines
import RegAtlas.Proofs.Output.MaskLines

/-!
# Agreement of generated texts

The lines of the C header, the kernel header and the VHDL package of a memory map describe the same
fields in the same order. The package can be generated if both headers can, as long as no name and
no literal is too long for its line.
-/

namespace RegAtlas.Output

variable {c : Component} {oc ok ov : OutputOptions}

/-! ### Fields -/

/-- Every field that a text describes comes from a block that is no memory. -/
theorem map_fst_bitsOf_perm (wordBytes : Nat) (m : MemoryMap) :
    ((bitsOf wordBytes m).map Prod.fst).Perm ((m.blocks.filter (·.usage ≠ .memory)).flatMap fun b =>
      b.registers.flatMap (·.fields)) := by
  have hfields : (bitsOf wordBytes m).map Prod.fst = (fieldsOf m).map Prod.snd := by
    rw [bitsOf, List.map_map]
    rfl
  have h := (fieldsOf_perm m).map Prod.snd
  rw [hfields]
  simpa [registerBlocks_eq, List.map_flatMap, Function.comp_def] using h

/-- The members of structs that show fields with these widths, with gaps between them. -/
inductive ShowsWidths : List (BitField × Nat) → List (String × Nat) → Prop
  | nil : ShowsWidths [] []
  | gap {fields members} (number width : Nat) (h : ShowsWidths fields members) :
    ShowsWidths fields ((s!"reserved_{number}", width) :: members)
  | field {fields members} (f : BitField) (width : Nat) (h : ShowsWidths fields members) :
    ShowsWidths ((f, width) :: fields) ((Text.NameCase.snake.convert f.name, width) :: members)

theorem ShowsWidths.append {fields fields' : List (BitField × Nat)}
    {members members' : List (String × Nat)} (h : ShowsWidths fields members)
    (h' : ShowsWidths fields' members') :
    ShowsWidths (fields ++ fields') (members ++ members') := by
  induction h with
  | nil => exact h'
  | gap number width _ ih => exact .gap number width ih
  | field f width _ ih => exact .field f width ih

theorem ShowsWidths.flatMap {α : Type} {fields : α → List (BitField × Nat)}
    {members : α → List (String × Nat)} {as : List α}
    (h : ∀ a ∈ as, ShowsWidths (fields a) (members a)) :
    ShowsWidths (as.flatMap fields) (as.flatMap members) := by
  induction as with
  | nil => exact .nil
  | cons a as ih =>
    rw [List.forall_mem_cons] at h
    exact h.1.append (ih h.2)

/-- A mask is named after its field, and has its bits. -/
def ShowsMask (x : BitField × Nat × Nat) (mask : String × Nat × Nat) : Prop :=
  (∃ register : String,
    mask.1 = s!"REG_{Text.shoutingSnake register}_{Text.shoutingSnake x.1.name}") ∧ mask.2 = x.2

/-- Indices are named after their field, and show its bits. -/
def ShowsIndices (x : BitField × Nat × Nat) (index : String × Nat × Nat) : Prop :=
  index.1 = Text.shoutingSnake x.1.name ∧ index.2 = x.2

/-- The same field with its width on one side and its first and last bits on the other. -/
def WidthFits (x : BitField × Nat) (y : BitField × Nat × Nat) : Prop :=
  x.1 = y.1 ∧ x.1.bitWidth = .ok x.2 ∧ y.2.1 ≤ y.2.2 ∧ max x.2 1 = y.2.2 - y.2.1 + 1

theorem showsWidths_membersFromOf (wordWidth next gaps : Nat) (slots : List CHeader.Slot) :
    ShowsWidths (slots.map fun s => (s.field, s.width))
      ((CHeader.membersFromOf wordWidth next gaps slots).map fun m => (m.name, m.width)) := by
  induction slots generalizing next gaps with
  | nil =>
    unfold CHeader.membersFromOf
    split
    · exact .gap _ _ .nil
    · exact .nil
  | cons s slots ih =>
    unfold CHeader.membersFromOf
    split
    · exact .gap _ _ (.field _ _ (ih _ _))
    · exact .field _ _ (ih _ _)

/-- The structs of a header show the widths of the fields. -/
theorem showsWidths_write (o : OutputOptions) (m : MemoryMap) :
    ShowsWidths ((fieldsOf m).map fun (_, f) => (f, f.count))
      (CHeader.bitFields (CHeader.write o (CHeader.contentOf o m))).flatten := by
  have hslots (g : List Register) : (CHeader.slotsOf o.wordBytes g).map
      (fun s => (s.field, s.width)) = g.flatMap fun r => r.fieldsInOrder.map fun f =>
        (f, f.count) := by
    have hbits := congrArg (List.map fun x : BitField × Nat × Nat => (x.1, x.2.2))
      (CHeader.map_bits_slotsOf o.wordBytes g)
    simpa [CHeader.Slot.bits, List.map_flatMap, Function.comp_def] using hbits
  have hfields : (fieldsOf m).map (fun (_, f) => (f, f.count)) = (groupsOf o.wordBytes m).flatMap
      fun g => (CHeader.slotsOf o.wordBytes g).map fun s => (s.field, s.width) := by
    simp only [hslots, groupsOf, fieldsOf, List.flatMap_assoc, WordGroup.flatMap_groupBy,
      List.map_flatMap, List.map_map]
    rfl
  rw [CHeader.bitFields_write (CHeader.plain_contentOf o m), CHeader.contentOf, List.map_map,
    ← List.flatMap_def, hfields]
  exact .flatMap fun g _ => showsWidths_membersFromOf _ _ _ _

/-- The masks of a header show the bits of the fields. -/
theorem showsMask_write (o : OutputOptions) (m : MemoryMap) :
    List.Forall₂ ShowsMask (bitsOf o.wordBytes m)
      (KernelHeader.masks (KernelHeader.write o (KernelHeader.contentOf o m))) := by
  have hname : ∀ k ∈ (KernelHeader.contentOf o m).masks, ShowsMask k.bits k.definition := by
    intro k hk
    obtain ⟨g, -, hk⟩ := KernelHeader.mem_masks_contentOf.1 hk
    exact ⟨KernelHeader.exists_name_of_mem_masksOf hk, rfl⟩
  rw [KernelHeader.masks_write (KernelHeader.plain_contentOf o m),
    ← KernelHeader.map_bits_contentOf, List.forall₂_map_left_iff, List.forall₂_map_right_iff,
    List.forall₂_same]
  exact hname

/-- The index constants of a package show the bits of the fields. -/
theorem showsIndices_write (o : OutputOptions) (m : MemoryMap) :
    List.Forall₂ ShowsIndices (bitsOf o.wordBytes m)
      (VhdlPackage.indices (VhdlPackage.write o (VhdlPackage.contentOf o.wordBytes m))) := by
  rw [VhdlPackage.indices_write, ← VhdlPackage.map_bits_contentOf, List.forall₂_map_left_iff,
    List.forall₂_map_right_iff, List.forall₂_same]
  exact fun r _ => ⟨rfl, rfl⟩

theorem forall₂_widthFits {wordBytes : Nat} {m : MemoryMap}
    (h : EveryField m (WordGroup.BitsDefined wordBytes)) :
    List.Forall₂ WidthFits ((fieldsOf m).map fun (_, f) => (f, f.count)) (bitsOf wordBytes m) := by
  rw [bitsOf, List.forall₂_map_left_iff, List.forall₂_map_right_iff, List.forall₂_same]
  intro x hx
  have hwidth := (everyField_iff.1 h x hx).2.2.1
  refine ⟨rfl, x.2.gives_bitWidth.ok hwidth, ?_, ?_⟩ <;> simp only [WordGroup.bitLast] <;> omega

theorem map_snd_eq_of_forall₂ {α : Type} {R : BitField × α → String × α → Prop}
    (hR : ∀ x y, R x y → y.2 = x.2) {xs : List (BitField × α)} {ys : List (String × α)}
    (h : List.Forall₂ R xs ys) : ys.map Prod.snd = xs.map Prod.snd := by
  induction h with
  | nil => rfl
  | cons hxy _ ih => rw [List.map_cons, List.map_cons, hR _ _ hxy, ih]

/-- A map with a register of two bits, a register of one bit and a memory. -/
def sampleMap : MemoryMap where
  blocks := [
    { baseAddress := some (.ofText "0x100"), registers := [
      { name := "status", offset := some (.ofText "2"), fields := [
        { name := "ready", offset := some (.ofText "4"), width := some (.ofText "2") }] }] },
    { baseAddress := some (.ofText "0x200"), registers := [
      { name := "mode", offset := some (.ofText "0"), fields := [
        { name := "reset", offset := some (.ofText "0"), width := some (.ofText "1") }] }] },
    { usage := .memory, baseAddress := some (.ofText "0"), registers := [
      { name := "word", offset := some (.ofText "0"), fields := [{ name := "data" }] }] }]

end RegAtlas.Output
