import Mathlib.Data.List.Chain
import RegAtlas.Proofs.Output.StructLayout

/-!
# Members of a bit-field struct

The struct that is written for an access word in which no field begins before the one before it
ends: every field is a member, the members before it are as wide as its position says, gaps are
numbered from zero, and all members together fill the word or reach to the end of the last field. No
difference that the struct is computed with is negative.
-/

namespace RegAtlas.CHeader

open WordGroup

/-! ### Members laid out -/

/-- The first bit behind the last slot, or a given one if there are no slots. -/
def endFrom (next : Nat) (slots : List Slot) : Nat :=
  (slots.getLast?.map fun s => s.position + s.width).getD next

/-- The members that begin at bit `next` show the slots at their positions, and fill the bits before
and between them and the rest of the word by gaps, which are numbered from `first` on. -/
structure LaidOut (wordWidth next first : Nat) (slots : List Slot) (ms : List Member) : Prop where
  fields : ms.filter (·.field.isSome) = slots.map Member.ofSlot
  places : placesFrom next ms = slots.map fun s => (s.field, s.position)
  gaps : ∃ widths : List Nat, (∀ n ∈ widths, 0 < n) ∧
    ms.filter (·.field.isNone) = widths.mapIdx fun k n => .gap (first + k) n
  total : next + (ms.map (·.width)).sum = max wordWidth (endFrom next slots)

namespace LaidOut

variable {wordWidth next first : Nat} {slots : List Slot} {ms : List Member} {s : Slot}

theorem full (h : wordWidth ≤ next) : LaidOut wordWidth next first [] [] where
  fields := rfl
  places := rfl
  gaps := ⟨[], by simp, rfl⟩
  total := (Nat.max_eq_right h).symm

theorem rest (h : next < wordWidth) :
    LaidOut wordWidth next first [] [.gap first (wordWidth - next)] where
  fields := rfl
  places := rfl
  gaps := ⟨[wordWidth - next], List.forall_mem_singleton.2 (Nat.sub_pos_of_lt h), rfl⟩
  total := by
    simp only [endFrom, List.getLast?_nil, Option.map_none, Option.getD_none, List.map_cons,
      List.map_nil, List.sum_cons, List.sum_nil, Member.gap]
    omega

theorem slot (h : LaidOut wordWidth (s.position + s.width) first slots ms) :
    LaidOut wordWidth s.position first (s :: slots) (.ofSlot s :: ms) where
  fields := by simp [Member.ofSlot, ← h.fields]
  places := by rw [placesFrom_ofSlot, h.places, List.map_cons]
  gaps := by simpa [Member.ofSlot] using h.gaps
  total := by
    have hend : endFrom s.position (s :: slots) = endFrom (s.position + s.width) slots := by
      rw [endFrom, List.getLast?_cons, endFrom]
      cases slots.getLast? <;> rfl
    rw [hend, ← h.total, List.map_cons, List.sum_cons, ← Nat.add_assoc]
    rfl

theorem gap (hlt : next < s.position)
    (h : LaidOut wordWidth s.position (first + 1) (s :: slots) ms) :
    LaidOut wordWidth next first (s :: slots) (.gap first (s.position - next) :: ms) where
  fields := h.fields
  places := by rw [placesFrom_gap, Nat.add_sub_cancel' (Nat.le_of_lt hlt), h.places]
  gaps := by
    obtain ⟨widths, hpos, hgaps⟩ := h.gaps
    refine ⟨(s.position - next) :: widths,
      List.forall_mem_cons.2 ⟨Nat.sub_pos_of_lt hlt, hpos⟩, ?_⟩
    have hfirst (k : Nat) : first + 1 + k = first + (k + 1) := by omega
    simp only [hfirst] at hgaps
    rw [List.filter_cons_of_pos rfl, hgaps, List.mapIdx_cons, Nat.add_zero]
  total := by
    have hend : endFrom next (s :: slots) = endFrom s.position (s :: slots) := by
      rw [endFrom, List.getLast?_cons, endFrom, List.getLast?_cons]
      rfl
    rw [hend, ← h.total, List.map_cons, List.sum_cons, ← Nat.add_assoc]
    exact congrArg (· + _) (Nat.add_sub_cancel' (Nat.le_of_lt hlt))

end LaidOut

/-- No slot begins before the one before it ends. -/
def InOrder (slots : List Slot) : Prop :=
  slots.IsChain fun s t => s.position + s.width ≤ t.position

/-- As long as slots are in order, the first bit that is not yet taken is the end of the last one,
cut at the largest number. Only the last slot of all can end behind it. -/
theorem laidOut_membersFromOf {wordWidth next first : Nat} {slots : List Slot}
    (hwidth : wordWidth < Literal.bound) (hpositions : ∀ s ∈ slots, s.position < Literal.bound)
    (hnext : ∀ s ∈ slots.head?, next ≤ s.position) (horder : InOrder slots) :
    LaidOut wordWidth next first slots
      (membersFromOf wordWidth (min next (Literal.bound - 1)) first slots) := by
  induction slots generalizing next first with
  | nil =>
    unfold membersFromOf
    split
    case isTrue hlt =>
      have hmin : min next (Literal.bound - 1) = next := by omega
      rw [hmin] at hlt ⊢
      exact .rest hlt
    case isFalse hge => exact .full (by omega)
  | cons s slots ih =>
    obtain ⟨hposition, hpositions⟩ := List.forall_mem_cons.1 hpositions
    obtain ⟨hbehind, horder⟩ := List.isChain_cons.1 horder
    have hle : next ≤ s.position := hnext s rfl
    have hmin : min next (Literal.bound - 1) = next := by omega
    have hmax : max next s.stop = min (s.position + s.width) (Literal.bound - 1) := by
      unfold Slot.stop Bounded.addSaturating
      omega
    unfold membersFromOf
    simp only [hmin, hmax]
    split
    case isTrue hlt => exact .gap hlt (.slot (ih hpositions hbehind horder))
    case isFalse hge =>
      obtain rfl : next = s.position := by omega
      exact .slot (ih hpositions hbehind horder)

/-! ### Groups -/

section Groups

variable {o : OutputOptions} {group : List Register} {slots : List Slot}

/-- The slots of a group are its fields, register by register, in ascending order of offsets. -/
structure ShowsFields (wordBytes : Nat) (group : List Register) (slots : List Slot) : Prop where
  sorted : ∀ r ∈ group, r.sortedFields = .ok r.fieldsInOrder
  position : ∀ r ∈ group, ∀ f ∈ r.fields,
    bitPosition wordBytes r f = .ok (bitStart wordBytes r f)
  width : ∀ r ∈ group, ∀ f ∈ r.fields, f.bitWidth = .ok f.count
  bits : slots.map Slot.bits = group.flatMap fun r =>
    r.fieldsInOrder.map fun f => (f, bitStart wordBytes r f, f.count)

theorem showsFields_of_slots {wordBytes : Nat} (h : CHeader.slots wordBytes group = .ok slots) :
    ShowsFields wordBytes group slots := by
  obtain ⟨hdefined, rfl⟩ := (gives_slots wordBytes group).eq_ok_iff.1 h
  exact {
    sorted := fun r hr => r.gives_sortedFields.ok fun f hf => (hdefined r hr f hf).1.2.1
    position := fun r hr f hf => (gives_bitPosition wordBytes r f).ok (hdefined r hr f hf).1
    width := fun r hr f hf => f.gives_bitWidth.ok (hdefined r hr f hf).2
    bits := map_bits_slotsOf wordBytes group }

theorem position_lt_bound {wordBytes : Nat} (h : CHeader.slots wordBytes group = .ok slots) :
    ∀ s ∈ slots, s.position < Literal.bound := by
  obtain ⟨hdefined, rfl⟩ := (gives_slots wordBytes group).eq_ok_iff.1 h
  intro s hs
  simp only [slotsOf, List.mem_flatMap, List.mem_map] at hs
  obtain ⟨r, hr, ⟨f, i⟩, hf, rfl⟩ := hs
  have hmem : f ∈ r.fields := Register.mem_fieldsInOrder.1 (List.fst_mem_of_mem_zipIdx hf)
  exact (hdefined r hr f hmem).1.2.2

/-- The struct of an access word in which no field begins before the one before it ends. Its members
are those that the lines of a header show once the word is written. -/
theorem union_layout (hwidth : o.wordWidth < Plan.widthBound)
    (hslots : CHeader.slots o.wordBytes group = .ok slots) (horder : InOrder slots) :
    ShowsFields o.wordBytes group slots ∧ ∃ ms, members o.wordWidth slots = .ok ms ∧
      LaidOut o.wordWidth 0 0 slots ms ∧
      ∀ word, CHeader.word o group = .ok word → ∀ w, Outside w →
        bitFields (writeWord o w word) = bitFields w ++ [ms.map fun m => (m.name, m.width)] := by
  have hbound : o.wordWidth < Literal.bound := Nat.lt_trans hwidth (by decide)
  refine ⟨showsFields_of_slots hslots, _, members_eq _ _,
    laidOut_membersFromOf hbound (position_lt_bound hslots) (fun _ _ => Nat.zero_le _) horder,
    fun word hword w hw => ?_⟩
  obtain ⟨-, rfl⟩ := (gives_word o group).eq_ok_iff.1 hword
  obtain ⟨-, rfl⟩ := (gives_slots o.wordBytes group).eq_ok_iff.1 hslots
  exact bitFields_writeWord o (plain_wordOf o group) hw

end Groups

/-- A register at byte 0 with a gap before its first field and a field without bits behind it, and a
register at byte 2 whose last field ends behind the word. -/
def gapped : List Register :=
  let field (offset width : String) : BitField :=
    { offset := some (.ofText offset), width := some (.ofText width) }
  [{ offset := some (.ofText "0"), fields := [field "3" "2", field "5" "0"] },
    { offset := some (.ofText "2"), fields := [field "0" "4", field "8" "16"] }]

/-- The options of a header with words of four bytes. -/
def gappedOptions : OutputOptions := { name := "regs" }

theorem union_layout_gapped :
    slots 4 gapped = .ok (slotsOf 4 gapped) ∧ InOrder (slotsOf 4 gapped) ∧
      ∃ ms word, members 32 (slotsOf 4 gapped) = .ok ms ∧ LaidOut 32 0 0 (slotsOf 4 gapped) ms ∧
        CHeader.word gappedOptions gapped = .ok word ∧
        bitFields (writeWord gappedOptions {} word) = [[("reserved_0", 3), ("", 2), ("", 0),
          ("reserved_1", 11), ("", 4), ("reserved_2", 4), ("", 16)]] := by
  have hbytes : gappedOptions.wordBytes = 4 := rfl
  have hslots : slots 4 gapped = .ok (slotsOf 4 gapped) := (gives_slots 4 gapped).ok (by decide)
  have hsorted : ∀ r ∈ gapped, r.fieldsInOrder = r.fields := by
    have h : ∀ r ∈ gapped, r.fields.Pairwise fun f g => f.start ≤ g.start := by decide
    exact fun r hr => inOrder_of_pairwise (h r hr)
  have heq : slotsOf 4 gapped = gapped.flatMap fun r => r.fields.zipIdx.map (slotOf 4 r) :=
    List.flatMap_congr fun r hr => by rw [hsorted r hr]
  have horder : InOrder (slotsOf 4 gapped) := by
    rw [heq]
    unfold InOrder
    decide
  have hshown : (membersOf 32 (slotsOf 4 gapped)).map (fun m => (m.name, m.width)) =
      [("reserved_0", 3), ("", 2), ("", 0), ("reserved_1", 11), ("", 4), ("reserved_2", 4),
        ("", 16)] := by
    rw [heq]
    decide
  have hshort : Output.Short (memberNames gappedOptions gapped) := by
    rw [memberNames, hbytes, heq]
    decide
  obtain ⟨-, ms, hms, hlaid, hlines⟩ := union_layout (o := gappedOptions) (by decide)
    (hbytes.symm ▸ hslots) horder
  obtain rfl : membersOf 32 (slotsOf 4 gapped) = ms :=
    Except.ok.inj ((members_eq 32 (slotsOf 4 gapped)).symm.trans hms)
  have hword := (gives_word gappedOptions gapped).ok ⟨by decide, by decide, hshort⟩
  have hadded := hlines _ hword {} ⟨rfl, rfl⟩
  rw [hshown] at hadded
  exact ⟨hslots, horder, _, _, hms, hlaid, hword, hadded⟩

end RegAtlas.CHeader
