import RegAtlas.Output.CHeader
import RegAtlas.Proofs.Output.Basic

/-!
# Contents of C headers

When a C header has a content, what it is, and the widths that the members of its structs show.
-/

namespace RegAtlas.CHeader

open Output WordGroup

/-! ### Slots -/

/-- A field of a register at its place, with its number in the register. -/
def slotOf (wordBytes : Nat) (r : Register) (x : BitField × Nat) : Slot where
  field := x.1
  position := bitStart wordBytes r x.1
  width := x.1.count
  heading := if x.2 = 0 then some (Text.upperText r.name) else none

/-- The slots of registers that share an access word. -/
def slotsOf (wordBytes : Nat) (group : List Register) : List Slot :=
  group.flatMap fun r => r.fieldsInOrder.zipIdx.map (slotOf wordBytes r)

/-- A slot without its heading. -/
def Slot.bits (s : Slot) : BitField × Nat × Nat := (s.field, s.position, s.width)

theorem map_bits_slotsOf (wordBytes : Nat) (group : List Register) :
    (slotsOf wordBytes group).map Slot.bits = group.flatMap fun r =>
      r.fieldsInOrder.map fun f => (f, bitStart wordBytes r f, f.count) := by
  have hslots : ∀ r : Register, (r.fieldsInOrder.zipIdx.map (slotOf wordBytes r)).map Slot.bits =
      r.fieldsInOrder.map fun f => (f, bitStart wordBytes r f, f.count) := by
    intro r
    have hfst := congrArg (List.map fun f : BitField => (f, bitStart wordBytes r f, f.count))
      (List.zipIdx_map_fst 0 r.fieldsInOrder)
    rw [List.map_map] at hfst ⊢
    exact hfst
  simp only [slotsOf, List.map_flatMap, hslots]

/-- A field has a place and a width. -/
def SlotDefined (wordBytes : Nat) (r : Register) (f : BitField) : Prop :=
  PositionDefined wordBytes r f ∧ numberOf? f.width ≠ none

instance (wordBytes : Nat) (r : Register) (f : BitField) : Decidable (SlotDefined wordBytes r f) :=
  inferInstanceAs (Decidable (_ ∧ _))

theorem gives_registerSlots (wordBytes : Nat) (r : Register) :
    Gives (registerSlots wordBytes r) (∀ f ∈ r.fields, SlotDefined wordBytes r f)
      (r.fieldsInOrder.zipIdx.map (slotOf wordBytes r)) := by
  have hslot : ∀ x ∈ r.fieldsInOrder.zipIdx, Gives
      (do return {
        field := x.1
        position := ← bitPosition wordBytes r x.1
        width := ← x.1.bitWidth
        heading := if x.2 = 0 then some (Text.upperText r.name) else none })
      (SlotDefined wordBytes r x.1) (slotOf wordBytes r x) := fun x _ =>
    (gives_bitPosition wordBytes r x.1).bind fun _ => x.1.gives_bitWidth.bind_pure
  refine .congr (.bind r.gives_sortedFields fun _ => .mapM hslot) ?_
  have hfst : (∀ x ∈ r.fieldsInOrder.zipIdx, SlotDefined wordBytes r x.1) ↔
      ∀ f ∈ r.fieldsInOrder, SlotDefined wordBytes r f := by
    rw [← List.forall_mem_map (f := Prod.fst), List.zipIdx_map_fst]
  simp only [hfst, Register.mem_fieldsInOrder]
  exact and_iff_right_of_imp fun h f hf => (h f hf).1.2.1

theorem gives_slots (wordBytes : Nat) (group : List Register) :
    Gives (slots wordBytes group) (∀ r ∈ group, ∀ f ∈ r.fields, SlotDefined wordBytes r f)
      (slotsOf wordBytes group) :=
  (Gives.mapM fun r _ => gives_registerSlots wordBytes r).bind_pure

/-! ### Members -/

/-- The members for slots in order. -/
def membersFromOf (wordWidth next gaps : Nat) : List Slot → List Member
  | [] => if next < wordWidth then [.gap gaps (wordWidth - next)] else []
  | s :: rest =>
    let next' := max next s.stop
    if next < s.position then
      .gap gaps (s.position - next) :: .ofSlot s :: membersFromOf wordWidth next' (gaps + 1) rest
    else .ofSlot s :: membersFromOf wordWidth next' gaps rest

/-- The members of the struct for an access word. -/
def membersOf (wordWidth : Nat) (slots : List Slot) : List Member :=
  membersFromOf wordWidth 0 0 slots

/-- The width of a gap is the difference of two places in their order. -/
theorem membersFrom_eq (wordWidth next gaps : Nat) (slots : List Slot) :
    membersFrom wordWidth next gaps slots = .ok (membersFromOf wordWidth next gaps slots) := by
  induction slots generalizing next gaps with
  | nil =>
    rw [membersFrom, membersFromOf]
    split
    case isTrue h => rw [Bounded.sub_of_le (Nat.le_of_lt h)]; rfl
    case isFalse => rfl
  | cons s slots ih =>
    simp only [membersFrom, membersFromOf, ih]
    split
    case isTrue h => rw [Bounded.sub_of_le (Nat.le_of_lt h)]; rfl
    case isFalse => rfl

theorem members_eq (wordWidth : Nat) (slots : List Slot) :
    members wordWidth slots = .ok (membersOf wordWidth slots) := membersFrom_eq _ _ _ _

theorem gives_members (wordWidth : Nat) (slots : List Slot) :
    Gives (members wordWidth slots) True (membersOf wordWidth slots) :=
  .of_eq_ok (members_eq wordWidth slots)

/-! ### Enums -/

/-- The enums of a register. -/
def valueEnumsOf (lead : String) (r : Register) : List ValueEnum :=
  (r.fieldsInOrder.filter (! ·.enumValues.isEmpty)).map fun f =>
    { name := Text.NameCase.snake.convert (withLead lead s!"{r.name}_{f.name}")
      values := (sortByOffset (keyedBy (·.number?.getD 0) f.enumValues)).map fun (n, e) =>
        (n, Text.shoutingSnake e.name) }

theorem gives_valueEnums (lead : String) (r : Register) :
    Gives (valueEnums lead r)
      ((∀ f ∈ r.fields, numberOf? f.offset ≠ none) ∧ ∀ f ∈ r.fields, f.ValuesDefined)
      (valueEnumsOf lead r) := by
  have henum : ∀ f ∈ r.fieldsInOrder.filter (! ·.enumValues.isEmpty),
      Gives (keyed EnumValue.number f.enumValues) f.ValuesDefined
        (keyedBy (·.number?.getD 0) f.enumValues) := fun f _ =>
    gives_keyed fun e _ => e.gives_number
  refine .congr (.bind r.gives_sortedFields fun _ => .mapM fun f hf => (henum f hf).bind_pure)
    (and_congr_right fun _ => ?_)
  simp only [List.mem_filter, Register.mem_fieldsInOrder]
  constructor
  · intro h f hf e he
    exact h f ⟨hf, by simp [List.ne_nil_of_mem he]⟩ e he
  · exact fun h f hf => h f hf.1

/-! ### Words, blocks and maps -/

/-- The members of the struct for registers that share an access word. -/
def memberNames (o : OutputOptions) (group : List Register) : List String :=
  (membersOf o.wordWidth (slotsOf o.wordBytes group)).map (·.name)

/-- What a header shows of registers that share an access word. -/
def wordOf (o : OutputOptions) (group : List Register) : Word where
  group
  members := membersOf o.wordWidth (slotsOf o.wordBytes group)
  pad := Text.widest (memberNames o group)
  enums := group.flatMap (valueEnumsOf o.lead)

/-- What a header shows of a memory map. -/
def contentOf (o : OutputOptions) (m : MemoryMap) : Content where
  map := m
  addresses := addressesOf m
  addressPad := Text.widest (addressNames o.lead m)
  words := (groupsOf o.wordBytes m).map (wordOf o)

/-- The members of an access word can be written. -/
def WordFits (o : OutputOptions) (group : List Register) : Prop :=
  2 * o.style.indent < Literal.bound ∧ Short (memberNames o group)

instance (o : OutputOptions) (group : List Register) : Decidable (WordFits o group) :=
  inferInstanceAs (Decidable (_ ∧ _))

/-- A header has a content. -/
@[mk_iff]
structure Defined (o : OutputOptions) (m : MemoryMap) : Prop where
  addresses : AddressesDefined m
  names : Short (addressNames o.lead m)
  fields : EveryField m fun r f => SlotDefined o.wordBytes r f ∧ f.ValuesDefined
  words : ∀ g ∈ groupsOf o.wordBytes m, WordFits o g

instance (o : OutputOptions) (m : MemoryMap) : Decidable (Defined o m) :=
  decidable_of_iff' _ (defined_iff o m)

theorem gives_word (o : OutputOptions) (group : List Register) :
    Gives (word o group)
      ((∀ r ∈ group, ∀ f ∈ r.fields, SlotDefined o.wordBytes r f ∧ f.ValuesDefined) ∧
        WordFits o group) (wordOf o group) := by
  refine ((gives_slots o.wordBytes group).bind fun _ => (gives_members _ _).bind fun _ =>
    (Bounded.gives_mul _ _).bind fun _ => (gives_pad _).bind fun _ =>
    (Gives.mapM fun r _ => gives_valueEnums o.lead r).bind_pure).congr ?_
  constructor
  · rintro ⟨hslots, -, hindent, hnames, hvalues⟩
    exact ⟨fun r hr f hf => ⟨hslots r hr f hf, (hvalues r hr).2 f hf⟩, hindent, hnames⟩
  · rintro ⟨h, hindent, hnames⟩
    exact ⟨fun r hr f hf => (h r hr f hf).1, trivial, hindent, hnames,
      fun r hr => ⟨fun f hf => (h r hr f hf).1.1.2.1, fun f hf => (h r hr f hf).2⟩⟩

theorem gives_content (o : OutputOptions) (m : MemoryMap) :
    Gives (content o m) (Defined o m) (contentOf o m) := by
  have hblocks := Gives.mapM fun b (_ : b ∈ registerBlocks m) =>
    (gives_registers o.wordBytes b.registers).bind fun _ => .mapM fun g _ => gives_word o g
  have hwords : (contentOf o m).words = ((registerBlocks m).map fun b =>
      (groupBy o.wordBytes Register.start b.registers).map (wordOf o)).flatten := by
    rw [contentOf, groupsOf, List.map_flatMap, List.flatMap_def]
  rw [show contentOf o m = { contentOf o m with words := (contentOf o m).words } from rfl, hwords]
  refine ((gives_addresses m).bind fun _ => (gives_addressPad o.lead m).bind fun _ =>
    hblocks.bind_pure).congr ?_
  constructor
  · rintro ⟨haddr, hnames, hall⟩
    exact ⟨haddr, hnames, fun b hb => forall_mem_groupBy.1 fun g hg => ((hall b hb).2 g hg).1,
      forall_groupsOf.2 fun b hb g hg => ((hall b hb).2 g hg).2⟩
  · rintro ⟨haddr, hnames, hfields, hwords⟩
    exact ⟨haddr, hnames, fun b hb => ⟨haddr.offsets b hb, fun g hg =>
      ⟨forall_mem_groupBy.2 (hfields b hb) g hg, forall_groupsOf.1 hwords b hb g hg⟩⟩⟩

/-! ### Generated headers -/

section

variable {o : OutputOptions} {w : LineWriter} {style : Style} {level : Nat}

theorem stands_writeMember (h : w.Stands style level) (wordType : String) (pad : Nat)
    (m : Member) : (writeMember wordType pad w m).Stands style level := by
  rw [writeMember]
  split
  · exact (h.comment _).line _
  · exact h.line _

/-- The members of a struct are two steps in. -/
theorem stands_writeWord (h : w.Stands style 0) (hbound : 2 * style.indent < Literal.bound)
    (word : Word) : (writeWord o w word).Stands style 0 := by
  have hone : 0 + style.indent < Literal.bound := by omega
  have htwo : 0 + style.indent + style.indent < Literal.bound := by omega
  refine .foldl (fun v hv e _ => (hv.scope _ _ hone fun u hu => hu.writeLines _).blank) ?_
  exact .blank (h.scope _ _ hone fun v hv => (hv.line _).scope _ _ htwo fun u hu =>
    hu.foldl fun u hu m _ => stands_writeMember hu _ _ m)

end

theorem stands_write {o : OutputOptions} {c : Content} (hindent : o.style.indent < Literal.bound)
    (hwords : c.words ≠ [] → 2 * o.style.indent < Literal.bound) :
    (write o c).Stands (o.style.withCommentChar '/') 0 := by
  have hone : 0 + (o.style.withCommentChar '/').indent < Literal.bound := by
    rwa [Nat.zero_add]
  have haddresses := stands_writeAddressEnum (stands_beginHeader o) hone c.map o.lead
    c.addressPad c.addresses
  refine .flushAll (.foldl (fun v hv word hword => ?_) (haddresses.blank.comment _).blank)
  exact stands_writeWord hv (hwords (List.ne_nil_of_mem hword)) word

/-- What a header with a content has in its lines is its text, if the lines can be written. -/
theorem gives_text (o : OutputOptions) (m : MemoryMap) :
    Gives (do (write o (← content o m)).text)
      (Defined o m ∧ (write o (contentOf o m)).stopped = false)
      (write o (contentOf o m)).finish :=
  (gives_content o m).bind fun _ => LineWriter.gives_text _

theorem going_write {o : OutputOptions} {m : MemoryMap}
    (hindent : o.style.indent < Literal.bound) (h : Defined o m) :
    (write o (contentOf o m)).stopped = false := by
  refine (stands_write hindent fun hne => ?_).going
  obtain ⟨g, hg⟩ := List.exists_mem_of_ne_nil _ (mt List.map_eq_nil_iff.2 hne)
  exact (h.words g hg).1

theorem generate_eq_ok {o : OutputOptions} {c : Component} {text : String}
    (h : generate o c = .ok text) : ∃ m, c.memoryMap? o.memoryMap = some m ∧ Defined o m ∧
      text = (write o (contentOf o m)).finish := by
  obtain ⟨m, hm, hdefined, rfl⟩ := (forMap_eq_ok_iff (gives_text o)).1 h
  exact ⟨m, hm, hdefined.1, rfl⟩

/-- A header is generated if the map exists and has a content. -/
theorem generate_eq_ok_iff {o : OutputOptions} (hindent : o.style.indent < Literal.bound)
    {c : Component} {text : String} : generate o c = .ok text ↔
      ∃ m, c.memoryMap? o.memoryMap = some m ∧ Defined o m ∧
        (write o (contentOf o m)).finish = text := by
  refine (forMap_eq_ok_iff (gives_text o)).trans (exists_congr fun m => and_congr_right fun _ =>
    and_congr_left fun _ => and_iff_left_of_imp (going_write hindent))

end RegAtlas.CHeader
