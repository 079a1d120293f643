import RegAtlas.Output.KernelHeader
import RegAtlas.Proofs.Output.Basic

/-!
# Contents of kernel headers

When a kernel header has a content, what it is, and the bits that its masks show.
-/

namespace RegAtlas.KernelHeader

open Output WordGroup

/-! ### Words -/

/-- The mask of a field. -/
def maskOf (wordBytes : Nat) (lead : String) (r : Register) (f : BitField) : Mask where
  field := f
  name := s!"{lead}_{Text.shoutingSnake f.name}"
  low := bitStart wordBytes r f
  high := bitLast wordBytes r f

/-- The masks of registers that share an access word. -/
def masksOf (wordBytes : Nat) (group : List Register) : List Mask :=
  let first := (group.head?.map (·.name)).getD ""
  group.flatMap fun r =>
    r.fieldsInOrder.map (maskOf wordBytes s!"REG_{Text.shoutingSnake first}" r)

def maskNames (wordBytes : Nat) (group : List Register) : List String :=
  (masksOf wordBytes group).map (·.name)

/-- What a header shows of registers that share an access word. -/
def wordOf (wordBytes : Nat) (group : List Register) : Word where
  group
  masks := masksOf wordBytes group
  pad := Text.widest (maskNames wordBytes group)

theorem gives_registerMasks (wordBytes : Nat) (lead : String) (r : Register) :
    Gives (registerMasks wordBytes lead r) (∀ f ∈ r.fields, BitsDefined wordBytes r f)
      (r.fieldsInOrder.map (maskOf wordBytes lead r)) := by
  refine (r.gives_sortedFields.bind fun _ => .mapM fun f _ =>
    (gives_bitRange wordBytes r f).bind_pure).congr ?_
  simp only [Register.mem_fieldsInOrder]
  exact and_iff_right_of_imp fun h f hf => (h f hf).2.1

theorem gives_wordMasks (wordBytes : Nat) (group : List Register) :
    Gives (wordMasks wordBytes group) (∀ r ∈ group, ∀ f ∈ r.fields, BitsDefined wordBytes r f)
      (masksOf wordBytes group) :=
  (Gives.mapM fun r _ => gives_registerMasks wordBytes _ r).bind_pure

theorem gives_word (wordBytes : Nat) (group : List Register) :
    Gives (word wordBytes group)
      ((∀ r ∈ group, ∀ f ∈ r.fields, BitsDefined wordBytes r f) ∧ Short (maskNames wordBytes group))
      (wordOf wordBytes group) :=
  (gives_wordMasks wordBytes group).bind fun _ => (gives_pad _).bind_pure

/-! ### Blocks and maps -/

/-- What a header shows of a block. -/
def regionOf (wordBytes : Nat) (b : AddressBlock) : Region where
  name := b.name
  words := (groupBy wordBytes Register.start b.registers).map (wordOf wordBytes)

/-- What a header shows of a memory map. -/
def contentOf (o : OutputOptions) (m : MemoryMap) : Content where
  map := m
  addresses := addressesOf m
  addressPad := Text.widest (addressNames o.lead m)
  regions := (registerBlocks m).map (regionOf o.wordBytes)

/-- A header has a content. -/
@[mk_iff]
structure Defined (o : OutputOptions) (m : MemoryMap) : Prop where
  addresses : AddressesDefined m
  names : Short (addressNames o.lead m)
  fields : EveryField m (BitsDefined o.wordBytes)
  words : ∀ g ∈ groupsOf o.wordBytes m, Short (maskNames o.wordBytes g)

instance (o : OutputOptions) (m : MemoryMap) : Decidable (Defined o m) :=
  decidable_of_iff' _ (defined_iff o m)

theorem gives_region (o : OutputOptions) (b : AddressBlock) :
    Gives (region o b) ((∀ r ∈ b.registers, numberOf? r.offset ≠ none) ∧
      (∀ r ∈ b.registers, ∀ f ∈ r.fields, BitsDefined o.wordBytes r f) ∧
      ∀ g ∈ groupBy o.wordBytes Register.start b.registers, Short (maskNames o.wordBytes g))
      (regionOf o.wordBytes b) := by
  refine ((gives_registers o.wordBytes b.registers).bind fun _ =>
    (Gives.mapM fun g _ => gives_word o.wordBytes g).bind_pure).congr ?_
  rw [forall₂_and, forall_mem_groupBy]

theorem gives_content (o : OutputOptions) (m : MemoryMap) :
    Gives (content o m) (Defined o m) (contentOf o m) := by
  refine ((gives_addresses m).bind fun _ => (gives_addressPad o.lead m).bind fun _ =>
    (Gives.mapM fun b _ => gives_region o b).bind_pure).congr ?_
  constructor
  · rintro ⟨haddr, hnames, hall⟩
    exact ⟨haddr, hnames, fun b hb => (hall b hb).2.1,
      forall_groupsOf.2 fun b hb => (hall b hb).2.2⟩
  · exact fun ⟨haddr, hnames, hfields, hwords⟩ => ⟨haddr, hnames, fun b hb =>
      ⟨haddr.offsets b hb, hfields b hb, forall_groupsOf.1 hwords b hb⟩⟩

/-! ### Generated headers -/

theorem stands_write {o : OutputOptions} (hindent : o.style.indent < Literal.bound) (c : Content) :
    (write o c).Stands (o.style.withCommentChar '/') 0 := by
  have hone : 0 + (o.style.withCommentChar '/').indent < Literal.bound := by
    rwa [Nat.zero_add]
  have hbegin := ((stands_beginHeader o).line "#include <linux/bits.h>").blank
  have haddresses := (stands_writeAddressEnum hbegin hone c.map o.lead c.addressPad
    c.addresses).blank
  refine .flushAll (.foldl (fun v hv region _ => ?_) haddresses)
  exact .foldl (fun u hu word _ => ((hu.comment _).writeLines _).blank) (hv.comment _).blank

theorem gives_text (o : OutputOptions) (m : MemoryMap) :
    Gives (do (write o (← content o m)).text)
      (Defined o m ∧ (write o (contentOf o m)).stopped = false)
      (write o (contentOf o m)).finish :=
  (gives_content o m).bind fun _ => LineWriter.gives_text _

theorem generate_eq_ok {o : OutputOptions} {c : Component} {text : String}
    (h : generate o c = .ok text) : ∃ m, c.memoryMap? o.memoryMap = some m ∧ Defined o m ∧
      text = (write o (contentOf o m)).finish := by
  obtain ⟨m, hm, hdefined, rfl⟩ := (forMap_eq_ok_iff (gives_text o)).1 h
  exact ⟨m, hm, hdefined.1, rfl⟩

/-- A header is generated if the map exists and has a content. -/
theorem generate_eq_ok_iff {o : OutputOptions} (hindent : o.style.indent < Literal.bound)
    {c : Component} {text : String} : generate o c = .ok text ↔
      ∃ m, c.memoryMap? o.memoryMap = some m ∧ Defined o m ∧
        (write o (contentOf o m)).finish = text :=
  (forMap_eq_ok_iff (gives_text o)).trans (exists_congr fun _ => and_congr_right fun _ =>
    and_congr_left fun _ => and_iff_left (stands_write hindent _).going)

/-! ### Bits -/

def Mask.bits (k : Mask) : BitField × Nat × Nat := (k.field, k.low, k.high)

/-- The masks of a block, in the order of its words. -/
def Region.masks (region : Region) : List Mask := region.words.flatMap (·.masks)

/-- The masks of a header, in the order of its blocks. -/
def Content.masks (c : Content) : List Mask := c.regions.flatMap Region.masks

theorem map_bits_masksOf (wordBytes : Nat) (group : List Register) :
    (masksOf wordBytes group).map Mask.bits = group.flatMap fun r =>
      r.fieldsInOrder.map fun f => (f, bitStart wordBytes r f, bitLast wordBytes r f) := by
  simp [masksOf, maskOf, Mask.bits, List.map_flatMap, Function.comp_def]

/-- The masks of a header show the bits of the fields. -/
theorem map_bits_contentOf (o : OutputOptions) (m : MemoryMap) :
    (contentOf o m).masks.map Mask.bits = bitsOf o.wordBytes m := by
  simp only [Content.masks, Region.masks, contentOf, regionOf, wordOf, List.flatMap_map,
    List.map_flatMap, map_bits_masksOf, flatMap_groupBy, bitsOf, fieldsOf, List.map_map]
  rfl

/-- A mask is named after a register of its word and after its field. -/
theorem exists_name_of_mem_masksOf {wordBytes : Nat} {group : List Register} {k : Mask}
    (h : k ∈ masksOf wordBytes group) : ∃ register : String,
      k.name = s!"REG_{Text.shoutingSnake register}_{Text.shoutingSnake k.field.name}" := by
  simp only [masksOf, List.mem_flatMap, List.mem_map] at h
  obtain ⟨r, -, f, -, rfl⟩ := h
  refine ⟨(group.head?.map (·.name)).getD "", ?_⟩
  simp only [maskOf, toString]

theorem mem_masks_contentOf {o : OutputOptions} {m : MemoryMap} {k : Mask} :
    k ∈ (contentOf o m).masks ↔ ∃ g ∈ groupsOf o.wordBytes m, k ∈ masksOf o.wordBytes g := by
  simp only [Content.masks, Region.masks, contentOf, regionOf, wordOf, groupsOf, List.flatMap_map,
    List.mem_flatMap]
  constructor
  · rintro ⟨b, hb, g, hg, hk⟩
    exact ⟨g, ⟨b, hb, hg⟩, hk⟩
  · rintro ⟨g, ⟨b, hb, hg⟩, hk⟩
    exact ⟨b, hb, g, hg, hk⟩

end RegAtlas.KernelHeader
