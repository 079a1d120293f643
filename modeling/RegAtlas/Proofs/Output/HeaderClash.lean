import Mathlib.Data.List.Nodup
import RegAtlas.Proofs.Output.HeaderNames

/-!
# Identifiers that a header declares twice

The enumerators of a header are the names of all registers and of all enumerated values in one
scope. The members of a struct are the names of the fields that share an access word, and the gaps
between them, which are numbered. Registers of different blocks, fields of different registers and
values of different fields may be named alike, and different names may have one converted form;
nothing keeps such names apart.
-/

namespace RegAtlas.CHeader

open Output Text LineWriter

/-! ### Names in a header -/

/-- The enumerator of an enumerated value. -/
def valueName (e : EnumValue) : String := shoutingSnake e.name

/-- The member that holds a field. -/
def memberName (f : BitField) : String := NameCase.snake.convert f.name

/-- The member that fills a gap. -/
def gapName (n : Nat) : String := s!"reserved_{n}"

theorem gapName_inj {a b : Nat} : gapName a = gapName b ↔ a = b := by
  refine ⟨fun h => ?_, fun h => h ▸ rfl⟩
  have hdigits := congrArg String.toList h
  simpa [gapName, toDigits_inj] using hdigits

/-- The number of gaps in the struct of an access word. -/
def Word.gaps (word : Word) : Nat := (word.members.filter (·.field.isNone)).length

theorem words_contentOf (o : OutputOptions) (m : MemoryMap) :
    (contentOf o m).words = (groupsOf o.wordBytes m).map (wordOf o) := rfl

/-! ### The content has plain names -/

theorem isPlainName_of_mem_membersFromOf {wordWidth next gaps : Nat} {slots : List Slot}
    {m : Member} (h : m ∈ membersFromOf wordWidth next gaps slots) : IsPlainName m.name := by
  have hgap (n k : Nat) : IsPlainName (Member.gap n k).name :=
    isPlainName_append (s := "reserved_") (by decide) (isPlainName_toString n)
  induction slots generalizing next gaps with
  | nil =>
    rw [membersFromOf] at h
    split at h
    · exact List.mem_singleton.1 h ▸ hgap _ _
    · simp at h
  | cons s slots ih =>
    have hslot : IsPlainName (Member.ofSlot s).name := isPlainName_snake _
    rw [membersFromOf] at h
    split at h
    · obtain rfl | h := List.mem_cons.1 h
      · exact hgap _ _
      obtain rfl | h := List.mem_cons.1 h
      · exact hslot
      · exact ih h
    · obtain rfl | h := List.mem_cons.1 h
      · exact hslot
      · exact ih h

theorem plain_wordOf (o : OutputOptions) (g : List Register) : (wordOf o g).Plain where
  members _ hm := isPlainName_of_mem_membersFromOf hm
  values e he v hv := by
    obtain ⟨r, -, he⟩ := List.mem_flatMap.1 he
    obtain ⟨f, -, rfl⟩ := List.mem_map.1 he
    obtain ⟨x, -, rfl⟩ := List.mem_map.1 hv
    exact isPlainName_shoutingSnake _

theorem plain_contentOf (o : OutputOptions) (m : MemoryMap) :
    ∀ word ∈ (contentOf o m).words, word.Plain := by
  intro word hword
  obtain ⟨g, -, rfl⟩ := List.mem_map.1 hword
  exact plain_wordOf o g

/-! ### Members -/

/-- The members of a struct are its fields and as many gaps as it has, numbered one by one. -/
theorem names_membersFromOf_perm (wordWidth next gaps : Nat) (slots : List Slot) :
    ((membersFromOf wordWidth next gaps slots).map (·.name)).Perm
      (slots.map (fun s => memberName s.field) ++ (List.range' gaps
        ((membersFromOf wordWidth next gaps slots).filter
          (·.field.isNone)).length).map gapName) := by
  induction slots generalizing next gaps with
  | nil =>
    unfold membersFromOf
    split <;> simp [Member.gap, gapName]
  | cons s slots ih =>
    have hname : (Member.ofSlot s).name = memberName s.field := rfl
    have hfield : (Member.ofSlot s).field.isNone = false := rfl
    unfold membersFromOf
    split
    case isTrue =>
      have hgap : ∀ width, (Member.gap gaps width).name = gapName gaps := fun _ => rfl
      have hnone : ∀ width, (Member.gap gaps width).field.isNone = true := fun _ => rfl
      simp only [List.map_cons, List.filter_cons, hname, hfield, hgap, hnone, if_true,
        Bool.false_eq_true, if_false, List.length_cons, List.range'_succ, List.cons_append]
      exact (List.Perm.swap _ _ _).trans
        (.cons _ ((List.Perm.cons _ (ih _ _)).trans List.perm_middle.symm))
    case isFalse =>
      simp only [List.map_cons, List.filter_cons, hname, hfield, Bool.false_eq_true, if_false,
        List.cons_append]
      exact .cons _ (ih _ _)

/-- The fields of registers that share an access word have members of their own. -/
structure MembersApart (o : OutputOptions) (g : List Register) : Prop where
  fields : (g.flatMap (·.fields)).Pairwise fun f f' => memberName f ≠ memberName f'
  /-- No field is named like a gap. -/
  gaps : ∀ f ∈ g.flatMap (·.fields), ∀ n < (wordOf o g).gaps, memberName f ≠ gapName n

theorem nodup_members_iff (o : OutputOptions) (g : List Register) :
    ((wordOf o g).members.map (·.name)).Nodup ↔ MembersApart o g := by
  have hfields : ((slotsOf o.wordBytes g).map fun s => memberName s.field).Perm
      ((g.flatMap (·.fields)).map memberName) := by
    have hslots := congrArg (List.map fun x : BitField × Nat × Nat => memberName x.1)
      (map_bits_slotsOf o.wordBytes g)
    rw [List.map_map] at hslots
    refine (List.Perm.of_eq hslots).trans ?_
    simp only [List.map_flatMap, List.map_map]
    exact .flatMap_left _ fun r _ => (WordGroup.inOrder_perm _ _).map _
  have hperm : ((wordOf o g).members.map (·.name)).Perm ((g.flatMap (·.fields)).map memberName ++
      (List.range' 0 (wordOf o g).gaps).map gapName) :=
    (names_membersFromOf_perm o.wordWidth 0 0 (slotsOf o.wordBytes g)).trans
      (hfields.append_right _)
  have hgaps : ((List.range' 0 (wordOf o g).gaps).map gapName).Nodup :=
    .map (fun _ _ => gapName_inj.1) List.nodup_range'
  rw [hperm.nodup_iff, List.nodup_append, List.nodup_iff_pairwise_ne, List.pairwise_map]
  constructor
  · rintro ⟨hfields, -, hne⟩
    refine ⟨hfields, fun f hf n hn => ?_⟩
    exact hne _ (List.mem_map_of_mem hf) _
      (List.mem_map_of_mem (List.mem_range'_1.2 ⟨n.zero_le, by simpa using hn⟩))
  · intro h
    refine ⟨h.fields, hgaps, fun name hname gap hgap => ?_⟩
    obtain ⟨f, hf, rfl⟩ := List.mem_map.1 hname
    obtain ⟨n, hn, rfl⟩ := List.mem_map.1 hgap
    exact h.gaps f hf n (by simpa using (List.mem_range'_1.1 hn).2)

theorem structs_write_contentOf (o : OutputOptions) (m : MemoryMap) :
    structs (write o (contentOf o m)) =
      (groupsOf o.wordBytes m).map fun g => (wordOf o g).members.map (·.name) := by
  rw [structs_write (plain_contentOf o m), words_contentOf, List.map_map]
  rfl

/-! ### Enumerators -/

/-- No register and no enumerated value has the enumerator of another one. -/
structure EnumeratorsApart (lead : String) (m : MemoryMap) : Prop where
  registers : (registersOf m).Pairwise fun r r' => addressName lead r ≠ addressName lead r'
  values : (valuesOf m).Pairwise fun e e' => valueName e ≠ valueName e'
  between : ∀ r ∈ registersOf m, ∀ e ∈ valuesOf m, addressName lead r ≠ valueName e

theorem flatMap_valueEnumsOf_perm (lead : String) (r : Register) :
    ((valueEnumsOf lead r).flatMap fun e => e.values.map Prod.snd).Perm
      (r.fields.flatMap fun f => f.enumValues.map valueName) := by
  -- A field without values has no enum, and would have no enumerators.
  have hempty (fs : List BitField) :
      (fs.filter (! ·.enumValues.isEmpty)).flatMap (fun f => f.enumValues.map valueName) =
        fs.flatMap fun f => f.enumValues.map valueName := by
    induction fs with
    | nil => rfl
    | cons f fs ih => cases hvalues : f.enumValues <;> simp [hvalues, ih]
  have hsorted (f : BitField) :
      ((WordGroup.sortByOffset (WordGroup.keyedBy (·.number?.getD 0) f.enumValues)).map
        fun x => valueName x.2).Perm (f.enumValues.map valueName) := by
    have hnames : (WordGroup.keyedBy (·.number?.getD 0) f.enumValues).map
        (fun x => valueName x.2) = f.enumValues.map valueName := by
      rw [WordGroup.keyedBy, List.map_map]
      rfl
    rw [← hnames, WordGroup.sortByOffset]
    exact (List.mergeSort_perm _ _).map _
  have hvalues : ((valueEnumsOf lead r).flatMap fun e => e.values.map Prod.snd) =
      (r.fieldsInOrder.filter (! ·.enumValues.isEmpty)).flatMap fun f =>
        (WordGroup.sortByOffset (WordGroup.keyedBy (·.number?.getD 0) f.enumValues)).map
          fun x => valueName x.2 := by
    simp [valueEnumsOf, List.flatMap_map, valueName, Function.comp_def]
  rw [hvalues]
  refine (List.Perm.flatMap_left _ fun f _ => hsorted f).trans ?_
  rw [hempty]
  exact (WordGroup.inOrder_perm _ _).flatMap_right _

theorem enumerators_write_perm (o : OutputOptions) (m : MemoryMap) :
    (enumerators (write o (contentOf o m))).Perm
      ((registersOf m).map (addressName o.lead) ++ (valuesOf m).map valueName) := by
  have hword (g : List Register) : (wordOf o g).enums.flatMap (fun e => e.values.map Prod.snd) =
      g.flatMap fun r => (valueEnumsOf o.lead r).flatMap fun e => e.values.map Prod.snd := by
    simp [wordOf, List.flatMap_assoc]
  have haddresses : ((contentOf o m).addresses.map fun x => addressName o.lead x.1).Perm
      ((registersOf m).map (addressName o.lead)) := by
    have hperm := (map_fst_addressesOf_perm m).map (addressName o.lead)
    rwa [List.map_map] at hperm
  have hvalues : ((contentOf o m).words.flatMap fun word =>
      word.enums.flatMap fun e => e.values.map Prod.snd).Perm
      ((valuesOf m).map valueName) := by
    rw [words_contentOf, List.flatMap_map]
    simp only [hword, groupsOf, List.flatMap_assoc, WordGroup.flatMap_groupBy, valuesOf,
      List.map_flatMap]
    exact .flatMap_left _ fun b _ => (WordGroup.inOrder_perm _ _).flatMap fun r _ =>
      flatMap_valueEnumsOf_perm o.lead r
  rw [enumerators_write (plain_contentOf o m)]
  exact haddresses.append hvalues

theorem nodup_enumerators_iff (o : OutputOptions) (m : MemoryMap) :
    (enumerators (write o (contentOf o m))).Nodup ↔ EnumeratorsApart o.lead m := by
  rw [(enumerators_write_perm o m).nodup_iff, List.nodup_append, List.nodup_iff_pairwise_ne,
    List.nodup_iff_pairwise_ne, List.pairwise_map, List.pairwise_map]
  constructor
  · rintro ⟨hregisters, hvalues, hne⟩
    exact ⟨hregisters, hvalues, fun r hr e he =>
      hne _ (List.mem_map_of_mem hr) _ (List.mem_map_of_mem he)⟩
  · intro h
    refine ⟨h.registers, h.values, fun name hname name' hname' => ?_⟩
    obtain ⟨r, hr, rfl⟩ := List.mem_map.1 hname
    obtain ⟨e, he, rfl⟩ := List.mem_map.1 hname'
    exact h.between r hr e he

/-! ### Generated headers -/

/-- When a header is generated, its lines declare every enumerator once if and only if the names of
the registers and of the enumerated values stay apart, and the members of each struct once if and
only if the names of its fields do, also from those of its gaps. -/
theorem identifiers_distinct_iff {o : OutputOptions} {c : Component} {text : String}
    (h : generate o c = .ok text) : ∃ m content, selectMap o c = .ok m ∧
      CHeader.content o m = .ok content ∧ text = (write o content).finish ∧
      ((enumerators (write o content)).Nodup ↔ EnumeratorsApart o.lead m) ∧
      List.Forall₂ (fun names g => names.Nodup ↔ MembersApart o g) (structs (write o content))
        (groupsOf o.wordBytes m) := by
  obtain ⟨m, hm, hdefined, htext⟩ := generate_eq_ok h
  refine ⟨m, _, selectMap_eq_ok_iff.2 hm, (gives_content o m).ok hdefined, htext,
    nodup_enumerators_iff o m, ?_⟩
  rw [structs_write_contentOf, List.forall₂_map_left_iff]
  exact List.forall₂_same.2 fun g _ => nodup_members_iff o g

theorem groupBy_pair {r t : Register} (hr : r.start = 0) (ht : t.start = 1) :
    WordGroup.groupBy 4 Register.start [r, t] = [[r, t]] := by
  have hsorted : WordGroup.sortByOffset [(0, r), (1, t)] = [(0, r), (1, t)] :=
    List.mergeSort_of_pairwise (by simp)
  simp [WordGroup.groupBy, WordGroup.group, WordGroup.keyedBy, hr, ht, hsorted, WordGroup.cutFrom,
    WordGroup.windowEnd, WordGroup.maxOffset]

/-- The members of such a word are the two fields with a gap behind each of them. -/
theorem memberNames_shared {r t : Register} {f g : BitField} {e d : EnumValue}
    (hr : Enabled "rx" 0 r f e) (ht : Enabled "tx" 1 t g d) :
    memberNames { name := "regs" } [r, t] =
      [memberName f, gapName 0, memberName g, gapName 1] := by
  have hfields {name : String} {start : Nat} {r : Register} {f : BitField} {e : EnumValue}
      (h : Enabled name start r f e) : r.fieldsInOrder = [f] := by
    rw [Register.fieldsInOrder, h.fields_eq]
    exact WordGroup.inOrder_of_pairwise (List.pairwise_singleton _ f)
  have hslots : slotsOf 4 [r, t] = [⟨f, 0, 1, some (upperText "rx")⟩,
      ⟨g, 8, 1, some (upperText "tx")⟩] := by
    simp [slotsOf, slotOf, hfields hr, hfields ht, WordGroup.bitStart, hr.field_start,
      ht.field_start, hr.field_count, ht.field_count, hr.start_eq, ht.start_eq, hr.name_eq,
      ht.name_eq]
  have hbytes : OutputOptions.wordBytes { name := "regs" } = 4 := rfl
  rw [memberNames, hbytes, hslots]
  rfl

/-- A header for a document with two registers in one access word. -/
theorem generate_sharedNames : ∃ reading m text, Ipxact.read sharedNames = .ok reading ∧
    generate { name := "regs" } reading.component = .ok text ∧
    reading.component.memoryMap? none = some m ∧
    ¬EnumeratorsApart "" m ∧ ∃ g ∈ groupsOf 4 m, ¬MembersApart { name := "regs" } g := by
  obtain ⟨reading, m, b, r, t, f, e, g, d, hread, hm, hdefined, hblocks, hmemory, hregisters,
    hr, ht⟩ := exists_sharedNames
  have hslots : EveryField m fun r f => SlotDefined 4 r f ∧ f.ValuesDefined :=
    fun b hb r hr f hf =>
      have hbits := hdefined.2 b hb r hr f hf
      have hsplit := WordGroup.bitsDefined_iff.2 hbits.1
      ⟨⟨hsplit.1, hsplit.2.1⟩, hbits.2⟩
  have hblocks' : registerBlocks m = [b] := by simp [registerBlocks, hblocks, hmemory]
  have hgroups : groupsOf 4 m = [[r, t]] := by
    simp [groupsOf, hblocks', hregisters, groupBy_pair hr.start_eq ht.start_eq]
  have hnames : Short (addressNames "" m) := by
    rw [short_addressNames, hblocks, List.forall_mem_singleton, hregisters]
    simp only [List.forall_mem_cons, Output.addressName, hr.name_eq, ht.name_eq]
    decide +kernel
  have hwords : ∀ g ∈ groupsOf 4 m, WordFits { name := "regs" } g := by
    rw [hgroups, List.forall_mem_singleton]
    refine ⟨by decide, ?_⟩
    rw [memberNames_shared hr ht, memberName, memberName, hr.field_name, ht.field_name]
    decide +kernel
  have hgenerate : generate { name := "regs" } reading.component = .ok _ :=
    (generate_eq_ok_iff (by decide)).2 ⟨m, hm, ⟨hdefined.1, hnames, hslots, hwords⟩, rfl⟩
  refine ⟨reading, m, _, hread, hgenerate, hm, ?_, ?_⟩
  · intro hapart
    have hvalues : valuesOf m = [e, d] := by
      simp [valuesOf, hblocks', hregisters, hr.fields_eq, ht.fields_eq, hr.values_eq, ht.values_eq]
    have hne := hapart.values
    rw [hvalues] at hne
    simp [valueName, hr.value_name, ht.value_name] at hne
  · refine ⟨[r, t], by simp [hgroups], fun hapart => ?_⟩
    have hne := hapart.fields
    simp [hr.fields_eq, ht.fields_eq, memberName, hr.field_name, ht.field_name] at hne

theorem identifiers_distinct_iff_sharedNames : ∃ reading m content text,
    Ipxact.read sharedNames = .ok reading ∧
    generate { name := "regs" } reading.component = .ok text ∧
    selectMap { name := "regs" } reading.component = .ok m ∧
    text = (write { name := "regs" } content).finish ∧
    ((enumerators (write { name := "regs" } content)).Nodup ↔ EnumeratorsApart "" m) ∧
    List.Forall₂ (fun names g => names.Nodup ↔ MembersApart { name := "regs" } g)
      (structs (write { name := "regs" } content)) (groupsOf 4 m) := by
  obtain ⟨reading, -, text, hread, htext, -⟩ := generate_sharedNames
  obtain ⟨m, content, hm, -, hfinish, hall⟩ := identifiers_distinct_iff htext
  exact ⟨reading, m, content, text, hread, htext, hm, hfinish, hall⟩

/-- Two registers of an accepted document share an access word, and their fields and values have the
same names: an enumerator is declared twice, and so is a member of the struct. -/
theorem identifiers_declared_twice : ∃ reading content text,
    Ipxact.read sharedNames = .ok reading ∧
    generate { name := "regs" } reading.component = .ok text ∧
    text = (write { name := "regs" } content).finish ∧
    ¬(enumerators (write { name := "regs" } content)).Nodup ∧
    ∃ names ∈ structs (write { name := "regs" } content), ¬names.Nodup := by
  obtain ⟨reading, m, text, hread, htext, hm, hvalues, g, hg, hmembers⟩ := generate_sharedNames
  obtain ⟨m', hm', -, hfinish⟩ := generate_eq_ok htext
  obtain rfl : m = m' := Option.some.inj (hm.symm.trans hm')
  refine ⟨reading, _, text, hread, htext, hfinish, mt (nodup_enumerators_iff _ m).1 hvalues, ?_⟩
  rw [structs_write_contentOf]
  exact ⟨_, List.mem_map_of_mem hg, mt (nodup_members_iff _ g).1 hmembers⟩

end RegAtlas.CHeader
