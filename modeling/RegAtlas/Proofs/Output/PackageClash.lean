import Mathlib.Data.List.Nodup
import RegAtlas.Proofs.Output.PackageNames

/-!
# Constants that a package declares twice

The constants of a package are the names of its registers and fields with suffixes and the names of
its enumerated values, all in upper case. No suffix ends another one, so constants with suffixes are
the same if and only if the names and the suffixes are. Fields of different registers may have one
name, and so may values of different fields.
-/

namespace RegAtlas.VhdlPackage

open Output Text LineWriter WordGroup

/-! ### Names in a package -/

def addressName (r : Register) : String := shoutingSnake r.name ++ "_ADR"

def valueName (e : EnumValue) : String := shoutingSnake e.name

/-- The suffixes of the constants for a field: one bit or two ends, and a reset value. -/
def fieldSuffixes (wordBytes : Nat) (x : Register × BitField) : List String :=
  (if bitLast wordBytes x.1 x.2 = bitStart wordBytes x.1 x.2 then ["_IND"] else ["_L", "_H"]) ++
    (if x.2.resetNumber?.isSome then ["_RSTVAL"] else [])

def fieldNames (wordBytes : Nat) (x : Register × BitField) : List String :=
  (fieldSuffixes wordBytes x).map (shoutingSnake x.2.name ++ ·)

def suffixes : List String := ["_ADR", "_IND", "_L", "_H", "_RSTVAL"]

/-- A field never has the suffix of a register, and none of its own twice. -/
theorem fieldSuffixes_spec (wordBytes : Nat) (x : Register × BitField) :
    (fieldSuffixes wordBytes x).Nodup ∧
      ∀ s ∈ fieldSuffixes wordBytes x, s ∈ suffixes ∧ s ≠ "_ADR" := by
  rw [fieldSuffixes]
  split <;> split <;> decide

/-- A name with a suffix shows both. -/
theorem append_suffix_inj {a b s t : String} (hs : s ∈ suffixes) (ht : t ∈ suffixes) :
    a ++ s = b ++ t ↔ a = b ∧ s = t := by
  have hends : ∀ s ∈ suffixes, ∀ t ∈ suffixes, s.toList <:+ t.toList → s = t := by decide
  refine ⟨fun h => ?_, fun ⟨ha, hs⟩ => by rw [ha, hs]⟩
  have hlists : a.toList ++ s.toList = b.toList ++ t.toList := by
    rw [← String.toList_append, h, String.toList_append]
  obtain rfl : s = t := by
    have hs' : s.toList <:+ b.toList ++ t.toList := hlists ▸ List.suffix_append _ _
    obtain h | h := List.suffix_or_suffix_of_suffix hs' (List.suffix_append _ _)
    · exact hends s hs t ht h
    · exact (hends t ht s hs h).symm
  exact ⟨String.toList_inj.1 (List.append_cancel_right hlists), rfl⟩

theorem nodup_fieldNames (wordBytes : Nat) (x : Register × BitField) :
    (fieldNames wordBytes x).Nodup := by
  obtain ⟨hnodup, hmem⟩ := fieldSuffixes_spec wordBytes x
  refine hnodup.map_on fun s hs t ht heq => ?_
  obtain ⟨-, hsuffix⟩ := (append_suffix_inj (hmem s hs).1 (hmem t ht).1).1 heq
  exact hsuffix

/-- Two fields share a constant if they have one name and a suffix in common. -/
theorem disjoint_fieldNames_iff {wordBytes : Nat} {x y : Register × BitField} :
    (fieldNames wordBytes x).Disjoint (fieldNames wordBytes y) ↔
      (shoutingSnake x.2.name = shoutingSnake y.2.name →
        (fieldSuffixes wordBytes x).Disjoint (fieldSuffixes wordBytes y)) := by
  have hx := (fieldSuffixes_spec wordBytes x).2
  have hy := (fieldSuffixes_spec wordBytes y).2
  constructor
  · intro h hname s hs hs'
    have hy : shoutingSnake x.2.name ++ s ∈ fieldNames wordBytes y := by
      rw [hname]
      exact List.mem_map_of_mem hs'
    exact h (List.mem_map_of_mem hs) hy
  · intro h name hname hname'
    obtain ⟨s, hs, rfl⟩ := List.mem_map.1 hname
    obtain ⟨t, ht, heq⟩ := List.mem_map.1 hname'
    obtain ⟨hnames, rfl⟩ := (append_suffix_inj (hy t ht).1 (hx s hs).1).1 heq
    exact h hnames.symm hs ht

/-! ### The constants of a map -/

theorem names_constants_fieldRangeOf (wordBytes : Nat) (r : Register) (f : BitField) :
    (fieldRangeOf wordBytes r f).constants.map (·.name) =
      (if bitLast wordBytes r f = bitStart wordBytes r f then ["_IND"] else ["_L", "_H"]).map
        (shoutingSnake f.name ++ ·) := by
  rw [FieldRange.constants, fieldRangeOf]
  split <;> simp [indexConstant]

/-- The constants for the bits of a field and for its reset value. -/
theorem fieldNames_eq (wordBytes : Nat) (r : Register) (f : BitField) :
    fieldNames wordBytes (r, f) = (fieldRangeOf wordBytes r f).constants.map (·.name) ++
      (resetOf? f).toList.map (·.name) := by
  rw [fieldNames, fieldSuffixes, List.map_append, names_constants_fieldRangeOf]
  congr 1
  cases hreset : f.resetNumber? <;> simp [resetOf?, hreset, name_bitsConstantOf]

theorem names_registerPartOf_perm (wordBytes : Nat) (r : Register) :
    ((registerPartOf wordBytes r).constants.map (·.name)).Perm
      (r.fieldsInOrder.flatMap (fun f => fieldNames wordBytes (r, f)) ++
        r.fieldsInOrder.flatMap fun f => f.enumValues.map valueName) := by
  have hvalues (f : BitField) : (fieldValuesOf f).constants.map (·.name) =
      f.enumValues.map valueName := by
    simp [fieldValuesOf, name_bitsConstantOf, valueName, Function.comp_def]
  have hresets (fs : List BitField) : ((fs.map resetOf?).filterMap id).map (·.name) =
      fs.flatMap fun f => (resetOf? f).toList.map (·.name) := by
    induction fs with
    | nil => rfl
    | cons f fs ih => cases hreset : resetOf? f <;> simp [hreset, ← ih]
  have hnames : (registerPartOf wordBytes r).constants.map (·.name) =
      r.fieldsInOrder.flatMap (fun f => (fieldRangeOf wordBytes r f).constants.map (·.name)) ++
        (r.fieldsInOrder.flatMap (fun f => f.enumValues.map valueName) ++
          r.fieldsInOrder.flatMap fun f => (resetOf? f).toList.map (·.name)) := by
    rw [RegisterPart.constants, List.map_append, List.map_append, registerPartOf, hresets]
    simp only [List.map_flatMap, List.flatMap_map, hvalues]
  rw [hnames]
  refine ((List.perm_append_comm).append_left _).trans ?_
  rw [← List.append_assoc]
  refine .append_right _ ((List.flatMap_append_perm _ _ _).trans (.of_eq ?_))
  exact List.flatMap_congr fun f _ => (fieldNames_eq wordBytes r f).symm

theorem names_contentOf_perm (wordBytes : Nat) (m : MemoryMap) :
    ((contentOf wordBytes m).constants.map (·.name)).Perm
      ((registersOf m).map addressName ++ ((fieldsOf m).flatMap (fieldNames wordBytes) ++
        (valuesOf m).map valueName)) := by
  have haddresses : ((contentOf wordBytes m).addresses.map (·.name)).Perm
      ((registersOf m).map addressName) := by
    refine .trans (.of_eq ?_) ((map_fst_addressesOf_perm m).map addressName)
    simp [contentOf, addressConstantOf, addressName, Function.comp_def]
  have hfields : (fieldsOf m).flatMap
      (fun x => fieldNames wordBytes x ++ x.2.enumValues.map valueName) =
      (registerBlocks m).flatMap fun b => b.registersInOrder.flatMap fun r =>
        r.fieldsInOrder.flatMap fun f =>
          fieldNames wordBytes (r, f) ++ f.enumValues.map valueName := by
    simp only [fieldsOf, List.flatMap_assoc, List.flatMap_map]
  have hblocks : (((contentOf wordBytes m).blocks.flatMap fun b =>
      b.registers.flatMap RegisterPart.constants).map (·.name)).Perm
      ((fieldsOf m).flatMap (fieldNames wordBytes) ++ (valuesOf m).map valueName) := by
    have hvalues := (flatMap_enumValues_perm m).map valueName
    rw [List.map_flatMap] at hvalues
    refine .trans ?_ (((List.flatMap_append_perm _ _ _).symm).trans (hvalues.append_left _))
    rw [hfields]
    simp only [contentOf, blockPartOf, List.map_flatMap, List.flatMap_map]
    exact .flatMap_left _ fun b _ => .flatMap_left _ fun r _ =>
      (names_registerPartOf_perm wordBytes r).trans (List.flatMap_append_perm _ _ _)
  rw [Content.constants, List.map_append]
  exact haddresses.append hblocks

/-! ### Names without regard to case -/

/-- Every constant has a converted name, perhaps with a suffix. -/
theorem exists_name_of_mem_constants {wordBytes : Nat} {m : MemoryMap} {c : Constant}
    (h : c ∈ (contentOf wordBytes m).constants) :
    ∃ name, ∃ s ∈ "" :: suffixes, c.name = shoutingSnake name ++ s := by
  have hmem := (names_contentOf_perm wordBytes m).subset (List.mem_map_of_mem h)
  rw [List.mem_append, List.mem_append] at hmem
  obtain hname | hname | hname := hmem
  · obtain ⟨r, -, hname⟩ := List.mem_map.1 hname
    exact ⟨r.name, "_ADR", by decide, hname.symm⟩
  · obtain ⟨x, -, hname⟩ := List.mem_flatMap.1 hname
    obtain ⟨s, hs, hname⟩ := List.mem_map.1 hname
    exact ⟨x.2.name, s, List.mem_cons_of_mem _ ((fieldSuffixes_spec wordBytes x).2 s hs).1,
      hname.symm⟩
  · obtain ⟨e, -, hname⟩ := List.mem_map.1 hname
    exact ⟨e.name, "", by decide, by rw [String.append_empty, ← hname, valueName]⟩

theorem allPlain_contentOf (wordBytes : Nat) (m : MemoryMap) :
    AllPlain (contentOf wordBytes m).constants := by
  intro c hc
  obtain ⟨name, s, hs, hname⟩ := exists_name_of_mem_constants hc
  have hplain : ∀ s ∈ "" :: suffixes, IsPlainName s := by decide
  exact hname ▸ isPlainName_append (isPlainName_shoutingSnake name) (hplain s hs)

theorem isRaised_of_mem_constants {wordBytes : Nat} {m : MemoryMap} {c : Constant}
    (h : c ∈ (contentOf wordBytes m).constants) : IsRaised c.name := by
  obtain ⟨name, s, hs, hname⟩ := exists_name_of_mem_constants h
  have hraised : ∀ s ∈ "" :: suffixes, IsRaised s := by decide
  exact hname ▸ (isRaised_shoutingSnake name).append (hraised s hs)

/-- Constants that differ do so in more than the case of letters. -/
theorem nodup_foldName_iff (wordBytes : Nat) (m : MemoryMap) :
    (((contentOf wordBytes m).constants.map (·.name)).map foldName).Nodup ↔
      ((contentOf wordBytes m).constants.map (·.name)).Nodup := by
  refine ⟨.of_map _, fun h => h.map_on fun s hs t ht heq => ?_⟩
  obtain ⟨c, hc, rfl⟩ := List.mem_map.1 hs
  obtain ⟨d, hd, rfl⟩ := List.mem_map.1 ht
  exact ((isRaised_of_mem_constants hc).foldName_inj (isRaised_of_mem_constants hd)).1 heq

/-! ### Constants that stay apart -/

/-- No register, field or enumerated value has a constant of another one. -/
structure ConstantsApart (wordBytes : Nat) (m : MemoryMap) : Prop where
  registers : (registersOf m).Pairwise fun r r' => shoutingSnake r.name ≠ shoutingSnake r'.name
  /-- Fields of one name differ in all suffixes. -/
  fields : (fieldsOf m).Pairwise fun x y => shoutingSnake x.2.name = shoutingSnake y.2.name →
    (fieldSuffixes wordBytes x).Disjoint (fieldSuffixes wordBytes y)
  values : (valuesOf m).Pairwise fun e e' => valueName e ≠ valueName e'
  /-- No value is named like a register or a field with a suffix. -/
  between : ∀ e ∈ valuesOf m, (∀ r ∈ registersOf m, valueName e ≠ addressName r) ∧
    ∀ x ∈ fieldsOf m, valueName e ∉ fieldNames wordBytes x

theorem addressName_notMem_fieldNames (wordBytes : Nat) (r : Register) (x : Register × BitField) :
    addressName r ∉ fieldNames wordBytes x := by
  intro h
  obtain ⟨s, hs, heq⟩ := List.mem_map.1 h
  obtain ⟨hsuffix, hne⟩ := (fieldSuffixes_spec wordBytes x).2 s hs
  exact hne ((append_suffix_inj hsuffix (by decide)).1 heq).2

theorem nodup_constants_iff (wordBytes : Nat) (m : MemoryMap) :
    ((contentOf wordBytes m).constants.map (·.name)).Nodup ↔ ConstantsApart wordBytes m := by
  have haddresses : ((registersOf m).map addressName).Nodup ↔
      (registersOf m).Pairwise fun r r' => shoutingSnake r.name ≠ shoutingSnake r'.name := by
    rw [List.nodup_iff_pairwise_ne, List.pairwise_map]
    simp only [addressName, ne_eq, append_suffix_inj (s := "_ADR") (t := "_ADR") (by decide)
      (by decide), and_true]
  have hfields : ((fieldsOf m).flatMap (fieldNames wordBytes)).Nodup ↔
      (fieldsOf m).Pairwise fun x y => shoutingSnake x.2.name = shoutingSnake y.2.name →
        (fieldSuffixes wordBytes x).Disjoint (fieldSuffixes wordBytes y) := by
    rw [List.nodup_flatMap, and_iff_right fun x _ => nodup_fieldNames wordBytes x]
    exact List.Pairwise.iff fun _ _ => disjoint_fieldNames_iff
  have hvalues : ((valuesOf m).map valueName).Nodup ↔
      (valuesOf m).Pairwise fun e e' => valueName e ≠ valueName e' := by
    rw [List.nodup_iff_pairwise_ne, List.pairwise_map]
  rw [(names_contentOf_perm wordBytes m).nodup_iff, List.nodup_append', List.nodup_append',
    haddresses, hfields, hvalues, List.disjoint_append_right]
  constructor
  · rintro ⟨hregisters, ⟨hfields, hvalues, hfield⟩, -, haddress⟩
    refine ⟨hregisters, hfields, hvalues, fun e he => ⟨fun r hr heq => ?_, fun x hx hname => ?_⟩⟩
    · exact haddress (List.mem_map_of_mem hr) (heq ▸ List.mem_map_of_mem he)
    · exact hfield (List.mem_flatMap.2 ⟨x, hx, hname⟩) (List.mem_map_of_mem he)
  · intro h
    refine ⟨h.registers, ⟨h.fields, h.values, fun name hname hname' => ?_⟩,
      fun name hname hname' => ?_, fun name hname hname' => ?_⟩
    · obtain ⟨x, hx, hname⟩ := List.mem_flatMap.1 hname
      obtain ⟨e, he, rfl⟩ := List.mem_map.1 hname'
      exact (h.between e he).2 x hx hname
    · obtain ⟨r, -, rfl⟩ := List.mem_map.1 hname
      obtain ⟨x, -, hname'⟩ := List.mem_flatMap.1 hname'
      exact addressName_notMem_fieldNames wordBytes r x hname'
    · obtain ⟨r, hr, rfl⟩ := List.mem_map.1 hname
      obtain ⟨e, he, heq⟩ := List.mem_map.1 hname'
      exact (h.between e he).1 r hr heq

/-! ### Generated packages -/

theorem constantNames_write_contentOf (o : OutputOptions) (m : MemoryMap) :
    constantNames (write o (contentOf o.wordBytes m)) =
      (contentOf o.wordBytes m).constants.map (·.name) :=
  constantNames_write (allPlain_contentOf o.wordBytes m)

/-- When a package is generated, its lines declare every constant once, without regard to case, if
and only if the names of the registers, fields and enumerated values stay apart. -/
theorem constants_distinct_iff {o : OutputOptions} {c : Component} {text : String}
    (h : generate o c = .ok text) : ∃ m content, selectMap o c = .ok m ∧
      VhdlPackage.content o m = .ok content ∧ text = (write o content).finish ∧
      (((constantNames (write o content)).map foldName).Nodup ↔ ConstantsApart o.wordBytes m) := by
  obtain ⟨m, hm, hdefined, htext⟩ := generate_eq_ok h
  refine ⟨m, _, selectMap_eq_ok_iff.2 hm, (gives_content o m).ok hdefined, htext, ?_⟩
  rw [constantNames_write_contentOf, nodup_foldName_iff, nodup_constants_iff]

/-- A package for a document with two fields of one name. -/
theorem generate_sharedNames : ∃ reading m text, Ipxact.read sharedNames = .ok reading ∧
    generate { name := "regs" } reading.component = .ok text ∧
    reading.component.memoryMap? none = some m ∧ ¬ConstantsApart 4 m := by
  obtain ⟨reading, m, b, r, t, f, e, g, d, hread, hm, hdefined, hblocks, hmemory, hregisters,
    hr, ht⟩ := exists_sharedNames
  have hblocks' : registerBlocks m = [b] := by simp [registerBlocks, hblocks, hmemory]
  have hfit : EveryField m fun _ f => ValuesFit f := by
    rw [EveryField, hblocks', List.forall_mem_singleton, hregisters]
    simp only [List.forall_mem_cons, hr.fields_eq, ht.fields_eq, ValuesFit, hr.field_count,
      ht.field_count]
    simp [digitCount, Bounded.widthBound]
  have hfields : EveryField m (FieldFits 4) := fun b hb r hr f hf =>
    ⟨(hdefined.2 b hb r hr f hf).1, (hdefined.2 b hb r hr f hf).2, hfit b hb r hr f hf⟩
  refine ⟨reading, m, _, hread,
    (generate_eq_ok_iff (by decide)).2 ⟨m, hm, ⟨hdefined.1, hfields⟩, rfl⟩, hm, fun hapart => ?_⟩
  have hvalues : valuesOf m = [e, d] := by
    simp [valuesOf, hblocks', hregisters, hr.fields_eq, ht.fields_eq, hr.values_eq, ht.values_eq]
  have hne := hapart.values
  rw [hvalues] at hne
  simp [valueName, hr.value_name, ht.value_name] at hne

theorem constants_distinct_iff_sharedNames : ∃ reading m content text,
    Ipxact.read sharedNames = .ok reading ∧
    generate { name := "regs" } reading.component = .ok text ∧
    selectMap { name := "regs" } reading.component = .ok m ∧
    text = (write { name := "regs" } content).finish ∧
    (((constantNames (write { name := "regs" } content)).map foldName).Nodup ↔
      ConstantsApart 4 m) := by
  obtain ⟨reading, -, text, hread, htext, -⟩ := generate_sharedNames
  obtain ⟨m, content, hm, -, hfinish, hiff⟩ := constants_distinct_iff htext
  exact ⟨reading, m, content, text, hread, htext, hm, hfinish, hiff⟩

/-- Two registers of an accepted document have fields and values of the same names, and a package
for it declares a constant twice. -/
theorem constants_declared_twice : ∃ reading content text,
    Ipxact.read sharedNames = .ok reading ∧
    generate { name := "regs" } reading.component = .ok text ∧
    text = (write { name := "regs" } content).finish ∧
    ¬(constantNames (write { name := "regs" } content)).Nodup := by
  obtain ⟨reading, m, text, hread, htext, hm, hapart⟩ := generate_sharedNames
  obtain ⟨m', hm', -, hfinish⟩ := generate_eq_ok htext
  obtain rfl : m = m' := Option.some.inj (hm.symm.trans hm')
  refine ⟨reading, _, text, hread, htext, hfinish, ?_⟩
  rw [constantNames_write_contentOf]
  exact mt (nodup_constants_iff _ m).1 hapart

end RegAtlas.VhdlPackage
