import RegAtlas.Proofs.Output.PackageClash

/-!
# Index constants of VHDL packages

The bits of fields in the lines of a package: a field of one bit has a natural constant with the
suffix `_IND`, any other field one with `_L` and behind it one with `_H`.
-/

namespace RegAtlas.VhdlPackage

open Output Text LineWriter

/-! ### Reading index constants -/

/-- The natural number that a line declares a constant for, with the name of the constant. -/
def naturalOn? (line : String) : Option (String × Nat) :=
  (stripStart? "constant ".toList line.toList).bind fun declaration =>
    (stripStart? ": natural := ".toList (declaration.dropWhile (· != ':'))).map fun value =>
      (nameAt declaration, numberAt value)

/-- What a name has behind its last underscore. -/
def suffixOf (name : String) : String :=
  String.ofList (name.toList.reverse.takeWhile (· != '_')).reverse

/-- What a name has before its last underscore. -/
def stemOf (name : String) : String :=
  String.ofList ((name.toList.reverse.dropWhile (· != '_')).drop 1).reverse

/-- Puts the lowest and the highest bit of a field together. -/
def pairIndices : List (String × Nat) → List (String × Nat × Nat)
  | [] => []
  | [(name, n)] => if suffixOf name = "IND" then [(stemOf name, n, n)] else []
  | (name, n) :: (next, high) :: rest =>
    if suffixOf name = "IND" then (stemOf name, n, n) :: pairIndices ((next, high) :: rest)
    else if suffixOf name = "L" ∧ suffixOf next = "H" ∧ stemOf name = stemOf next then
      (stemOf name, n, high) :: pairIndices rest
    else pairIndices ((next, high) :: rest)

/-- The natural constants in the lines of a text. -/
def naturals (w : LineWriter) : List (String × Nat) := w.shown.filterMap naturalOn?

/-- The indices in the lines of a text: names of fields with their lowest and highest bits. -/
def indices (w : LineWriter) : List (String × Nat × Nat) := pairIndices (naturals w)

/-! ### Suffixes -/

section

variable {stem suffix : String} (h : ∀ c ∈ suffix.toList, c ≠ '_')
include h

theorem takeWhile_reverse_suffix : (stem ++ "_" ++ suffix).toList.reverse.takeWhile (· != '_') =
    suffix.toList.reverse := by
  have hlist : (stem ++ "_" ++ suffix).toList.reverse =
      suffix.toList.reverse ++ '_' :: stem.toList.reverse := by
    simp
  rw [hlist, List.takeWhile_append_of_pos fun c hc => bne_iff_ne.2 (h c (List.mem_reverse.1 hc)),
    List.takeWhile_cons_of_neg (by decide), List.append_nil]

theorem suffixOf_append : suffixOf (stem ++ "_" ++ suffix) = suffix := by
  rw [suffixOf, takeWhile_reverse_suffix h, List.reverse_reverse, String.ofList_toList]

theorem stemOf_append : stemOf (stem ++ "_" ++ suffix) = stem := by
  have hlist : (stem ++ "_" ++ suffix).toList.reverse =
      suffix.toList.reverse ++ '_' :: stem.toList.reverse := by
    simp
  rw [stemOf, hlist, List.dropWhile_append_of_pos fun c hc =>
    bne_iff_ne.2 (h c (List.mem_reverse.1 hc)), List.dropWhile_cons_of_neg (by decide),
    List.drop_succ_cons, List.drop_zero, List.reverse_reverse, String.ofList_toList]

end

/-- What the constants of a field tell. -/
def FieldRange.index (r : FieldRange) : String × Nat × Nat :=
  (shoutingSnake r.field.name, r.low, r.high)

/-- The natural numbers that the constants of a field are declared for. -/
def FieldRange.naturals (r : FieldRange) : List (String × Nat) :=
  let name := shoutingSnake r.field.name
  if r.high = r.low then [(name ++ "_" ++ "IND", r.low)]
  else [(name ++ "_" ++ "L", r.low), (name ++ "_" ++ "H", r.high)]

/-- The bits of fields are read back from their natural numbers. -/
theorem pairIndices_flatMap (rs : List FieldRange) :
    pairIndices (rs.flatMap FieldRange.naturals) = rs.map FieldRange.index := by
  have hread : ∀ suffix ∈ ["IND", "L", "H"], ∀ stem : String,
      suffixOf (stem ++ "_" ++ suffix) = suffix ∧ stemOf (stem ++ "_" ++ suffix) = stem := by
    have hplain : ∀ suffix ∈ ["IND", "L", "H"], ∀ c ∈ suffix.toList, c ≠ '_' := by decide
    exact fun suffix hmem stem =>
      ⟨suffixOf_append (hplain suffix hmem), stemOf_append (hplain suffix hmem)⟩
  obtain ⟨hind, hlow, hhigh, -⟩ := by simpa only [List.forall_mem_cons] using hread
  -- A single index is told from the others by its suffix, whatever comes behind it.
  have hsingle (stem : String) (n : Nat) (rest : List (String × Nat)) :
      pairIndices ((stem ++ "_" ++ "IND", n) :: rest) = (stem, n, n) :: pairIndices rest := by
    cases rest <;> simp [pairIndices, hind]
  have hrange (stem : String) (low high : Nat) (rest : List (String × Nat)) :
      pairIndices ((stem ++ "_" ++ "L", low) :: (stem ++ "_" ++ "H", high) :: rest) =
        (stem, low, high) :: pairIndices rest := by
    simp [pairIndices, hlow, hhigh]
  induction rs with
  | nil => rfl
  | cons r rs ih =>
    rw [List.flatMap_cons, List.map_cons, FieldRange.naturals, FieldRange.index]
    split
    case isTrue hone => rw [List.singleton_append, hsingle, ih, hone]
    case isFalse => rw [List.cons_append, List.singleton_append, hrange, ih]

/-! ### Reading the lines of a package -/

theorem naturalOn?_of_not_isDeclaration {line : String} (h : ¬ IsDeclaration line) :
    naturalOn? line = none := by
  have hstrip : stripStart? "constant ".toList line.toList = none :=
    if_neg (mt List.isPrefixOf_iff_prefix.1 h)
  rw [naturalOn?, hstrip, Option.bind_none]

theorem dropWhile_toList_render {c : Constant} (hname : IsPlainName c.name) :
    (c.name.toList ++ ((List.replicate (28 - c.name.length) ' ' ++ [' ']) ++ ':' ::
      (' ' :: (c.type.toList ++ (" := ".toList ++ (c.value.toList ++ [';'])))))).dropWhile
        (· != ':') =
      ": ".toList ++ (c.type.toList ++ (" := ".toList ++ (c.value.toList ++ [';']))) := by
  have hplain : ∀ d ∈ c.name.toList, (d != ':') = true := by
    intro d hd
    rw [bne_iff_ne]
    rintro rfl
    exact absurd (hname _ hd) (by decide)
  have hblank : ∀ d ∈ List.replicate (28 - c.name.length) ' ' ++ [' '], (d != ':') = true := by
    intro d hd
    rw [bne_iff_ne]
    rintro rfl
    exact absurd (isBlank_of_mem_padding hd) (by decide)
  rw [List.dropWhile_append_of_pos hplain, List.dropWhile_append_of_pos hblank,
    List.dropWhile_cons_of_neg (by decide)]
  rfl

/-- A natural number is read back from its constant. -/
theorem naturalOn?_indexConstant {name : String} (hname : IsPlainName name) (n : Nat) :
    naturalOn? (indexConstant name n).render = some (name, n) := by
  have hvalue : ": ".toList ++ ((indexConstant name n).type.toList ++ (" := ".toList ++
      ((indexConstant name n).value.toList ++ [';']))) =
        ": natural := ".toList ++ ((toString n).toList ++ [';']) := by
    simp [indexConstant]
  have hdrop := dropWhile_toList_render (c := indexConstant name n) hname
  have hshown : nameAt ((indexConstant name n).name.toList ++
      ((List.replicate (28 - (indexConstant name n).name.length) ' ' ++ [' ']) ++ ':' ::
        (' ' :: ((indexConstant name n).type.toList ++ (" := ".toList ++
          ((indexConstant name n).value.toList ++ [';'])))))) = name :=
    nameAt_append hname (fun _ => isBlank_of_mem_padding) (by decide) (by decide)
  rw [naturalOn?, toList_render, stripStart?_append, Option.bind_some, hdrop, hvalue,
    stripStart?_append, Option.map_some, numberAt_toString_append n (by decide) [], hshown]

/-- A constant of bits declares no natural number. -/
theorem naturalOn?_bits {c : Constant} (hname : IsPlainName c.name)
    (htype : c.type.toList.head? = some 's') : naturalOn? c.render = none := by
  obtain ⟨rest, hrest⟩ := List.head?_eq_some_iff.1 htype
  have hstrip : stripStart? ": natural := ".toList (": ".toList ++ (c.type.toList ++
      (" := ".toList ++ (c.value.toList ++ [';'])))) = none := by
    refine if_neg ?_
    rw [hrest]
    simp [List.isPrefixOf]
  rw [naturalOn?, toList_render, stripStart?_append, Option.bind_some,
    dropWhile_toList_render hname, hstrip, Option.map_none]

/-- The constants of a range declare its natural numbers. -/
theorem filterMap_constants (r : FieldRange) :
    r.constants.filterMap (fun c => naturalOn? c.render) = r.naturals := by
  have hjoin : "_" ++ "IND" = "_IND" ∧ "_" ++ "L" = "_L" ∧ "_" ++ "H" = "_H" := by decide
  have hindex (suffix : String) (hsuffix : IsPlainName suffix) (n : Nat) :
      naturalOn? (indexConstant (shoutingSnake r.field.name ++ suffix) n).render =
        some (shoutingSnake r.field.name ++ suffix, n) :=
    naturalOn?_indexConstant (isPlainName_append (isPlainName_shoutingSnake _) hsuffix) n
  have hind := hindex "_IND" (by decide) r.low
  have hlow := hindex "_L" (by decide) r.low
  have hhigh := hindex "_H" (by decide) r.high
  simp only [FieldRange.constants, FieldRange.naturals, String.append_assoc, hjoin,
    toString_string]
  split
  · simp only [List.filterMap_cons, hind, List.filterMap_nil]
  · simp only [List.filterMap_cons, hlow, hhigh, List.filterMap_nil]

theorem head?_append {s t : String} {c : Char} (h : s.toList.head? = some c) :
    (s ++ t).toList.head? = some c := by
  rw [String.toList_append, List.head?_append, h, Option.some_or]

theorem head?_vectorType (width : Nat) : (vectorType width).toList.head? = some 's' :=
  head?_append (head?_append (by decide))

theorem head?_type_bitsConstantOf (name : String) (width n : Nat) :
    (bitsConstantOf name width n).type.toList.head? = some 's' := by
  have hbit : "std_logic".toList.head? = some 's' := by decide
  rw [bitsConstantOf]
  split
  · exact hbit
  · split
    · exact head?_vectorType width
    · exact head?_vectorType width

/-- Constants of bits declare no natural numbers. -/
theorem filterMap_bits {cs : List Constant} (hplain : AllPlain cs)
    (hbits : ∀ c ∈ cs, c.type.toList.head? = some 's') :
    cs.filterMap (fun c => naturalOn? c.render) = [] :=
  List.filterMap_eq_nil_iff.2 fun c hc => naturalOn?_bits (hplain c hc) (hbits c hc)

/-- Of the constants of a register, those of its ranges declare natural numbers. -/
theorem filterMap_registerPartOf (wordBytes : Nat) (r : Register) :
    (registerPartOf wordBytes r).constants.filterMap (fun c => naturalOn? c.render) =
      (registerPartOf wordBytes r).ranges.flatMap FieldRange.naturals := by
  have hvalues : ((registerPartOf wordBytes r).values.flatMap FieldValues.constants ++
      (registerPartOf wordBytes r).resets).filterMap (fun c => naturalOn? c.render) = [] := by
    have hmem : ∀ c ∈ (registerPartOf wordBytes r).values.flatMap FieldValues.constants ++
        (registerPartOf wordBytes r).resets, ∃ name width n,
          IsPlainName name ∧ c = bitsConstantOf name width n := by
      simp only [registerPartOf, fieldValuesOf, List.forall_mem_append,
        List.flatMap_map, List.forall_mem_flatMap, List.forall_mem_map, List.filterMap_map]
      refine ⟨fun f _ e _ => ⟨_, _, _, isPlainName_shoutingSnake _, rfl⟩, fun c hc => ?_⟩
      obtain ⟨f, -, hc⟩ := List.mem_filterMap.1 hc
      obtain ⟨n, -, rfl⟩ := Option.map_eq_some_iff.1 hc
      exact ⟨_, _, n, isPlainName_append (isPlainName_shoutingSnake _) (by decide), rfl⟩
    refine filterMap_bits (fun c hc => ?_) fun c hc => ?_
    · obtain ⟨name, width, n, hname, rfl⟩ := hmem c hc
      rwa [name_bitsConstantOf]
    · obtain ⟨name, width, n, -, rfl⟩ := hmem c hc
      exact head?_type_bitsConstantOf name width n
  rw [RegisterPart.constants, List.filterMap_append, hvalues, List.append_nil,
    List.filterMap_flatMap]
  exact List.flatMap_congr fun range _ => filterMap_constants range

/-- Natural constants are found in declarations alone. -/
theorem naturals_eq (w : LineWriter) :
    naturals w = (w.shown.filter IsDeclaration).filterMap naturalOn? := by
  rw [naturals, List.filterMap_filter]
  refine List.filterMap_congr fun line _ => ?_
  by_cases hline : IsDeclaration line
  · simp [hline]
  · simp [hline, naturalOn?_of_not_isDeclaration hline]

/-- Writing registers adds the natural constants of their ranges to those in the lines. -/
theorem naturals_writeRegisters {w : LineWriter} (wordBytes : Nat) (rs : List Register)
    (hmark : w.style.commentChar = '-') :
    naturals ((rs.map (registerPartOf wordBytes)).foldl writeRegister w) = naturals w ++
      rs.flatMap fun r => (registerPartOf wordBytes r).ranges.flatMap FieldRange.naturals := by
  have hfinds := (finds_filter_isDeclaration hmark).foldl writeRegister _
    (rs.map (registerPartOf wordBytes)) fun _ _ hv p _ => finds_register p hv
  rw [naturals_eq, filter_isDeclaration_of_finds hfinds, List.filterMap_append, ← naturals_eq,
    List.flatMap_map, List.filterMap_flatMap]
  refine congrArg _ (List.flatMap_congr fun r _ => ?_)
  rw [List.filterMap_map]
  exact filterMap_registerPartOf wordBytes r

/-- The lines of a package show the bits of the fields and no other indices. -/
theorem indices_write (o : OutputOptions) (m : MemoryMap) :
    indices (write o (contentOf o.wordBytes m)) =
      (contentOf o.wordBytes m).ranges.map FieldRange.index := by
  have hlines : naturals (write o (contentOf o.wordBytes m)) =
      (contentOf o.wordBytes m).constants.filterMap fun c => naturalOn? c.render := by
    rw [naturals_eq, filter_isDeclaration_write, List.filterMap_map]
    rfl
  have haddresses : (contentOf o.wordBytes m).addresses.filterMap
      (fun c => naturalOn? c.render) = [] := by
    refine filterMap_bits (fun c hc => allPlain_contentOf o.wordBytes m c
      (List.mem_append_left _ hc)) fun c hc => ?_
    obtain ⟨x, -, rfl⟩ := List.mem_map.1 hc
    exact head?_vectorType _
  have hregisters (b : AddressBlock) : ((blockPartOf o.wordBytes b).registers.flatMap
      RegisterPart.constants).filterMap (fun c => naturalOn? c.render) =
        ((blockPartOf o.wordBytes b).registers.flatMap (·.ranges)).flatMap
          FieldRange.naturals := by
    simp only [blockPartOf, List.flatMap_map, List.filterMap_flatMap, List.flatMap_assoc,
      filterMap_registerPartOf]
  rw [indices, hlines, ← pairIndices_flatMap, Content.constants, List.filterMap_append, haddresses,
    List.nil_append, Content.ranges, contentOf, List.flatMap_map, List.flatMap_map,
    List.filterMap_flatMap, List.flatMap_assoc]
  simp only [hregisters]

end RegAtlas.VhdlPackage
