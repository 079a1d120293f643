import RegAtlas.Proofs.Ipxact.Role

/-!
# Corresponding elements

What is read from an element depends on its head and on the children in each slot. There is one law
for each kind of element. Where reading can fail, the law is about the value: of two faults in
different slots, the order of the children decides which one is reported.
-/

namespace RegAtlas.Ipxact

open Xml (Element)

/-! ### Parts of one kind -/

section

variable {role : Role} {tags : List String} {tag : String} {α : Type} {e e' : Element}
  {ps ps' : List (Part α)} {read : Element → Except DocumentError α}

theorem nodePart_of_ne {a : Element} (h : a.name ≠ tag) : nodePart tag read a = .ok [] := if_neg h

/-- Children of one tag are read, others hold references or are passed over. -/
theorem nodeParts_alike (h : Corresponding role e e') (tags : List String)
    (htags : ∀ tag ∈ tags, role.child tag = .text)
    {childRole : Role} (hslot : [tag] ∈ role.slots) (hrole : role.child tag = childRole)
    (hread : ∀ a a', childRole.Same a a' → (read a).toOption = (read a').toOption) :
    ((readParts plain tags (nodePart tag read) e).toOption = none ∧
      (readParts plain tags (nodePart tag read) e').toOption = none) ∨
    ∃ ps ps', (readParts plain tags (nodePart tag read) e).toOption = some ps ∧
      (readParts plain tags (nodePart tag read) e').toOption = some ps' ∧
      Corresponding.PartsAlike role tags (nodePart tag read) ps ps' := by
  refine h.readParts_alike _ _ htags (fun a ha => ?_) fun a a' hsame => ?_
  · have hne : a.name ≠ tag := by simpa using ha [tag] hslot
    rw [Corresponding.childParts, nodePart_of_ne hne]
    split_ifs <;> rintro ⟨⟩
  · by_cases ha : a.name = tag
    · rw [nodePart, nodePart, if_pos ha, if_pos (hsame.name.symm.trans ha), toOption_bind,
        toOption_bind]
      rw [ha, hrole] at hsame
      rw [hread a a' hsame]
    · rw [nodePart_of_ne ha, nodePart_of_ne fun ha' => ha (hsame.name.trans ha')]

theorem last?_nodeParts (h : Corresponding.PartsAlike role tags (nodePart tag read) ps ps')
    (slot : List String) (hslot : slot ∈ role.slots) :
    Part.last? ps slot = Part.last? ps' slot := by
  refine h.last?_eq slot slot hslot (fun _ _ hout => hout) fun a parts _ hparts => ?_
  by_cases ha : a.name = tag
  · rw [nodePart, if_pos ha] at hparts
    cases hread : read a with
    | error e =>
      rw [hread] at hparts
      cases hparts
    | ok x =>
      rw [hread] at hparts
      obtain rfl := Except.ok.inj hparts
      rfl
  · rw [nodePart_of_ne ha] at hparts
    obtain rfl := Except.ok.inj hparts
    rfl

theorem nodes_nodeParts (h : Corresponding.PartsAlike role tags (nodePart tag read) ps ps')
    (hslot : [tag] ∈ role.slots) : Part.nodes ps = Part.nodes ps' := by
  refine h.filterMap_eq hslot (fun _ _ _ _ => rfl) fun a parts ha hparts => ?_
  rw [nodePart_of_ne (by simpa using ha)] at hparts
  obtain rfl := Except.ok.inj hparts
  rfl

end

section

variable {e e' : Element}

/-! ### Fields -/

theorem reset_eq (h : Corresponding .reset e e') :
    (reset plain e).toOption = (reset plain e').toOption := by
  let other (_ : Element) : Except DocumentError (List (Part Empty)) := return []
  have hparts := h.readParts_alike ["value", "mask"] other (by decide)
    (fun a _ => by
      rw [Corresponding.childParts]
      split_ifs <;> rintro ⟨⟩) fun _ _ _ => rfl
  simp only [reset, toOption_bind]
  obtain ⟨hnone, hnone'⟩ | ⟨ps, ps', hps, hps', halike⟩ := hparts
  · rw [hnone, hnone']
    rfl
  · have hother : ∀ (names slot : List String) (a : Element) parts, a.name ∉ slot →
        other a = .ok parts → parts.filterMap (Part.reference? names) = [] := by
      rintro names slot a _ - ⟨⟩
      rfl
    rw [hps, hps']
    simp only [Option.bind_some, Element.attribute?, h.attributes,
      halike.last?_eq ["value"] ["value"] (by decide) (by decide) (hother _ _),
      halike.last?_eq ["mask"] ["mask"] (by decide) (by decide) (hother _ _)]

theorem enumValue_eq (h : Corresponding .enumeratedValue e e') :
    (enumValue plain e).toOption = (enumValue plain e').toOption := by
  have hvalues : ((e.named "value").mapM fun child => value plain child.content).toOption =
      ((e'.named "value").mapM fun child => value plain child.content).toOption :=
    h.mapM_named_eq (by decide) (by decide : Role.enumeratedValue.child _ = .text)
      fun a a' hsame => by
        have hcontent : a.content = a'.content := hsame.read
        rw [hcontent]
  simp only [enumValue, toOption_bind, hvalues, Element.attribute?, h.attributes,
    h.label_eq (by decide), h.text?_eq ["usage"] (by decide)]

theorem testConstraint?_eq (h : Role.text.Same e e') : testConstraint? e = testConstraint? e' := by
  have hcontent : e.content = e'.content := h.read
  simp only [testConstraint?, Element.attribute?, h.name, h.attributes, hcontent]

theorem testConstraints_eq (h : Corresponding .field e e') :
    e.elements.filterMap testConstraint? = e'.elements.filterMap testConstraint? := by
  have hslot : Role.field.TextSlot ["testable", "testConstraint"] := by decide
  refine h.filterMap_eq hslot.1 (fun a ha => ?_) fun a a' ha hsame => ?_
  · simp only [List.mem_cons, List.not_mem_nil, or_false, not_or] at ha
    rw [testConstraint?, if_neg ha.2, if_neg ha.1]
  · rw [hslot.2 a.name ha] at hsame
    exact testConstraint?_eq hsame

theorem writeConstraints_eq (h : Corresponding .field e e') :
    e.elements.flatMap writeConstraints = e'.elements.flatMap writeConstraints := by
  refine h.flatMap_eq (by decide : ["writeValueConstraint"] ∈ Role.field.slots) (fun a ha => ?_)
    fun a a' ha hsame => ?_
  · rw [writeConstraints, if_neg (by simpa using ha)]
  · rw [List.mem_singleton.1 ha] at hsame
    exact congrArg writeConstraints hsame.read

/-- Where the parts that a child gives a field come from. -/
def FieldPartOf (name : String) : Part (Reset ⊕ EnumValue) → Prop
  | .reference tag _ => name = "writeValueConstraint" ∧ tag ∈ ["minimum", "maximum"]
  | .number _ => False
  | .node (.inl _) => name = "resets"
  | .node (.inr _) => name = "enumeratedValues"

theorem ensures_fieldPart (a : Element) :
    Ensures (fieldPart plain a) fun parts => ∀ p ∈ parts, FieldPartOf a.name p := by
  unfold fieldPart
  by_cases hconstraint : a.name = "writeValueConstraint"
  · rw [if_pos hconstraint]
    exact Corresponding.ensures_readParts (fun child htag => ⟨hconstraint, htag⟩)
      (fun _ => .pure (by simp)) a
  rw [if_neg hconstraint]
  by_cases hresets : a.name = "resets"
  · rw [if_pos hresets]
    exact Ensures.mapM fun child _ => (Ensures.trivial _).bind fun r _ => .pure hresets
  rw [if_neg hresets]
  by_cases hvalues : a.name = "enumeratedValues"
  · rw [if_pos hvalues]
    exact Ensures.mapM fun child _ => (Ensures.trivial _).bind fun v _ => .pure hvalues
  · rw [if_neg hvalues]
    exact .pure (by simp)

theorem resets_eq (h : Corresponding .resets e e') :
    ((e.named "reset").mapM (reset plain)).toOption =
      ((e'.named "reset").mapM (reset plain)).toOption :=
  h.mapM_named_eq (by decide) (by decide : Role.resets.child "reset" = .reset) fun _ _ hsame =>
    hsame.read

theorem enumValues_eq (h : Corresponding .enumeratedValues e e') :
    ((e.named "enumeratedValue").mapM (enumValue plain)).toOption =
      ((e'.named "enumeratedValue").mapM (enumValue plain)).toOption :=
  h.mapM_named_eq (by decide) (by decide : Role.enumeratedValues.child _ = .enumeratedValue)
    fun _ _ hsame => hsame.read

/-- An element that is no part of a field gives it nothing. -/
theorem fieldPart_of_ne {a : Element} (hconstraint : a.name ≠ "writeValueConstraint")
    (hresets : a.name ≠ "resets") (hvalues : a.name ≠ "enumeratedValues") :
    fieldPart plain a = .ok [] := by
  rw [fieldPart, if_neg hconstraint, if_neg hresets, if_neg hvalues]
  rfl

theorem fieldPart_eq (a a' : Element) (hsame : (Role.field.child a.name).Same a a') :
    (fieldPart plain a).toOption = (fieldPart plain a').toOption := by
  have hname := hsame.name
  by_cases hconstraint : a.name = "writeValueConstraint"
  · rw [hconstraint] at hsame
    exact congrArg (fun a => (fieldPart plain a).toOption) hsame.read
  by_cases hresets : a.name = "resets"
  · rw [hresets] at hsame
    have hread : ((a.named "reset").mapM (reset plain)).toOption =
        ((a'.named "reset").mapM (reset plain)).toOption := hsame.read
    rw [fieldPart, fieldPart, ← hname, if_neg hconstraint, if_neg hconstraint, if_pos hresets,
      if_pos hresets]
    simp only [← map_eq_pure_bind, mapM_map, toOption_map, hread]
  by_cases hvalues : a.name = "enumeratedValues"
  · rw [hvalues] at hsame
    have hread : ((a.named "enumeratedValue").mapM (enumValue plain)).toOption =
        ((a'.named "enumeratedValue").mapM (enumValue plain)).toOption := hsame.read
    rw [fieldPart, fieldPart, ← hname, if_neg hconstraint, if_neg hconstraint, if_neg hresets,
      if_neg hresets, if_pos hvalues, if_pos hvalues]
    simp only [← map_eq_pure_bind, mapM_map, toOption_map, hread]
  · rw [fieldPart_of_ne hconstraint hresets hvalues,
      fieldPart_of_ne (hname ▸ hconstraint) (hname ▸ hresets) (hname ▸ hvalues)]

/-- References of a field are the same if no constraint holds such, or if constraints stand for
their slot. -/
theorem last?_fieldParts {ps ps' : List (Part (Reset ⊕ EnumValue))}
    (h : Corresponding.PartsAlike .field fieldTags (fieldPart plain) ps ps')
    (slot names : List String) (hslot : slot ∈ Role.field.slots)
    (hnames : ∀ tag ∈ fieldTags, tag ∉ slot → tag ∉ names)
    (hlimits : "writeValueConstraint" ∉ slot → "minimum" ∉ names ∧ "maximum" ∉ names) :
    Part.last? ps names = Part.last? ps' names := by
  refine h.last?_eq slot names hslot hnames fun a parts ha hparts => ?_
  refine List.filterMap_eq_nil_iff.2 fun p hp => ?_
  have hof := ensures_fieldPart a parts hparts p hp
  cases p with
  | reference tag r =>
    obtain ⟨hconstraint, htag⟩ := hof
    rw [hconstraint] at ha
    obtain ⟨hmin, hmax⟩ := hlimits ha
    refine if_neg fun hmem => ?_
    simp only [List.mem_cons, List.not_mem_nil, or_false] at htag
    rcases htag with rfl | rfl
    · exact hmin hmem
    · exact hmax hmem
  | number | node => rfl

/-- Nodes of a field are the same if only children with one tag give such. -/
theorem nodes_fieldParts {ps ps' : List (Part (Reset ⊕ EnumValue))} {β : Type}
    (h : Corresponding.PartsAlike .field fieldTags (fieldPart plain) ps ps')
    (pick : Reset ⊕ EnumValue → Option β) (tag : String) (hslot : [tag] ∈ Role.field.slots)
    (hpick : ∀ name x, FieldPartOf name (.node x) → name ≠ tag → pick x = none) :
    (Part.nodes ps).filterMap pick = (Part.nodes ps').filterMap pick := by
  rw [Part.nodes, Part.nodes, List.filterMap_filterMap, List.filterMap_filterMap]
  refine h.filterMap_eq hslot (fun _ _ _ _ => rfl) fun a parts ha hparts =>
    List.filterMap_eq_nil_iff.2 fun p hp => ?_
  have hof := ensures_fieldPart a parts hparts p hp
  cases p with
  | reference | number => rfl
  | node x => exact hpick a.name x hof (by simpa using ha)

theorem field_eq (h : Corresponding .field e e') :
    (field plain e).toOption = (field plain e').toOption := by
  have hparts := h.readParts_alike fieldTags (fieldPart plain) (by decide) (fun a ha => by
    have hconstraint : a.name ≠ "writeValueConstraint" := by
      simpa using ha ["writeValueConstraint"] (by decide)
    have hresets : a.name ≠ "resets" := by simpa using ha ["resets"] (by decide)
    have hvalues : a.name ≠ "enumeratedValues" := by
      simpa using ha ["enumeratedValues"] (by decide)
    rw [Corresponding.childParts, fieldPart_of_ne hconstraint hresets hvalues]
    split_ifs <;> rintro ⟨⟩) fieldPart_eq
  simp only [field, toOption_bind, Element.attribute?, h.attributes]
  obtain ⟨hnone, hnone'⟩ | ⟨ps, ps', hps, hps', halike⟩ := hparts
  · simp only [hnone, hnone', Option.bind_none]
  · have hresets := nodes_fieldParts halike Sum.getLeft? "resets" (by decide)
      fun name x hof hne => by
        cases x with
        | inl r => exact absurd hof hne
        | inr v => rfl
    have hvalues := nodes_fieldParts halike Sum.getRight? "enumeratedValues" (by decide)
      fun name x hof hne => by
        cases x with
        | inl r => rfl
        | inr v => exact absurd hof hne
    simp only [hps, hps', Option.bind_some, h.label_eq (by decide),
      last?_fieldParts halike ["offset", "bitOffset"] ["offset", "bitOffset"] (by decide)
        (by decide) (by decide),
      last?_fieldParts halike ["width", "bitWidth"] ["width", "bitWidth"] (by decide) (by decide)
        (by decide),
      last?_fieldParts halike ["isPresent"] ["isPresent"] (by decide) (by decide) (by decide),
      last?_fieldParts halike ["reserved"] ["reserved"] (by decide) (by decide) (by decide),
      last?_fieldParts halike ["writeValueConstraint", "writevalueminimum"]
        ["writevalueminimum", "minimum"] (by decide) (by decide) (by decide),
      last?_fieldParts halike ["writeValueConstraint", "writevaluemaximum"]
        ["writevaluemaximum", "maximum"] (by decide) (by decide) (by decide),
      h.keyword_eq ["volatile"] (by decide), h.keyword_eq ["access"] (by decide),
      h.keyword_eq ["modifiedWriteValue", "modifiedWriteValues"] (by decide),
      h.keyword_eq ["readAction"] (by decide), h.keyword_eq ["testable"] (by decide),
      testConstraints_eq h, writeConstraints_eq h, hresets, hvalues]

/-! ### Registers, blocks and memory maps -/

theorem register_eq (h : Corresponding .register e e') :
    (register plain e).toOption = (register plain e').toOption := by
  have hparts := nodeParts_alike h registerTags (by decide) (by decide)
    (by decide : Role.register.child "field" = .field) fun _ _ hsame => hsame.read
  simp only [register, toOption_bind]
  obtain ⟨hnone, hnone'⟩ | ⟨ps, ps', hps, hps', halike⟩ := hparts
  · simp only [hnone, hnone', Option.bind_none]
  · simp only [hps, hps', Option.bind_some, h.label_eq (by decide),
      nodes_nodeParts halike (by decide),
      last?_nodeParts halike ["offset", "addressOffset"] (by decide),
      last?_nodeParts halike ["size"] (by decide),
      last?_nodeParts halike ["dimension", "dim"] (by decide),
      last?_nodeParts halike ["isPresent"] (by decide),
      h.keyword_eq ["volatile"] (by decide), h.keyword_eq ["access"] (by decide)]

theorem addressBlock_eq (h : Corresponding .addressBlock e e') :
    (addressBlock plain e).toOption = (addressBlock plain e').toOption := by
  have hparts := nodeParts_alike h blockTags (by decide) (by decide)
    (by decide : Role.addressBlock.child "register" = .register) fun _ _ hsame => hsame.read
  simp only [addressBlock, toOption_bind]
  obtain ⟨hnone, hnone'⟩ | ⟨ps, ps', hps, hps', halike⟩ := hparts
  · simp only [hnone, hnone', Option.bind_none]
  · simp only [hps, hps', Option.bind_some, h.label_eq (by decide),
      nodes_nodeParts halike (by decide),
      last?_nodeParts halike ["baseAddress"] (by decide),
      last?_nodeParts halike ["blockRange", "range"] (by decide),
      last?_nodeParts halike ["width"] (by decide),
      last?_nodeParts halike ["isPresent"] (by decide),
      h.keyword_eq ["usage"] (by decide), h.keyword_eq ["access"] (by decide),
      h.keyword_eq ["volatile"] (by decide)]

theorem number_eq (h : Role.text.Same e e') : (number e).toOption = (number e').toOption := by
  have hcontent : e.content = e'.content := h.read
  rw [number, number, hcontent]
  cases Literal.parse? e'.content <;> rfl

theorem mapPart_of_ne {a : Element} (hbits : a.name ≠ "addressUnitBits")
    (hblock : a.name ≠ "addressBlock") : mapPart plain a = .ok [] := by
  rw [mapPart, if_neg hbits, nodePart_of_ne hblock]

theorem mapPart_eq (a a' : Element) (hsame : (Role.memoryMap.child a.name).Same a a') :
    (mapPart plain a).toOption = (mapPart plain a').toOption := by
  have hname := hsame.name
  by_cases hbits : a.name = "addressUnitBits"
  · rw [hbits] at hsame
    rw [mapPart, mapPart, ← hname, if_pos hbits, if_pos hbits, toOption_bind, toOption_bind]
    exact congrArg (Option.bind · _) (number_eq hsame)
  by_cases hblock : a.name = "addressBlock"
  · rw [hblock] at hsame
    have hread : (addressBlock plain a).toOption = (addressBlock plain a').toOption := hsame.read
    rw [mapPart, mapPart, ← hname, if_neg hbits, if_neg hbits, nodePart, nodePart, ← hname,
      if_pos hblock, if_pos hblock, toOption_bind, toOption_bind, hread]
  · rw [mapPart_of_ne hbits hblock, mapPart_of_ne (hname ▸ hbits) (hname ▸ hblock)]

/-- Where the parts that a child gives a memory map come from. -/
def MapPartOf (name : String) : Part AddressBlock → Prop
  | .reference _ _ => False
  | .number _ => name = "addressUnitBits"
  | .node _ => name = "addressBlock"

theorem ensures_mapPart (a : Element) :
    Ensures (mapPart plain a) fun parts => ∀ p ∈ parts, MapPartOf a.name p := by
  by_cases hbits : a.name = "addressUnitBits"
  · rw [mapPart, if_pos hbits]
    refine (Ensures.trivial _).bind fun n _ => .pure fun p hp => ?_
    obtain rfl := List.mem_singleton.1 hp
    exact hbits
  by_cases hblock : a.name = "addressBlock"
  · rw [mapPart, if_neg hbits, nodePart, if_pos hblock]
    refine (Ensures.trivial _).bind fun b _ => .pure fun p hp => ?_
    obtain rfl := List.mem_singleton.1 hp
    exact hblock
  · rw [mapPart_of_ne hbits hblock]
    exact .pure (by simp)

/-- What a memory map takes from its parts is the same if only children with the tags of one slot
give such. -/
theorem filterMap_mapParts {ps ps' : List (Part AddressBlock)} {β : Type}
    (h : Corresponding.PartsAlike .memoryMap ["isPresent"] (mapPart plain) ps ps')
    {view : Part AddressBlock → Option β} (slot : List String)
    (hslot : slot ∈ Role.memoryMap.slots)
    (hreference : ∀ tag ∈ ["isPresent"], tag ∉ slot → ∀ r, view (.reference tag r) = none)
    (hview : ∀ name p, MapPartOf name p → name ∉ slot → view p = none) :
    ps.filterMap view = ps'.filterMap view :=
  h.filterMap_eq hslot hreference fun a parts ha hparts => List.filterMap_eq_nil_iff.2 fun p hp =>
    hview a.name p (ensures_mapPart a parts hparts p hp) ha

theorem memoryMap_eq (h : Corresponding .memoryMap e e') :
    (memoryMap plain e).toOption = (memoryMap plain e').toOption := by
  have hparts := h.readParts_alike ["isPresent"] (mapPart plain) (by decide) (fun a ha => by
    have hbits : a.name ≠ "addressUnitBits" := by simpa using ha ["addressUnitBits"] (by decide)
    have hblock : a.name ≠ "addressBlock" := by simpa using ha ["addressBlock"] (by decide)
    rw [Corresponding.childParts, mapPart_of_ne hbits hblock]
    split_ifs <;> rintro ⟨⟩) mapPart_eq
  simp only [memoryMap, toOption_bind]
  obtain ⟨hnone, hnone'⟩ | ⟨ps, ps', hps, hps', halike⟩ := hparts
  · simp only [hnone, hnone', Option.bind_none]
  have hnumbers : ps.filterMap Part.number? = ps'.filterMap Part.number? :=
    filterMap_mapParts halike ["addressUnitBits"] (by decide) (fun _ _ _ _ => rfl)
      fun name p hof hne => by
        cases p with
        | reference | node => rfl
        | number n => exact absurd (List.mem_singleton.2 hof) hne
  have hnodes : Part.nodes ps = Part.nodes ps' :=
    filterMap_mapParts halike ["addressBlock"] (by decide) (fun _ _ _ _ => rfl)
      fun name p hof hne => by
        cases p with
        | reference | number => rfl
        | node b => exact absurd (List.mem_singleton.2 hof) hne
  have hpresent : Part.last? ps ["isPresent"] = Part.last? ps' ["isPresent"] :=
    congrArg List.getLast? (filterMap_mapParts halike ["isPresent"] (by decide)
      (fun tag htag hne => absurd htag hne) fun name p hof hne => by
        cases p with
        | reference => exact hof.elim
        | number | node => rfl)
  simp only [hps, hps', Option.bind_some, hnumbers, hnodes, hpresent, h.label_eq (by decide)]

/-! ### Parameters, reset domains and components -/

theorem parameter_eq (h : Corresponding .parameter e e') (hname : e.name = e'.name) :
    (parameter plain e).toOption = (parameter plain e').toOption := by
  have hattribute : ∀ name, e.attribute? name = e'.attribute? name := fun name => by
    rw [Element.attribute?, h.attributes, Element.attribute?]
  have hkey : requireAttribute e "parameterId" = requireAttribute e' "parameterId" := by
    rw [requireAttribute, requireAttribute, hattribute, hname]
  have hvalue : (e.last? ["value"]).map (reference plain) =
      (e'.last? ["value"]).map (reference plain) :=
    h.last_eq (by decide) fun a a' ha hsame => by
      rw [List.mem_singleton.1 ha, show Role.parameter.child _ = .text by decide] at hsame
      have hcontent : a.content = a'.content := hsame.read
      rw [reference, hcontent, reference]
  simp only [parameter, hkey, optionMapM_congr_map hvalue, hattribute, h.label_eq (by decide)]

theorem parameters_eq (h : Corresponding .parameters e e') :
    (parameters plain e).toOption = (parameters plain e').toOption := by
  have hall : ((e.named "parameter").mapM (parameter plain)).toOption =
      ((e'.named "parameter").mapM (parameter plain)).toOption :=
    h.mapM_named_eq (by decide) (by decide : Role.parameters.child _ = .parameter)
      fun _ _ hsame => hsame.read
  simp only [parameters, toOption_bind, hall]

theorem memoryMaps_eq (h : Corresponding .memoryMaps e e') :
    ((e.named "memoryMap").mapM (memoryMap plain)).toOption =
      ((e'.named "memoryMap").mapM (memoryMap plain)).toOption :=
  h.mapM_named_eq (by decide) (by decide : Role.memoryMaps.child _ = .memoryMap)
    fun _ _ hsame => hsame.read

theorem resetType_eq (h : Corresponding .resetType e e') :
    resetType plain e = resetType plain e' := by
  rw [resetType, h.label_eq (by decide), resetType]

theorem resetTypes_eq (h : Corresponding .resetTypes e e') :
    ((e.named "resetType").mapM (resetType plain)).toOption =
      ((e'.named "resetType").mapM (resetType plain)).toOption :=
  h.mapM_named_eq (by decide) (by decide : Role.resetTypes.child _ = .resetType) fun _ _ hsame =>
    hsame.read

theorem requireText_eq (h : Corresponding .component e e') (tag : String)
    (hslot : Role.component.TextSlot [tag]) :
    (requireText e tag).toOption = (requireText e' tag).toOption := by
  rw [requireText, requireText, h.text?_eq [tag] hslot]
  cases text? e' [tag] <;> rfl

theorem vlnv_eq (h : Corresponding .component e e') : (vlnv e).toOption = (vlnv e').toOption := by
  simp only [vlnv, toOption_bind, requireText_eq h "vendor" (by decide),
    requireText_eq h "library" (by decide), requireText_eq h "name" (by decide),
    requireText_eq h "version" (by decide)]

/-- What a child of a component gives, by its tag. -/
theorem componentPart_plain (a : Element) : (componentPart plain a).toOption =
    if a.name = "parameters" then (parameters plain a).toOption.map .parameters
    else if a.name = "resetTypes" then
      ((a.named "resetType").mapM (resetType plain)).toOption.map .resetTypes
    else if a.name = "memoryMaps" then
      ((a.named "memoryMap").mapM (memoryMap plain)).toOption.map .memoryMaps
    else if a.name = "vendorExtensions" then
      (extensions plain a.children).toOption.map .extensions
    else some .other := by
  unfold componentPart
  split_ifs <;> first | exact toOption_map _ _ | rfl

theorem componentPart_eq (a a' : Element) (hsame : (Role.component.child a.name).Same a a') :
    (componentPart plain a).toOption = (componentPart plain a').toOption := by
  rw [componentPart_plain, componentPart_plain, ← hsame.name]
  split_ifs with hparameters htypes hmaps hextensions
  · rw [hparameters] at hsame
    have hread : (parameters plain a).toOption = (parameters plain a').toOption := hsame.read
    rw [hread]
  · rw [htypes] at hsame
    have hread : ((a.named "resetType").mapM (resetType plain)).toOption =
        ((a'.named "resetType").mapM (resetType plain)).toOption := hsame.read
    rw [hread]
  · rw [hmaps] at hsame
    have hread : ((a.named "memoryMap").mapM (memoryMap plain)).toOption =
        ((a'.named "memoryMap").mapM (memoryMap plain)).toOption := hsame.read
    rw [hread]
  · rw [hextensions] at hsame
    exact congrArg (fun a => (extensions plain (Element.children a)).toOption.map
      ComponentPart.extensions) hsame.read
  · rfl

/-- Where the parts that a child gives a component come from. -/
def ComponentPartOf (name : String) : ComponentPart → Prop
  | .parameters _ => name = "parameters"
  | .resetTypes _ => name = "resetTypes"
  | .memoryMaps _ => name = "memoryMaps"
  | .extensions _ => name = "vendorExtensions"
  | .other => True

theorem componentPartOf {a : Element} {part : ComponentPart}
    (h : (componentPart plain a).toOption = some part) : ComponentPartOf a.name part := by
  rw [componentPart_plain] at h
  split_ifs at h with hparameters htypes hmaps hextensions
  · obtain ⟨ps, -, rfl⟩ := Option.map_eq_some_iff.1 h
    exact hparameters
  · obtain ⟨ts, -, rfl⟩ := Option.map_eq_some_iff.1 h
    exact htypes
  · obtain ⟨ms, -, rfl⟩ := Option.map_eq_some_iff.1 h
    exact hmaps
  · obtain ⟨es, -, rfl⟩ := Option.map_eq_some_iff.1 h
    exact hextensions
  · obtain rfl := Option.some.inj h
    trivial

/-- Lists of one kind are the same if only children with one tag give such. -/
theorem lastList_eq (h : Corresponding .component e e') {α : Type}
    (part? : ComponentPart → Option (List α)) (tag : String)
    (hslot : [tag] ∈ Role.component.slots)
    (hpart : ∀ name part, ComponentPartOf name part → name ≠ tag → part? part = none) :
    lastList part? (e.elements.filterMap fun a => (componentPart plain a).toOption) =
      lastList part? (e'.elements.filterMap fun a => (componentPart plain a).toOption) := by
  rw [lastList, lastList, List.filterMap_filterMap, List.filterMap_filterMap]
  refine congrArg (fun lists => (List.getLast? lists).getD []) (h.filterMap_eq hslot
    (fun a ha => ?_) fun a a' _ hsame => by rw [componentPart_eq a a' hsame])
  cases hread : (componentPart plain a).toOption with
  | none => rfl
  | some part => exact hpart a.name part (componentPartOf hread) (by simpa using ha)

theorem component_eq (h : Corresponding .component e e') (hname : e.name = e'.name) :
    (component plain e).toOption = (component plain e').toOption := by
  have hreadable := h.forall_elements_iff
    (P := fun a => (componentPart plain a).toOption ≠ none) (fun a ha => by
      have hparameters : a.name ≠ "parameters" := by simpa using ha ["parameters"] (by decide)
      have htypes : a.name ≠ "resetTypes" := by simpa using ha ["resetTypes"] (by decide)
      have hmaps : a.name ≠ "memoryMaps" := by simpa using ha ["memoryMaps"] (by decide)
      have hextensions : a.name ≠ "vendorExtensions" := by
        simpa using ha ["vendorExtensions"] (by decide)
      rw [componentPart_plain, if_neg hparameters, if_neg htypes, if_neg hmaps,
        if_neg hextensions]
      rintro ⟨⟩) fun a a' hsame => by rw [componentPart_eq a a' hsame]
  have hparameters := lastList_eq h ComponentPart.parameters? "parameters" (by decide)
    fun name part hof hne => by
      cases part with
      | parameters ps => exact absurd hof hne
      | _ => rfl
  have htypes := lastList_eq h ComponentPart.resetTypes? "resetTypes" (by decide)
    fun name part hof hne => by
      cases part with
      | resetTypes ts => exact absurd hof hne
      | _ => rfl
  have hmaps := lastList_eq h ComponentPart.memoryMaps? "memoryMaps" (by decide)
    fun name part hof hne => by
      cases part with
      | memoryMaps ms => exact absurd hof hne
      | _ => rfl
  have hextensions := lastList_eq h ComponentPart.extensions? "vendorExtensions" (by decide)
    fun name part hof hne => by
      cases part with
      | extensions es => exact absurd hof hne
      | _ => rfl
  by_cases hroot : e.name = "component"
  swap
  · rw [component, component, if_pos hroot, if_pos (hname ▸ hroot)]
    rfl
  rw [component, component, if_neg (not_not.2 hroot), if_neg (not_not.2 (hname ▸ hroot))]
  have hvlnv : (liftM (vlnv e) : Except DocumentError Vlnv).toOption =
      (liftM (vlnv e') : Except DocumentError Vlnv).toOption := vlnv_eq h
  simp only [toOption_bind, toOption_mapM, hvlnv]
  by_cases hread : ∀ a ∈ e.elements, (componentPart plain a).toOption ≠ none
  · rw [mapM_eq_some hread, mapM_eq_some (hreadable.1 hread)]
    simp only [Option.bind_some, hparameters, htypes, hmaps, hextensions, h.label_eq (by decide),
      h.text?_eq ["author"] (by decide), h.text?_eq ["license"] (by decide)]
  · rw [mapM_eq_none hread, mapM_eq_none (mt hreadable.2 hread)]
    simp only [Option.bind_none]

end

/-- Elements with one head and with the same children, slot by slot, are read alike. -/
theorem Corresponding.same {role : Role} {e e' : Element} (h : Corresponding role e e')
    (hname : e.name = e'.name) (htext : role ≠ .text) (hverbatim : role ≠ .verbatim) :
    role.Same e e' := by
  refine ⟨hname, h.attributes, ?_⟩
  cases role with
  | component => exact component_eq h hname
  | parameters => exact parameters_eq h
  | parameter => exact parameter_eq h hname
  | resetTypes => exact resetTypes_eq h
  | resetType => exact congrArg Except.toOption (resetType_eq h)
  | memoryMaps => exact memoryMaps_eq h
  | memoryMap => exact memoryMap_eq h
  | addressBlock => exact addressBlock_eq h
  | register => exact register_eq h
  | field => exact field_eq h
  | resets => exact resets_eq h
  | reset => exact reset_eq h
  | enumeratedValues => exact enumValues_eq h
  | enumeratedValue => exact enumValue_eq h
  | text => exact absurd rfl htext
  | verbatim => exact absurd rfl hverbatim

end RegAtlas.Ipxact
