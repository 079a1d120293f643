import Mathlib.Data.List.Nodup
import Mathlib.Tactic.Choose
import RegAtlas.Proofs.Ipxact.Drawing
import RegAtlas.Proofs.Result

/-!
# Accepted documents

The element trees that describe a component. What is asked of them is said element by element: the
names of children are compared with those of their siblings only.
-/

namespace RegAtlas

/-! ### Names in a component -/

/-- Fields have names of their own. -/
def Register.NamesDistinct (r : Register) : Prop := (r.fields.map (·.name)).Nodup

/-- Below the block, siblings have names of their own. -/
@[mk_iff]
structure AddressBlock.NamesDistinct (b : AddressBlock) : Prop where
  names : (b.registers.map (·.name)).Nodup
  registers : ∀ r ∈ b.registers, r.NamesDistinct

@[mk_iff]
structure MemoryMap.NamesDistinct (m : MemoryMap) : Prop where
  names : (m.blocks.map (·.name)).Nodup
  blocks : ∀ b ∈ m.blocks, b.NamesDistinct

/-- Parameters have keys of their own, and siblings have names of their own. -/
@[mk_iff]
structure Component.NamesDistinct (c : Component) : Prop where
  keys : (c.parameters.map (·.key)).Nodup
  names : (c.memoryMaps.map (·.name)).Nodup
  memoryMaps : ∀ m ∈ c.memoryMaps, m.NamesDistinct

namespace Ipxact

open Xml (Element)

/-! ### What is asked of elements -/

/-- The name that an element gives: the text of the last child for it. -/
def nameOf (e : Element) : String := ((e.named "name").getLast?.map Element.content).getD ""

/-- The names of the child elements with a tag. -/
def childNames (e : Element) (tag : String) : List String := (e.named tag).map nameOf

structure BlockAccepted (e : Element) : Prop where
  names : (childNames e "register").Nodup
  registers : ∀ r ∈ e.named "register", (childNames r "field").Nodup

structure MapAccepted (e : Element) : Prop where
  unitBits : ∀ bits ∈ e.named "addressUnitBits", Literal.parse? bits.content ≠ none
  names : (childNames e "addressBlock").Nodup
  blocks : ∀ b ∈ e.named "addressBlock", BlockAccepted b

structure ParametersAccepted (e : Element) : Prop where
  keyed : ∀ p ∈ e.named "parameter", p.attribute? "parameterId" ≠ none
  keys : ((e.named "parameter").map (·.attribute? "parameterId")).Nodup

/-- What a tree must be to describe a component. Lists that a later one replaces count as well,
but for the names of their maps. -/
structure Accepted (root : Element) : Prop where
  isComponent : root.name = "component"
  vlnv : ∀ tag ∈ ["vendor", "library", "name", "version"], root.named tag ≠ []
  parameters : ∀ list ∈ root.named "parameters", ParametersAccepted list
  memoryMaps : ∀ list ∈ root.named "memoryMaps", ∀ m ∈ list.named "memoryMap", MapAccepted m
  names : ∀ list, (root.named "memoryMaps").getLast? = some list →
    (childNames list "memoryMap").Nodup

/-! ### Properties of an element -/

theorem text?_singleton (e : Element) (tag : String) :
    text? e [tag] = (e.named tag).getLast?.map Element.content := by
  have hfilter : (e.elements.filter fun child => [tag].contains child.name) = e.named tag := by
    refine List.filter_congr fun child _ => ?_
    rw [List.contains_cons, List.contains_nil, Bool.or_false]
  rw [text?, Element.last?, hfilter]

@[simp]
theorem name_label (e : Element) : (label e).name = nameOf e := by
  rw [label, text?_singleton, nameOf]

theorem gives_requireDistinct (kind parent : String) (names : List String) :
    Gives (requireDistinct kind parent names) names.Nodup () := by
  have hnone : firstRepeat? id [] names = none ↔ names.Nodup := by
    simp [firstRepeat?_eq_none_iff]
  unfold requireDistinct
  cases hrepeat : firstRepeat? id [] names with
  | none => exact ⟨fun _ => rfl, fun h => absurd (hnone.1 hrepeat) h⟩
  | some name => exact ⟨fun h => absurd (hnone.2 h) (by simp [hrepeat]), fun _ => ⟨_, rfl⟩⟩

theorem gives_number (e : Element) :
    Gives (number e) (Literal.parse? e.content ≠ none) ((Literal.parse? e.content).getD 0) := by
  unfold number
  cases Literal.parse? e.content with
  | none => exact ⟨fun h => absurd rfl h, fun _ => ⟨_, rfl⟩⟩
  | some n => exact ⟨fun _ => rfl, fun h => absurd (by simp) h⟩

theorem mem_named {e child : Element} {tag : String} :
    child ∈ e.named tag ↔ child ∈ e.elements ∧ child.name = tag := by
  simp [Element.named]

/-! ### Children -/

section

variable {α : Type}

/-- Children that hold references can always be read. -/
theorem gives_readParts (accepted : Element → Prop) {tags : List String}
    {other : Element → Except DocumentError (List (Part α))} {value : Element → List (Part α)}
    (h : ∀ a, Gives (other a) (accepted a) (value a)) (e : Element) :
    Gives (readParts plain tags other e) (∀ a ∈ e.elements, a.name ∉ tags → accepted a)
      (e.elements.flatMap fun a =>
        if a.name ∈ tags then [.reference a.name (.ofText a.content)] else value a) := by
  rw [List.flatMap_def]
  refine (Gives.mapM fun a _ => ?_).bind_pure
  by_cases htag : a.name ∈ tags
  · rw [if_pos htag, if_pos htag]
    exact (Gives.of_eq_ok rfl).congr (by simp [htag])
  · rw [if_neg htag, if_neg htag]
    exact (h a).congr (by simp [htag])

theorem gives_nodePart {accepted : Element → Prop} {tag : String}
    {read : Element → Except DocumentError α} {value : Element → α}
    (h : ∀ a, Gives (read a) (accepted a) (value a)) (e : Element) :
    Gives (nodePart tag read e) (e.name = tag → accepted e)
      (if e.name = tag then [.node (value e)] else []) := by
  unfold nodePart
  by_cases htag : e.name = tag
  · rw [if_pos htag, if_pos htag]
    exact (h e).bind_pure.congr (by simp [htag])
  · rw [if_neg htag, if_neg htag]
    exact (Gives.pure []).congr (by simp [htag])

theorem nodes_nodePart (node : Element → α) (tag : String) (a : Element) :
    Part.nodes (if a.name = tag then [.node (node a)] else []) =
      if a.name = tag then [node a] else [] := by
  split_ifs <;> rfl

/-- The nodes that the children with a tag give, in their order. -/
theorem nodes_flatMap (tags : List String) (tag : String) (htag : tag ∉ tags)
    {value : Element → List (Part α)} {node : Element → α}
    (h : ∀ a, Part.nodes (value a) = if a.name = tag then [node a] else []) (e : Element) :
    Part.nodes (e.elements.flatMap fun a =>
      if a.name ∈ tags then [.reference a.name (.ofText a.content)] else value a) =
    (e.named tag).map node := by
  have hchild : ∀ a : Element, Part.nodes (if a.name ∈ tags then
      [.reference a.name (.ofText a.content)] else value a) =
        if a.name = tag then [node a] else [] := by
    intro a
    by_cases ha : a.name ∈ tags
    · have hne : a.name ≠ tag := fun heq => htag (heq ▸ ha)
      rw [if_pos ha, if_neg hne]
      rfl
    · rw [if_neg ha, h]
  have hnodes : Part.nodes (e.elements.flatMap fun a => if a.name ∈ tags then
      [.reference a.name (.ofText a.content)] else value a) =
        e.elements.flatMap fun a => if a.name = tag then [node a] else [] := by
    rw [Part.nodes, List.filterMap_flatMap]
    exact List.flatMap_congr fun a _ => hchild a
  rw [hnodes, Element.named, ← List.filterMap_eq_map, List.filterMap_filter,
    List.filterMap_eq_flatMap_toList]
  exact List.flatMap_congr fun a _ => by by_cases ha : a.name = tag <;> simp [ha]

end

theorem gives_plain : Gives plain True {} := .of_eq_ok rfl

/-! ### Fields -/

theorem exists_gives_reset (e : Element) : ∃ r, Gives (reset plain e) True r :=
  ⟨_, (((gives_readParts (fun _ => True) (fun _ => Gives.pure []) e).congr
    (by simp)).bind_pure)⟩

theorem exists_gives_enumValue (e : Element) : ∃ v, Gives (enumValue plain e) True v :=
  ⟨_, (((Gives.mapM fun _ _ => Gives.of_eq_ok rfl).congr (by simp)).bind_pure)⟩

theorem exists_gives_fieldPart (e : Element) : ∃ parts, Gives (fieldPart plain e) True parts := by
  unfold fieldPart
  by_cases hconstraint : e.name = "writeValueConstraint"
  · rw [if_pos hconstraint]
    exact ⟨_, (gives_readParts (fun _ => True) (fun _ => .pure []) e).congr (by simp)⟩
  rw [if_neg hconstraint]
  by_cases hresets : e.name = "resets"
  · choose value hgives using exists_gives_reset
    rw [if_pos hresets]
    exact ⟨_, (Gives.mapM fun r _ => (hgives r).bind_pure).congr (by simp)⟩
  rw [if_neg hresets]
  by_cases hvalues : e.name = "enumeratedValues"
  · choose value hgives using exists_gives_enumValue
    rw [if_pos hvalues]
    exact ⟨_, (Gives.mapM fun v _ => (hgives v).bind_pure).congr (by simp)⟩
  · rw [if_neg hvalues]
    exact ⟨[], .pure []⟩

theorem exists_gives_field (e : Element) :
    ∃ f, Gives (field plain e) True f ∧ f.name = nameOf e := by
  choose value hgives using exists_gives_fieldPart
  have hfieldId : ∃ v, Gives ((e.attribute? "fieldID").mapM (Ipxact.value plain)) True v := by
    cases e.attribute? "fieldID" <;> exact ⟨_, .of_eq_ok rfl⟩
  obtain ⟨v, hv⟩ := hfieldId
  exact ⟨_, (hv.bind fun _ => gives_plain.bind fun _ =>
    (gives_readParts _ hgives e).bind_pure).congr (by simp), name_label e⟩

/-! ### Registers, blocks and memory maps -/

theorem exists_gives_register (e : Element) : ∃ r,
    Gives (register plain e) (childNames e "field").Nodup r ∧
    r.name = nameOf e ∧ ((childNames e "field").Nodup → r.NamesDistinct) := by
  choose value hgives hname using exists_gives_field
  have hnodes := nodes_flatMap registerTags "field" (by decide) (nodes_nodePart value "field") e
  have hnames : ((e.named "field").map value).map (·.name) = childNames e "field" := by
    rw [List.map_map, childNames]
    exact List.map_congr_left fun f _ => hname f
  refine ⟨_, (gives_plain.bind fun _ =>
    (gives_readParts _ (gives_nodePart hgives) e).bind fun _ =>
    (gives_requireDistinct _ _ _).bind_pure).congr ?_, name_label e, fun h => ?_⟩
  · rw [hnodes, hnames]
    simp
  · rw [Register.NamesDistinct]
    simp only [hnodes, hnames]
    exact h


theorem exists_gives_block (e : Element) : ∃ b,
    Gives (addressBlock plain e) (BlockAccepted e) b ∧
    b.name = nameOf e ∧ (BlockAccepted e → b.NamesDistinct) := by
  choose value hgives hname hdistinct using exists_gives_register
  have hnodes := nodes_flatMap blockTags "register" (by decide) (nodes_nodePart value "register") e
  have hnames : ((e.named "register").map value).map (·.name) = childNames e "register" := by
    rw [List.map_map, childNames]
    exact List.map_congr_left fun r _ => hname r
  refine ⟨_, (gives_plain.bind fun _ =>
    (gives_readParts _ (gives_nodePart hgives) e).bind fun _ =>
    (gives_requireDistinct _ _ _).bind_pure).congr ?_, name_label e, fun h => ?_⟩
  · rw [hnodes, hnames]
    constructor
    · rintro ⟨-, hregisters, hdist⟩
      refine ⟨hdist, fun r hr => ?_⟩
      obtain ⟨hmem, hr⟩ := mem_named.1 hr
      exact hregisters r hmem (by rw [hr]; decide) hr
    · rintro ⟨hdist, hregisters⟩
      exact ⟨trivial, fun r hmem _ hr => hregisters r (mem_named.2 ⟨hmem, hr⟩), hdist⟩
  rw [AddressBlock.namesDistinct_iff]
  simp only [hnodes, hnames]
  refine ⟨h.names, fun r hr => ?_⟩
  obtain ⟨a, ha, rfl⟩ := List.mem_map.1 hr
  exact hdistinct a (h.registers a ha)

/-- What is asked of a child of a memory map. -/
structure MapPartAccepted (e : Element) : Prop where
  unitBits : e.name = "addressUnitBits" → Literal.parse? e.content ≠ none
  block : e.name = "addressBlock" → BlockAccepted e

theorem gives_mapPart {value : Element → AddressBlock}
    (h : ∀ e, Gives (addressBlock plain e) (BlockAccepted e) (value e)) (e : Element) :
    Gives (mapPart plain e) (MapPartAccepted e)
      (if e.name = "addressUnitBits" then [.number ((Literal.parse? e.content).getD 0)]
        else if e.name = "addressBlock" then [.node (value e)] else []) := by
  unfold mapPart
  by_cases hbits : e.name = "addressUnitBits"
  · rw [if_pos hbits, if_pos hbits]
    refine (gives_number e).bind_pure.congr ?_
    exact ⟨fun h => ⟨fun _ => h, fun hblock => absurd (hbits.symm.trans hblock) (by decide)⟩,
      fun h => h.unitBits hbits⟩
  · rw [if_neg hbits, if_neg hbits]
    refine (gives_nodePart h e).congr ?_
    exact ⟨fun h => ⟨fun hbits' => absurd hbits' hbits, h⟩, fun h => h.block⟩

theorem exists_gives_memoryMap (e : Element) : ∃ m,
    Gives (memoryMap plain e) (MapAccepted e) m ∧
    m.name = nameOf e ∧ (MapAccepted e → m.NamesDistinct) := by
  choose value hgives hname hdistinct using exists_gives_block
  have hpart : ∀ a : Element, Part.nodes (if a.name = "addressUnitBits" then
      [.number ((Literal.parse? a.content).getD 0)]
      else if a.name = "addressBlock" then [.node (value a)] else []) =
        if a.name = "addressBlock" then [value a] else [] := by
    intro a
    split_ifs with hbits hblock
    · exact absurd (hbits.symm.trans hblock) (by decide)
    all_goals rfl
  have hnodes := nodes_flatMap ["isPresent"] "addressBlock" (by decide) hpart e
  have hnames : ((e.named "addressBlock").map value).map (·.name) =
      childNames e "addressBlock" := by
    rw [List.map_map, childNames]
    exact List.map_congr_left fun b _ => hname b
  refine ⟨_, (gives_plain.bind fun _ =>
    (gives_readParts _ (gives_mapPart hgives) e).bind fun _ =>
    (gives_requireDistinct _ _ _).bind_pure).congr ?_, name_label e, fun h => ?_⟩
  · rw [hnodes, hnames]
    constructor
    · rintro ⟨-, hparts, hdist⟩
      refine ⟨fun bits hbits => ?_, hdist, fun b hb => ?_⟩
      · obtain ⟨hmem, hbits⟩ := mem_named.1 hbits
        exact (hparts bits hmem (by rw [hbits]; decide)).unitBits hbits
      · obtain ⟨hmem, hb⟩ := mem_named.1 hb
        exact (hparts b hmem (by rw [hb]; decide)).block hb
    · rintro ⟨hbits, hdist, hblocks⟩
      exact ⟨trivial, fun a ha _ => ⟨fun h => hbits a (mem_named.2 ⟨ha, h⟩),
        fun h => hblocks a (mem_named.2 ⟨ha, h⟩)⟩, hdist⟩
  · rw [MemoryMap.namesDistinct_iff]
    simp only [hnodes, hnames]
    refine ⟨h.names, fun b hb => ?_⟩
    obtain ⟨a, ha, rfl⟩ := List.mem_map.1 hb
    exact hdistinct a (h.blocks a ha)

theorem exists_gives_memoryMaps (e : Element) : ∃ ms,
    Gives ((e.named "memoryMap").mapM (memoryMap plain))
      (∀ m ∈ e.named "memoryMap", MapAccepted m) ms ∧
    ms.map (·.name) = childNames e "memoryMap" ∧
    ((∀ m ∈ e.named "memoryMap", MapAccepted m) → ∀ m ∈ ms, m.NamesDistinct) := by
  choose value hgives hname hdistinct using exists_gives_memoryMap
  refine ⟨_, .mapM fun m _ => hgives m, ?_, fun h m hm => ?_⟩
  · rw [List.map_map, childNames]
    exact List.map_congr_left fun m _ => hname m
  · obtain ⟨a, ha, rfl⟩ := List.mem_map.1 hm
    exact hdistinct a (h a ha)

/-! ### Parameters, reset domains and vendor extensions -/

theorem gives_requireAttribute (e : Element) (name : String) : Gives (requireAttribute e name)
    (e.attribute? name ≠ none) ((e.attribute? name).getD "") := by
  unfold requireAttribute
  cases e.attribute? name with
  | none => exact ⟨fun h => absurd rfl h, fun _ => ⟨_, rfl⟩⟩
  | some value => exact (Gives.of_eq_ok rfl).congr (by simp)

theorem exists_gives_parameter (e : Element) : ∃ p,
    Gives (parameter plain e) (e.attribute? "parameterId" ≠ none) p ∧
    ∀ key, e.attribute? "parameterId" = some key → p.key = key := by
  have hvalue : ∃ r, Gives ((e.last? ["value"]).mapM (reference plain)) True r := by
    cases e.last? ["value"] <;> exact ⟨_, .of_eq_ok rfl⟩
  obtain ⟨r, hr⟩ := hvalue
  refine ⟨_, ((gives_requireAttribute e _).bind fun _ => hr.bind fun _ =>
    gives_plain.bind_pure).congr (by simp), fun key hkey => ?_⟩
  rw [hkey]
  rfl

theorem gives_requireDistinctKeys (ps : List Parameter) :
    Gives (requireDistinctKeys ps) (ps.map (·.key)).Nodup () := by
  have hnone : firstRepeat? Parameter.key [] ps = none ↔ (ps.map (·.key)).Nodup := by
    simp [firstRepeat?_eq_none_iff]
  unfold requireDistinctKeys
  cases hrepeat : firstRepeat? Parameter.key [] ps with
  | none => exact ⟨fun _ => rfl, fun h => absurd (hnone.1 hrepeat) h⟩
  | some p => exact ⟨fun h => absurd (hnone.2 h) (by simp [hrepeat]), fun _ => ⟨_, rfl⟩⟩

theorem exists_gives_parameters (e : Element) : ∃ ps,
    Gives (parameters plain e) (ParametersAccepted e) ps ∧
    (ParametersAccepted e → (ps.map (·.key)).Nodup) := by
  choose value hgives hkey using exists_gives_parameter
  have hnodup : (∀ p ∈ e.named "parameter", p.attribute? "parameterId" ≠ none) →
      ((((e.named "parameter").map value).map (·.key)).Nodup ↔
        ((e.named "parameter").map (·.attribute? "parameterId")).Nodup) := by
    intro hkeyed
    have hkeys : (e.named "parameter").map (·.attribute? "parameterId") =
        (((e.named "parameter").map value).map (·.key)).map some := by
      rw [List.map_map, List.map_map]
      refine List.map_congr_left fun p hp => ?_
      obtain ⟨key, hp⟩ := Option.ne_none_iff_exists'.1 (hkeyed p hp)
      rw [hp, Function.comp_apply, Function.comp_apply, hkey p key hp]
    rw [hkeys, List.nodup_map_iff fun _ _ => Option.some.inj]
  refine ⟨_, ((Gives.mapM fun p _ => hgives p).bind fun _ =>
    (gives_requireDistinctKeys _).bind_pure).congr ?_, fun h => (hnodup h.keyed).2 h.keys⟩
  constructor
  · rintro ⟨hkeyed, hkeys⟩
    exact ⟨hkeyed, (hnodup hkeyed).1 hkeys⟩
  · rintro ⟨hkeyed, hkeys⟩
    exact ⟨hkeyed, (hnodup hkeyed).2 hkeys⟩

theorem gives_resetTypes (e : Element) : Gives ((e.named "resetType").mapM (resetType plain)) True
    ((e.named "resetType").map fun t => { toLabel := label t }) :=
  (Gives.mapM fun _ _ => Gives.of_eq_ok rfl).congr (by simp)

mutual

theorem exists_gives_extension? : ∀ node : Xml.Node, ∃ x, Gives (extension? plain node) True x
  | .element _ _ children => by
    obtain ⟨below, hbelow⟩ := exists_gives_extensions children
    rw [extension?]
    exact ⟨_, (hbelow.bind fun _ => gives_plain.bind_pure).congr (by simp)⟩
  | .text _ | .cdata _ | .comment _ | .instruction _ _ => ⟨none, .of_eq_ok rfl⟩

theorem exists_gives_extensions : ∀ nodes : List Xml.Node,
    ∃ xs, Gives (extensions plain nodes) True xs
  | [] => ⟨[], .of_eq_ok rfl⟩
  | node :: nodes => by
    obtain ⟨first, hfirst⟩ := exists_gives_extension? node
    obtain ⟨rest, hrest⟩ := exists_gives_extensions nodes
    rw [extensions]
    exact ⟨_, (hfirst.bind fun _ => hrest.bind_pure).congr (by simp)⟩

end

/-! ### Components -/

theorem gives_requireText (e : Element) (tag : String) :
    Gives (requireText e tag) (e.named tag ≠ []) ((text? e [tag]).getD "") := by
  unfold requireText
  rw [text?_singleton]
  cases hlast : (e.named tag).getLast? with
  | none =>
    rw [List.getLast?_eq_none_iff] at hlast
    exact ⟨fun h => absurd hlast h, fun _ => ⟨_, rfl⟩⟩
  | some child =>
    refine ⟨fun _ => rfl, fun h => ?_⟩
    rw [not_not] at h
    simp [h] at hlast

theorem exists_gives_vlnv (e : Element) : ∃ v, Gives (vlnv e)
    (∀ tag ∈ ["vendor", "library", "name", "version"], e.named tag ≠ []) v := by
  refine ⟨_, ((gives_requireText e _).bind fun _ => (gives_requireText e _).bind fun _ =>
    (gives_requireText e _).bind fun _ => (gives_requireText e _).bind_pure).congr ?_⟩
  simp

/-- What is asked of a child of a component. -/
structure ComponentPartAccepted (e : Element) : Prop where
  parameters : e.name = "parameters" → ParametersAccepted e
  memoryMaps : e.name = "memoryMaps" → ∀ m ∈ e.named "memoryMap", MapAccepted m

theorem exists_gives_componentPart (e : Element) : ∃ part,
    Gives (componentPart plain e) (ComponentPartAccepted e) part ∧
    part.memoryMaps?.map (fun ms => ms.map (·.name)) =
      (if e.name = "memoryMaps" then some (childNames e "memoryMap") else none) ∧
    (ComponentPartAccepted e → (∀ ps ∈ part.parameters?, (ps.map (·.key)).Nodup) ∧
      ∀ ms ∈ part.memoryMaps?, ∀ m ∈ ms, m.NamesDistinct) := by
  unfold componentPart
  by_cases hparameters : e.name = "parameters"
  · obtain ⟨ps, hgives, hdistinct⟩ := exists_gives_parameters e
    rw [if_pos hparameters]
    refine ⟨.parameters ps, hgives.map.congr ?_, ?_, fun h => ⟨?_, by
      simp [ComponentPart.memoryMaps?]⟩⟩
    · exact ⟨fun h => ⟨fun _ => h, fun hmaps => absurd (hparameters.symm.trans hmaps) (by decide)⟩,
        fun h => h.parameters hparameters⟩
    · simp [ComponentPart.memoryMaps?, hparameters]
    · rintro _ ⟨rfl⟩
      exact hdistinct (h.parameters hparameters)
  rw [if_neg hparameters]
  by_cases hmaps : e.name = "memoryMaps"
  · obtain ⟨ms, hgives, hnames, hdistinct⟩ := exists_gives_memoryMaps e
    have htypes : e.name ≠ "resetTypes" := by
      rw [hmaps]
      decide
    rw [if_neg htypes, if_pos hmaps, if_pos hmaps]
    refine ⟨.memoryMaps ms, hgives.map.congr ?_, congrArg some hnames, fun h => ⟨by
      simp [ComponentPart.parameters?], ?_⟩⟩
    · exact ⟨fun h => ⟨fun hps => absurd hps hparameters, fun _ => h⟩, fun h => h.memoryMaps hmaps⟩
    · rintro _ ⟨rfl⟩
      exact hdistinct (h.memoryMaps hmaps)
  -- Nothing is asked of the other children.
  have haccepted : True ↔ ComponentPartAccepted e :=
    ⟨fun _ => ⟨fun h => absurd h hparameters, fun h => absurd h hmaps⟩, fun _ => trivial⟩
  rw [if_neg hmaps, if_neg hmaps]
  by_cases htypes : e.name = "resetTypes"
  · rw [if_pos htypes]
    exact ⟨_, (gives_resetTypes e).map.congr haccepted, rfl, by
      simp [ComponentPart.parameters?, ComponentPart.memoryMaps?]⟩
  rw [if_neg htypes]
  by_cases hextensions : e.name = "vendorExtensions"
  · obtain ⟨xs, hgives⟩ := exists_gives_extensions e.children
    rw [if_pos hextensions]
    exact ⟨_, hgives.map.congr haccepted, rfl, by
      simp [ComponentPart.parameters?, ComponentPart.memoryMaps?]⟩
  · rw [if_neg hextensions]
    exact ⟨.other, (Gives.pure _).congr haccepted, rfl, by
      simp [ComponentPart.parameters?, ComponentPart.memoryMaps?]⟩

/-- Parts that stand for the children with a tag, in their order. -/
theorem map_filterMap_parts {π α β : Type} {tag : String} {value : Element → π}
    {part? : π → Option α} {of : α → β} {ofElement : Element → β}
    (h : ∀ a, (part? (value a)).map of = if a.name = tag then some (ofElement a) else none)
    (e : Element) :
    ((e.elements.map value).filterMap part?).map of = (e.named tag).map ofElement := by
  rw [List.filterMap_map, List.map_filterMap, Element.named, ← List.filterMap_eq_map,
    List.filterMap_filter]
  refine List.filterMap_congr fun a _ => ?_
  rw [Function.comp_apply, h]
  simp

theorem mem_parts {π α : Type} {value : Element → π} {part? : π → Option α} {e : Element} {x : α}
    (h : x ∈ (e.elements.map value).filterMap part?) : ∃ a ∈ e.elements, x ∈ part? (value a) := by
  obtain ⟨part, hpart, hx⟩ := List.mem_filterMap.1 h
  obtain ⟨a, ha, rfl⟩ := List.mem_map.1 hpart
  exact ⟨a, ha, hx⟩

theorem map_getLastD {α β : Type} (f : α → β) (lists : List (List α)) :
    (lists.getLast?.getD []).map f = ((lists.map (List.map f)).getLast?).getD [] := by
  rw [List.getLast?_map]
  cases lists.getLast? <;> rfl

theorem forall_mem_getLastD {α : Type} {P : α → Prop} {lists : List (List α)}
    (h : ∀ as ∈ lists, ∀ a ∈ as, P a) : ∀ a ∈ lists.getLast?.getD [], P a := by
  cases hlast : lists.getLast? with
  | none => simp
  | some as => exact h as (List.mem_of_getLast? hlast)

theorem accepted_iff_parts {e : Element} (hname : e.name = "component") :
    (∀ tag ∈ ["vendor", "library", "name", "version"], e.named tag ≠ []) ∧
      (∀ a ∈ e.elements, ComponentPartAccepted a) ∧
      (((e.named "memoryMaps").getLast?.map (childNames · "memoryMap")).getD []).Nodup ↔
    Accepted e := by
  constructor
  · rintro ⟨hvlnv, hparts, hdist⟩
    refine ⟨hname, hvlnv, fun list hlist => ?_, fun list hlist => ?_, fun list hlast => ?_⟩
    · obtain ⟨hmem, hlist⟩ := mem_named.1 hlist
      exact (hparts list hmem).parameters hlist
    · obtain ⟨hmem, hlist⟩ := mem_named.1 hlist
      exact (hparts list hmem).memoryMaps hlist
    · rw [hlast] at hdist
      exact hdist
  · intro h
    refine ⟨h.vlnv, fun a ha => ⟨fun hps => h.parameters a (mem_named.2 ⟨ha, hps⟩), fun hms =>
      h.memoryMaps a (mem_named.2 ⟨ha, hms⟩)⟩, ?_⟩
    cases hlast : (e.named "memoryMaps").getLast? with
    | none => exact List.nodup_nil
    | some list => exact h.names list hlast

theorem exists_gives_component (e : Element) : ∃ c,
    Gives (component plain e) (Accepted e) c ∧ (Accepted e → c.NamesDistinct) := by
  unfold component
  by_cases hname : e.name = "component"
  swap
  · rw [if_pos hname]
    exact ⟨{}, ⟨fun h => absurd h.isComponent hname, fun _ => ⟨_, rfl⟩⟩,
      fun h => absurd h.isComponent hname⟩
  rw [if_neg (not_not.2 hname)]
  obtain ⟨v, hv⟩ := exists_gives_vlnv e
  choose value hgives hmaps hdistinct using exists_gives_componentPart
  have hnames : (lastList ComponentPart.memoryMaps? (e.elements.map value)).map (·.name) =
      (((e.named "memoryMaps").getLast?.map (childNames · "memoryMap"))).getD [] := by
    rw [lastList, map_getLastD, map_filterMap_parts hmaps, List.getLast?_map]
  have haccepted := accepted_iff_parts hname
  refine ⟨_, (hv.bind fun _ => gives_plain.bind fun _ =>
    (Gives.mapM fun a _ => hgives a).bind fun _ =>
    (gives_requireDistinct _ _ _).bind_pure).congr ?_, fun h => ?_⟩
  · rw [hnames, ← haccepted]
    simp only [true_and]
  obtain ⟨-, hparts, hdist⟩ := haccepted.2 h
  refine ⟨?_, by rw [hnames]; exact hdist, ?_⟩
  · cases hlast : ((e.elements.map value).filterMap ComponentPart.parameters?).getLast? with
    | none =>
      simp only [lastList, hlast]
      exact List.nodup_nil
    | some ps =>
      obtain ⟨a, ha, hps⟩ := mem_parts (List.mem_of_getLast? hlast)
      simp only [lastList, hlast]
      exact (hdistinct a (hparts a ha)).1 ps hps
  · refine forall_mem_getLastD fun ms hms => ?_
    obtain ⟨a, ha, hms⟩ := mem_parts hms
    exact (hdistinct a (hparts a ha)).2 ms hms

end Ipxact

end RegAtlas
