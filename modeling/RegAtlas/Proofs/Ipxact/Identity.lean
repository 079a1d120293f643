import RegAtlas.Proofs.Ipxact.Drawing

/-!
# Identifiers of what is read

The nodes of a component that is read have different identifiers, of those that its reader drew. One
law for each reader says so, and that the reader without identity reads the same.
-/

namespace RegAtlas.Ipxact

open Xml (Element)

/-! ### Parts that are read -/

theorem draws_value (text : String) :
    Draws (value drawNode text) (value plain text)
      (Made (Value.relabel unmarked) fun v => [v.id]) :=
  .bind_fresh fun _ => .pure ⟨rfl, .refl _⟩

theorem draws_reference (e : Element) :
    Draws (reference drawNode e) (reference plain e)
      (Made (Reference.relabel unmarked) fun r => [r.id]) :=
  .bind_fresh fun _ => .pure ⟨rfl, .refl _⟩

section

variable {α β : Type} {bare : α → β} {ids : α → List Nat}

theorem draws_readParts {tags : List String} {other : Element → Ingest (List (Part α))}
    {other' : Element → Except DocumentError (List (Part β))}
    (hother : ∀ e, Draws (other e) (other' e)
      (Made (List.map (Part.bare bare)) (List.flatMap (Part.ids ids)))) (e : Element) :
    Draws (readParts drawNode tags other e) (readParts plain tags other' e)
      (Made (List.map (Part.bare bare)) (List.flatMap (Part.ids ids))) := by
  have hchild : ∀ child ∈ e.elements, Draws
      (if child.name ∈ tags then do return [.reference child.name (← reference drawNode child)]
        else other child)
      (if child.name ∈ tags then do return [.reference child.name (← reference plain child)]
        else other' child)
      (Made (List.map (Part.bare bare)) (List.flatMap (Part.ids ids))) := by
    intro child _
    by_cases htag : child.name ∈ tags
    · rw [if_pos htag, if_pos htag]
      exact (draws_reference child).bind_pure (fun _ => rfl) fun _ => List.flatMap_singleton _ _
    · rw [if_neg htag, if_neg htag]
      exact hother child
  refine (Draws.mapM hchild).bind fun groups groups' drawn ⟨hgroups, hids⟩ => .pure ⟨?_, ?_⟩
  · rw [← hgroups, List.map_flatten]
  · rw [List.append_nil, List.flatten_eq_flatMap, List.flatMap_assoc]
    exact hids

theorem draws_nodePart {tag : String} {read : Element → Ingest α}
    {read' : Element → Except DocumentError β}
    (hread : ∀ e, Draws (read e) (read' e) (Made bare ids)) (e : Element) :
    Draws (nodePart tag read e) (nodePart tag read' e)
      (Made (List.map (Part.bare bare)) (List.flatMap (Part.ids ids))) := by
  unfold nodePart
  by_cases htag : e.name = tag
  · rw [if_pos htag, if_pos htag]
    exact (hread e).bind_pure (fun _ => rfl) fun _ => List.flatMap_singleton _ _
  · rw [if_neg htag, if_neg htag]
    exact .pure ⟨rfl, .refl _⟩

end

/-! ### Fields -/

theorem flatMap_ids_references (rs : List (Option Reference)) :
    (Item.references rs).flatMap Item.ids = rs.flatMap fun r => r.toList.map (·.id) := by
  induction rs with
  | nil => rfl
  | cons r rs ih =>
    rw [Item.references_cons, List.flatMap_append, ih, List.flatMap_cons]
    cases r <;> rfl

/-- What the nodes of two kinds own, one kind after the other. -/
theorem flatMap_sum_perm {α β : Type} (ids : α → List Nat) (ids' : β → List Nat)
    (nodes : List (α ⊕ β)) : ((nodes.filterMap Sum.getLeft?).flatMap ids ++
      (nodes.filterMap Sum.getRight?).flatMap ids').Perm (nodes.flatMap (Sum.elim ids ids')) := by
  induction nodes with
  | nil => exact .refl _
  | cons node nodes ih =>
    cases node with
    | inl a =>
      rw [List.flatMap_cons, List.filterMap_cons_some (f := Sum.getLeft?) rfl, List.flatMap_cons,
        List.append_assoc]
      exact ih.append_left _
    | inr b =>
      rw [List.flatMap_cons, List.filterMap_cons_some (f := Sum.getRight?) rfl, List.flatMap_cons]
      exact (List.perm_append_comm_assoc _ _ _).trans (ih.append_left _)

theorem filterMap_getLeft?_map {α β γ δ : Type} (f : α → γ) (g : β → δ) (nodes : List (α ⊕ β)) :
    (nodes.map (Sum.map f g)).filterMap Sum.getLeft? = (nodes.filterMap Sum.getLeft?).map f := by
  rw [List.filterMap_map, List.map_filterMap]
  exact List.filterMap_congr fun node _ => by cases node <;> rfl

theorem filterMap_getRight?_map {α β γ δ : Type} (f : α → γ) (g : β → δ) (nodes : List (α ⊕ β)) :
    (nodes.map (Sum.map f g)).filterMap Sum.getRight? = (nodes.filterMap Sum.getRight?).map g := by
  rw [List.filterMap_map, List.map_filterMap]
  exact List.filterMap_congr fun node _ => by cases node <;> rfl

theorem draws_reset (e : Element) : Draws (reset drawNode e) (reset plain e)
    (Made (Reset.relabel unmarked) fun r => (Item.reset r).ids) := by
  have hnone : ∀ e : Element, Draws ((fun _ => return []) e : Ingest (List (Part Empty)))
      ((fun _ => return []) e) (Made (List.map (Part.bare id))
        (List.flatMap (Part.ids Empty.elim))) := fun _ => .pure ⟨rfl, .refl _⟩
  refine .bind_fresh fun node => ?_
  refine (draws_readParts hnone e).bind fun parts parts' drawn ⟨hparts, hids⟩ => .pure ⟨?_, ?_⟩
  · rw [← hparts, Reset.relabel_eq]
    simp only [Part.last?_map_bare]
    rfl
  · have hslots := slots_subperm Empty.elim [["value"], ["mask"]] (by decide) parts
    change (Item.reset _).ids.Subperm _
    rw [Item.ids_eq, Item.children, flatMap_ids_references, List.append_nil]
    exact (List.subperm_cons _).2
      (((List.sublist_append_left _ _).subperm.trans hslots).trans hids)

theorem draws_enumValue (e : Element) : Draws (enumValue drawNode e) (enumValue plain e)
    (Made (EnumValue.relabel unmarked) fun v => (Item.enumValue v).ids) := by
  refine .bind_fresh fun node => ?_
  refine (Draws.mapM fun child _ => draws_value child.content).bind
    fun values values' drawn ⟨hvalues, hids⟩ => .pure ⟨?_, ?_⟩
  · rw [← hvalues, EnumValue.relabel_eq, List.getLast?_map]
    rfl
  · change (Item.enumValue _).ids.Subperm _
    rw [Item.ids_eq, Item.children, List.append_nil, List.flatMap_map]
    refine (List.subperm_cons _).2 (.trans ?_ hids)
    exact ((getLast?_sublist values).flatMap _).subperm

theorem draws_fieldPart (e : Element) : Draws (fieldPart drawNode e) (fieldPart plain e)
    (Made (List.map (Part.bare (Sum.map (Reset.relabel unmarked) (EnumValue.relabel unmarked))))
      (List.flatMap (Part.ids
        (Sum.elim (fun r => (Item.reset r).ids) fun v => (Item.enumValue v).ids)))) := by
  unfold fieldPart
  by_cases hconstraint : e.name = "writeValueConstraint"
  · rw [if_pos hconstraint, if_pos hconstraint]
    exact draws_readParts (fun _ => .pure ⟨rfl, .refl _⟩) e
  rw [if_neg hconstraint, if_neg hconstraint]
  by_cases hresets : e.name = "resets"
  · rw [if_pos hresets, if_pos hresets]
    exact Draws.mapM fun child _ => (draws_reset child).bind_pure (fun _ => rfl) fun _ => rfl
  rw [if_neg hresets, if_neg hresets]
  by_cases hvalues : e.name = "enumeratedValues"
  · rw [if_pos hvalues, if_pos hvalues]
    exact Draws.mapM fun child _ => (draws_enumValue child).bind_pure (fun _ => rfl) fun _ => rfl
  · rw [if_neg hvalues, if_neg hvalues]
    exact .pure ⟨rfl, .refl _⟩

theorem draws_field (e : Element) : Draws (field drawNode e) (field plain e)
    (Made (BitField.relabel unmarked) fun f => (Item.field f).ids) := by
  refine ((Draws.optional draws_value _).bind fun fieldId fieldId' drawn ⟨hvalue, hdrawn⟩ => ?_)
  refine .bind_fresh fun node => ?_
  refine (draws_readParts draws_fieldPart e).bind fun parts parts' drawn' ⟨hparts, hids⟩ =>
    .pure ⟨?_, ?_⟩
  · rw [← hvalue, ← hparts, BitField.relabel_eq]
    simp only [Part.last?_map_bare, Part.nodes_map_bare, filterMap_getLeft?_map,
      filterMap_getRight?_map]
    rfl
  · have hslots := slots_subperm
      (Sum.elim (fun r => (Item.reset r).ids) fun v => (Item.enumValue v).ids)
      [["offset", "bitOffset"], ["width", "bitWidth"], ["isPresent"], ["reserved"],
        ["writevalueminimum", "minimum"], ["writevaluemaximum", "maximum"]]
      (by decide) parts
    have hnodes := flatMap_sum_perm (fun r => (Item.reset r).ids) (fun v => (Item.enumValue v).ids)
      (Part.nodes parts)
    change (Item.field _).ids.Subperm _
    rw [Item.ids_eq, Item.children, List.flatMap_append, List.flatMap_append, List.flatMap_append,
      flatMap_ids_references, List.flatMap_map, List.flatMap_map, List.flatMap_map,
      List.append_nil, List.append_assoc, List.append_assoc]
    refine .trans ?_ (List.perm_middle.symm.subperm)
    refine (List.subperm_cons _).2 (hdrawn.append ?_)
    exact ((hnodes.append_left _).subperm.trans hslots).trans hids

theorem draws_register (e : Element) : Draws (register drawNode e) (register plain e)
    (Made (Register.relabel unmarked) fun r => (Item.register r).ids) := by
  refine .bind_fresh fun node => ?_
  refine (draws_readParts (draws_nodePart draws_field) e).bind
    fun parts parts' drawn ⟨hparts, hids⟩ => ?_
  have hnames : (Part.nodes parts').map (·.name) = (Part.nodes parts).map (·.name) :=
    hparts ▸ Part.map_nodes_bare parts fun f => by rw [BitField.relabel_eq]
  simp only [hnames]
  refine .bind_lift fun _ => .pure ⟨?_, ?_⟩
  · rw [← hparts, Register.relabel_eq]
    simp only [Part.last?_map_bare, Part.nodes_map_bare]
    rfl
  · have hslots := slots_subperm (fun f => (Item.field f).ids)
      [["offset", "addressOffset"], ["size"], ["dimension", "dim"], ["isPresent"]]
      (by decide) parts
    change (Item.register _).ids.Subperm _
    rw [Item.ids_eq, Item.children, List.flatMap_append, flatMap_ids_references, List.flatMap_map,
      List.append_nil]
    exact (List.subperm_cons _).2 (hslots.trans hids)

theorem draws_addressBlock (e : Element) : Draws (addressBlock drawNode e) (addressBlock plain e)
    (Made (AddressBlock.relabel unmarked) fun b => (Item.block b).ids) := by
  refine .bind_fresh fun node => ?_
  refine (draws_readParts (draws_nodePart draws_register) e).bind
    fun parts parts' drawn ⟨hparts, hids⟩ => ?_
  have hnames : (Part.nodes parts').map (·.name) = (Part.nodes parts).map (·.name) :=
    hparts ▸ Part.map_nodes_bare parts fun r => by rw [Register.relabel_eq]
  simp only [hnames]
  refine .bind_lift fun _ => .pure ⟨?_, ?_⟩
  · rw [← hparts, AddressBlock.relabel_eq]
    simp only [Part.last?_map_bare, Part.nodes_map_bare]
    rfl
  · have hslots := slots_subperm (fun r => (Item.register r).ids)
      [["baseAddress"], ["blockRange", "range"], ["width"], ["isPresent"]]
      (by decide) parts
    change (Item.block _).ids.Subperm _
    rw [Item.ids_eq, Item.children, List.flatMap_append, flatMap_ids_references, List.flatMap_map,
      List.append_nil]
    exact (List.subperm_cons _).2 (hslots.trans hids)

theorem draws_mapPart (e : Element) : Draws (mapPart drawNode e) (mapPart plain e)
    (Made (List.map (Part.bare (AddressBlock.relabel unmarked)))
      (List.flatMap (Part.ids fun b => (Item.block b).ids))) := by
  unfold mapPart
  by_cases hbits : e.name = "addressUnitBits"
  · rw [if_pos hbits, if_pos hbits]
    exact .bind_lift fun _ => .pure ⟨rfl, .refl _⟩
  · rw [if_neg hbits, if_neg hbits]
    exact draws_nodePart draws_addressBlock e

theorem draws_memoryMap (e : Element) : Draws (memoryMap drawNode e) (memoryMap plain e)
    (Made (MemoryMap.relabel unmarked) fun m => (Item.memoryMap m).ids) := by
  refine .bind_fresh fun node => ?_
  refine (draws_readParts draws_mapPart e).bind fun parts parts' drawn ⟨hparts, hids⟩ => ?_
  have hnames : (Part.nodes parts').map (·.name) = (Part.nodes parts).map (·.name) :=
    hparts ▸ Part.map_nodes_bare parts fun b => by rw [AddressBlock.relabel_eq]
  simp only [hnames]
  refine .bind_lift fun _ => .pure ⟨?_, ?_⟩
  · rw [← hparts, MemoryMap.relabel_eq]
    simp only [Part.last?_map_bare, Part.nodes_map_bare, Part.numbers_map_bare]
    rfl
  · have hslots := slots_subperm (fun b => (Item.block b).ids)
      [["isPresent"]] (by decide) parts
    change (Item.memoryMap _).ids.Subperm _
    rw [Item.ids_eq, Item.children, List.flatMap_append, flatMap_ids_references, List.flatMap_map,
      List.append_nil]
    exact (List.subperm_cons _).2 (hslots.trans hids)

/-! ### Parameters and vendor extensions -/

theorem draws_parameter (e : Element) : Draws (parameter drawNode e) (parameter plain e)
    (Made (Parameter.relabel unmarked) fun p => (Item.parameter p).ids) := by
  refine .bind_lift fun key => ?_
  refine (Draws.optional draws_reference _).bind fun r r' drawn ⟨hvalue, hids⟩ => ?_
  refine .bind_fresh fun node => .pure ⟨?_, ?_⟩
  · rw [← hvalue, Parameter.relabel_eq]
    rfl
  · change (Item.parameter _).ids.Subperm _
    rw [Item.ids_eq, Item.children, flatMap_ids_references, List.flatMap_singleton]
    refine .trans ?_ (List.perm_append_singleton _ _).symm.subperm
    exact (List.subperm_cons _).2 (List.map_eq_flatMap ▸ hids)

theorem draws_parameters (e : Element) : Draws (parameters drawNode e) (parameters plain e)
    (Made (List.map (Parameter.relabel unmarked))
      (List.flatMap fun p => (Item.parameter p).ids)) := by
  refine (Draws.mapM fun p _ => draws_parameter p).bind fun ps ps' drawn ⟨hps, hids⟩ => ?_
  have hdistinct : requireDistinctKeys ps' = requireDistinctKeys ps := by
    have hkey : (fun p => (Parameter.relabel unmarked p).key) = Parameter.key := by
      funext p
      rw [Parameter.relabel_eq]
    rw [← hps, requireDistinctKeys, firstRepeat?_map, hkey, requireDistinctKeys]
    cases firstRepeat? Parameter.key [] ps with
    | none => rfl
    | some p => rw [Option.map_some, Parameter.relabel_eq]
  simp only [hdistinct]
  exact .bind_lift fun _ => .pure ⟨hps, by rw [List.append_nil]; exact hids⟩

theorem draws_resetType (e : Element) : Draws (resetType drawNode e) (resetType plain e)
    (Made (ResetType.relabel unmarked) fun t => (Item.resetType t).ids) :=
  .bind_fresh fun _ => .pure ⟨rfl, .refl _⟩

mutual

theorem draws_extension? : ∀ node : Xml.Node,
    Draws (extension? drawNode node) (extension? plain node)
      (Made (Option.map (VendorExtension.relabel unmarked))
        fun x => x.toList.flatMap fun e => (Item.extension e).ids)
  | .element name attributes children => by
    rw [extension?, extension?]
    refine (draws_extensions children).bind fun below below' drawn ⟨hbelow, hids⟩ => ?_
    refine .bind_fresh fun node => .pure ⟨?_, ?_⟩
    · rw [← hbelow, Option.map_some, VendorExtension.relabel_eq]
      rfl
    · change ([_].flatMap fun e => (Item.extension e).ids).Subperm _
      rw [List.flatMap_singleton, Item.ids_eq, Item.children, List.flatMap_map]
      refine .trans ?_ (List.perm_append_singleton _ _).symm.subperm
      exact (List.subperm_cons _).2 hids
  | .text _ | .cdata _ | .comment _ | .instruction _ _ => .pure ⟨rfl, .refl _⟩

theorem draws_extensions : ∀ nodes : List Xml.Node,
    Draws (extensions drawNode nodes) (extensions plain nodes)
      (Made (List.map (VendorExtension.relabel unmarked))
        (List.flatMap fun e => (Item.extension e).ids))
  | [] => by
    rw [extensions, extensions]
    exact .pure ⟨rfl, .refl _⟩
  | node :: nodes => by
    rw [extensions, extensions]
    refine (draws_extension? node).bind fun first first' drawn ⟨hfirst, hids⟩ => ?_
    refine (draws_extensions nodes).bind fun rest rest' drawn' ⟨hrest, hids'⟩ => .pure ⟨?_, ?_⟩
    · rw [← hfirst, ← hrest]
      cases first <;> rfl
    · rw [List.flatMap_append, List.append_nil]
      exact hids.append hids'

end

/-! ### Components -/

theorem draws_componentPart (e : Element) : Draws (componentPart drawNode e) (componentPart plain e)
    (Made ComponentPart.bare ComponentPart.ids) := by
  unfold componentPart
  simp only [map_eq_pure_bind]
  by_cases hparameters : e.name = "parameters"
  · rw [if_pos hparameters, if_pos hparameters]
    exact (draws_parameters e).bind_pure (fun _ => rfl) fun _ => rfl
  rw [if_neg hparameters, if_neg hparameters]
  by_cases htypes : e.name = "resetTypes"
  · rw [if_pos htypes, if_pos htypes]
    exact (Draws.mapM fun t _ => draws_resetType t).bind_pure (fun _ => rfl) fun _ => rfl
  rw [if_neg htypes, if_neg htypes]
  by_cases hmaps : e.name = "memoryMaps"
  · rw [if_pos hmaps, if_pos hmaps]
    exact (Draws.mapM fun m _ => draws_memoryMap m).bind_pure (fun _ => rfl) fun _ => rfl
  rw [if_neg hmaps, if_neg hmaps]
  by_cases hextensions : e.name = "vendorExtensions"
  · rw [if_pos hextensions, if_pos hextensions]
    exact (draws_extensions e.children).bind_pure (fun _ => rfl) fun _ => rfl
  · rw [if_neg hextensions, if_neg hextensions]
    exact .pure ⟨rfl, .refl _⟩

section

variable {α : Type} (parts : List ComponentPart)

theorem lastList_map_bare (part? : ComponentPart → Option (List α)) {of : α → α}
    (h : ∀ p : ComponentPart, part? p.bare = (part? p).map (List.map of)) :
    lastList part? (parts.map ComponentPart.bare) = (lastList part? parts).map of := by
  have hlists : (parts.map ComponentPart.bare).filterMap part? =
      (parts.filterMap part?).map (List.map of) := by
    rw [List.filterMap_map, List.map_filterMap]
    exact List.filterMap_congr fun p _ => h p
  rw [lastList, hlists, List.getLast?_map, lastList]
  cases (parts.filterMap part?).getLast? <;> rfl

/-- The list that counts is one of those that were given. -/
theorem lastList_sublist (part? : ComponentPart → Option (List α)) (ids : α → List Nat) :
    ((lastList part? parts).flatMap ids).Sublist
      (parts.flatMap fun p => ((part? p).getD []).flatMap ids) := by
  have hlists : (parts.flatMap fun p => ((part? p).getD []).flatMap ids) =
      (parts.filterMap part?).flatMap fun as => as.flatMap ids := by
    rw [List.filterMap_eq_flatMap_toList, List.flatMap_assoc]
    exact List.flatMap_congr fun p _ => by cases part? p <;> simp
  rw [hlists, lastList]
  cases hlast : (parts.filterMap part?).getLast? with
  | none => exact List.nil_sublist _
  | some as =>
    exact List.sublist_flatten_of_mem (List.mem_map_of_mem (List.mem_of_getLast? hlast))

end

/-- The identifiers in the lists that count are among those of all parts. -/
theorem lists_subperm (parts : List ComponentPart) :
    ((lastList ComponentPart.parameters? parts).flatMap (fun p => (Item.parameter p).ids) ++
      (lastList ComponentPart.resetTypes? parts).flatMap (fun t => (Item.resetType t).ids) ++
      (lastList ComponentPart.memoryMaps? parts).flatMap (fun m => (Item.memoryMap m).ids) ++
      (lastList ComponentPart.extensions? parts).flatMap (fun e => (Item.extension e).ids)).Subperm
    (parts.flatMap ComponentPart.ids) := by
  let views : List (ComponentPart → List Nat) := [
    fun p => (p.parameters?.getD []).flatMap fun p => (Item.parameter p).ids,
    fun p => (p.resetTypes?.getD []).flatMap fun t => (Item.resetType t).ids,
    fun p => (p.memoryMaps?.getD []).flatMap fun m => (Item.memoryMap m).ids,
    fun p => (p.extensions?.getD []).flatMap fun e => (Item.extension e).ids]
  have hviews : ∀ p : ComponentPart, (views.flatMap fun view => view p).Subperm p.ids := by
    intro p
    cases p <;> simp [views, ComponentPart.parameters?, ComponentPart.resetTypes?,
      ComponentPart.memoryMaps?, ComponentPart.extensions?, ComponentPart.ids, List.Subperm.refl]
  refine .trans ?_ (flatMap_views_subperm hviews parts)
  simp only [views, List.flatMap_cons, List.flatMap_nil, List.append_nil, List.append_assoc]
  exact ((lastList_sublist parts _ _).append ((lastList_sublist parts _ _).append
    ((lastList_sublist parts _ _).append (lastList_sublist parts _ _)))).subperm

theorem draws_component (e : Element) : Draws (component drawNode e) (component plain e)
    (Made (Component.relabel unmarked) Component.ids) := by
  unfold component
  by_cases hname : e.name = "component"
  swap
  · rw [if_pos hname, if_pos hname]
    exact .error _
  rw [if_neg (not_not.2 hname), if_neg (not_not.2 hname)]
  refine .bind_lift fun vlnv => .bind_fresh fun node => ?_
  refine (Draws.mapM fun child _ => draws_componentPart child).bind
    fun parts parts' drawn ⟨hparts, hids⟩ => ?_
  have hparameters := lastList_map_bare parts ComponentPart.parameters?
    fun p : ComponentPart => by cases p <;> rfl
  have htypes := lastList_map_bare parts ComponentPart.resetTypes?
    fun p : ComponentPart => by cases p <;> rfl
  have hmaps := lastList_map_bare parts ComponentPart.memoryMaps?
    fun p : ComponentPart => by cases p <;> rfl
  have hextensions := lastList_map_bare parts ComponentPart.extensions?
    fun p : ComponentPart => by cases p <;> rfl
  rw [hparts] at hparameters htypes hmaps hextensions
  have hnames : (lastList ComponentPart.memoryMaps? parts').map (·.name) =
      (lastList ComponentPart.memoryMaps? parts).map (·.name) := by
    rw [hmaps, List.map_map]
    exact List.map_congr_left fun m _ => by rw [Function.comp_apply, MemoryMap.relabel_eq]
  simp only [hnames]
  refine .bind_lift fun _ => .pure ⟨?_, ?_⟩
  · rw [Component.relabel_eq, hparameters, htypes, hmaps, hextensions]
    rfl
  · change (Item.component _).ids.Subperm _
    rw [Item.ids_eq, Item.children, List.flatMap_append, List.flatMap_append, List.flatMap_append,
      List.flatMap_map, List.flatMap_map, List.flatMap_map, List.flatMap_map, List.append_nil]
    exact (List.subperm_cons _).2 ((lists_subperm parts).trans hids)

end RegAtlas.Ipxact
