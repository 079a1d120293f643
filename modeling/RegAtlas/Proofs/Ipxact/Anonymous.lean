import RegAtlas.Proofs.Ipxact.Reading
import RegAtlas.Proofs.Ipxact.Role

/-!
# Readings up to identity

A component without the identifiers of its nodes. A resolved reference names the place of its
parameter in place of the identifier. Two readings of trees that are read alike become the same:
what a resolution does depends on no identifier.
-/

namespace RegAtlas

/-! ### References up to identity -/

section

variable {f : Node → Node}

theorem MemoryMap.ownedReferences_relabel (m : MemoryMap) : (m.relabel f).ownedReferences =
    m.ownedReferences.map fun o => { o with reference := o.reference.relabel f } := by
  have hpath : ∀ path i, OwnedReference.pathBelow path ((relabeling f).rewrite () i) =
      OwnedReference.pathBelow path i := fun path i => by cases i <;> rfl
  have hnodes : (Item.memoryMap (m.relabel f)).subtreeIn OwnedReference.pathBelow [] = _ :=
    (relabeling_keepsChildren f).subtreeIn_rewrite hpath [] (.memoryMap m)
  rw [ownedReferences, ownedReferences, itemsIn_eq, itemsIn_eq, hnodes, List.filterMap_map,
    List.map_filterMap]
  refine List.filterMap_congr fun x _ => ?_
  obtain ⟨path, i⟩ := x
  cases i <;> rfl

theorem Component.ownedReferences_relabel (c : Component) : (c.relabel f).ownedReferences =
    c.ownedReferences.map fun o => { o with reference := o.reference.relabel f } := by
  simp [ownedReferences, relabel_eq, List.map_flatMap, List.flatMap_map,
    MemoryMap.ownedReferences_relabel]

/-- Warnings are about references without identity. -/
theorem Component.resolveWarnings_eq (f : Node → Node) (c : Component) : c.resolveWarnings =
    (c.relabel f).ownedReferences.filterMap (OwnedReference.warning? c.parameters) := by
  rw [resolveWarnings, ownedReferences_relabel, List.filterMap_map]
  refine List.filterMap_congr fun o _ => ?_
  rw [Function.comp_apply, OwnedReference.warning?, OwnedReference.warning?,
    OwnedReference.outcome, OwnedReference.outcome, Reference.resolve_relabel]
  rfl

end

/-! ### Changes of references beside changes of identity -/

section

variable {f : Node → Node} {change change' : Reference → Reference}
  (h : ∀ r : Reference, (change r).relabel f = change' (r.relabel f))
include h

theorem Reset.relabel_mapReferences (r : Reset) :
    (r.mapReferences change).relabel f = (r.relabel f).mapReferences change' := by
  simp [relabel_eq, mapReferences_eq, Function.comp_def, h]

theorem BitField.relabel_mapReferences (field : BitField) :
    (field.mapReferences change).relabel f = (field.relabel f).mapReferences change' := by
  simp [relabel_eq, mapReferences_eq, Function.comp_def, h, Reset.relabel_mapReferences h]

theorem Register.relabel_mapReferences (r : Register) :
    (r.mapReferences change).relabel f = (r.relabel f).mapReferences change' := by
  simp [relabel_eq, mapReferences_eq, Function.comp_def, h, BitField.relabel_mapReferences h]

theorem AddressBlock.relabel_mapReferences (b : AddressBlock) :
    (b.mapReferences change).relabel f = (b.relabel f).mapReferences change' := by
  simp [relabel_eq, mapReferences_eq, Function.comp_def, h, Register.relabel_mapReferences h]

theorem MemoryMap.relabel_mapReferences (m : MemoryMap) :
    (m.mapReferences change).relabel f = (m.relabel f).mapReferences change' := by
  simp [relabel_eq, mapReferences_eq, Function.comp_def, h, AddressBlock.relabel_mapReferences h]

theorem Component.relabel_mapReferences (c : Component) :
    (c.mapReferences change).relabel f = (c.relabel f).mapReferences change' := by
  simp [relabel_eq, mapReferences, Function.comp_def, MemoryMap.relabel_mapReferences h]

end

/-! ### Parameters up to identity -/

namespace Reference

/-- Names the target of a reference by its place among the parameters. -/
def place (ps : List Parameter) (r : Reference) : Reference :=
  { r with target := r.target.map fun id => ps.findIdx (·.id == id) }

/-- The reference without target. -/
def aimless (r : Reference) : Reference := { r with target := none }

end Reference

theorem findIdx_append_cons {α : Type} {before after : List α} {a : α} {p : α → Bool}
    (hbefore : ∀ b ∈ before, p b = false) (ha : p a = true) :
    (before ++ a :: after).findIdx p = before.length := by
  have hnone : before.findIdx p = before.length := List.findIdx_eq_length.2 hbefore
  rw [List.findIdx_append, if_neg (by omega), List.findIdx_cons, ha]
  simp

/-- Where identifiers differ, the first parameter with a key has the place of the key. -/
theorem findIdx_id_eq {ps : List Parameter} (hnodup : (ps.map (·.id)).Nodup) {key : String}
    {p : Parameter} (hp : Reference.IsFirst ps key p) :
    ps.findIdx (·.id == p.id) = ps.findIdx (·.key == key) := by
  obtain ⟨hkey, before, after, rfl, hbefore⟩ := hp
  rw [List.map_append, List.nodup_append] at hnodup
  obtain ⟨-, -, hne⟩ := hnodup
  have hids : ∀ q ∈ before, (q.id == p.id) = false := fun q hq => by
    simpa using hne q.id (List.mem_map_of_mem hq) p.id (by simp)
  have hkeys : ∀ q ∈ before, (q.key == key) = false := fun q hq => by simpa using hbefore q hq
  rw [findIdx_append_cons hids (by simp), findIdx_append_cons hkeys (by simpa using hkey)]

theorem alike_parameter {p p' : Parameter} (h : p'.relabel unmarked = p.relabel unmarked) :
    p'.name = p.name ∧ p'.value.map (·.text) = p.value.map (·.text) := by
  have htext : ∀ p : Parameter, (p.relabel unmarked).value.map (·.text) = p.value.map (·.text) := by
    intro p
    rw [Parameter.relabel_eq, Option.map_map]
    rfl
  have hname : ∀ p : Parameter, (p.relabel unmarked).name = p.name := by
    intro p
    rw [Parameter.relabel_eq]
  exact ⟨by rw [← hname p', h, hname p], by rw [← htext p', h, htext p]⟩

section

variable {ps ps' : List Parameter}
  (h : ps.map (Parameter.relabel unmarked) = ps'.map (Parameter.relabel unmarked))
include h

theorem map_key_eq : ps.map (·.key) = ps'.map (·.key) := by
  have hkeys : ∀ ps : List Parameter,
      (ps.map (Parameter.relabel unmarked)).map (·.key) = ps.map (·.key) := by
    intro ps
    simp [Parameter.relabel_eq, Function.comp_def]
  rw [← hkeys ps, h, hkeys ps']

theorem findIdx_key_eq (key : String) :
    ps.findIdx (·.key == key) = ps'.findIdx (·.key == key) := by
  have hkeys := congrArg (List.findIdx (· == key)) (map_key_eq h)
  rw [List.findIdx_map, List.findIdx_map] at hkeys
  exact hkeys

theorem find?_alike (key : String) :
    (ps.find? (·.key == key)).map (Parameter.relabel unmarked) =
      (ps'.find? (·.key == key)).map (Parameter.relabel unmarked) := by
  have hfind : ∀ ps : List Parameter, (ps.find? (·.key == key)).map (Parameter.relabel unmarked) =
      (ps.map (Parameter.relabel unmarked)).find? (·.key == key) := by
    intro ps
    rw [List.find?_map]
    refine congrArg (Option.map _ <| List.find? · ps) (funext fun p => ?_)
    rw [Function.comp_apply, Parameter.relabel_eq]
  rw [hfind, h, hfind]

theorem exists_first_alike {key : String} {p : Parameter} (hp : Reference.IsFirst ps key p) :
    ∃ p', Reference.IsFirst ps' key p' ∧ p'.relabel unmarked = p.relabel unmarked := by
  have hfind := find?_alike h key
  rw [Reference.find?_eq_some_iff.2 hp, Option.map_some, eq_comm] at hfind
  obtain ⟨p', hp', heq⟩ := Option.map_eq_some_iff.1 hfind
  exact ⟨p', Reference.find?_eq_some_iff.1 hp', heq⟩

theorem forall_key_ne {key : String} (hno : ∀ p ∈ ps, p.key ≠ key) : ∀ p ∈ ps', p.key ≠ key := by
  intro p hp hkey
  have hmem : p.key ∈ ps.map (·.key) := map_key_eq h ▸ List.mem_map_of_mem hp
  obtain ⟨q, hq, hqkey⟩ := List.mem_map.1 hmem
  exact hno q hq (hqkey.trans hkey)

/-- What becomes of a reference depends on the parameters up to identity. -/
theorem resolve_alike (hnodup : (ps.map (·.id)).Nodup) (hnodup' : (ps'.map (·.id)).Nodup)
    (r : Reference) : (r.resolve ps).2 = (r.resolve ps').2 ∧
      (r.target = none → (r.resolve ps).1.place ps = (r.resolve ps').1.place ps') := by
  have hplace : ∀ key, r.target = none →
      ({ r with key } : Reference).place ps = ({ r with key } : Reference).place ps' := by
    intro key hr
    simp [Reference.place, hr]
  obtain ⟨r', o, hcase⟩ := Reference.exists_becomes ps r
  rw [hcase.resolve_eq]
  cases hcase with
  | keyless hkey =>
    rw [(Reference.Becomes.keyless hkey).resolve_eq]
    exact ⟨rfl, hplace r.key⟩
  | blank hkey hblank =>
    rw [(Reference.Becomes.blank hkey hblank).resolve_eq]
    exact ⟨rfl, hplace none⟩
  | @value key p v hkey hp hv =>
    obtain ⟨p', hp', heq⟩ := exists_first_alike h hp
    have hvalue : p'.value.map (·.text) = some v.text := by
      rw [(alike_parameter heq).2, hv]
      rfl
    obtain ⟨v', hv', htext⟩ := Option.map_eq_some_iff.1 hvalue
    rw [(Reference.Becomes.value hkey hp' hv').resolve_eq]
    refine ⟨rfl, fun _ => ?_⟩
    simp only [Reference.place, Option.map_some, findIdx_id_eq hnodup hp,
      findIdx_id_eq hnodup' hp', findIdx_key_eq h, htext]
  | @valueless key p hkey hp hv =>
    obtain ⟨p', hp', heq⟩ := exists_first_alike h hp
    obtain ⟨hname, hvalue⟩ := alike_parameter heq
    rw [hv, Option.map_none, Option.map_eq_none_iff] at hvalue
    rw [(Reference.Becomes.valueless hkey hp' hvalue).resolve_eq, hname]
    exact ⟨rfl, hplace none⟩
  | literal hkey hno hnumber =>
    rw [(Reference.Becomes.literal hkey (forall_key_ne h hno) hnumber).resolve_eq]
    exact ⟨rfl, hplace none⟩
  | unresolved hkey hno hnumber =>
    rw [(Reference.Becomes.unresolved hkey (forall_key_ne h hno) hnumber).resolve_eq]
    exact ⟨rfl, hplace none⟩

end

/-! ### References that were read -/

namespace Ipxact

open Xml (Element)

/-- The reference of a part has no target, and its node is a good one. -/
def Part.Aimless {α : Type} (good : α → Prop) : Part α → Prop
  | reference _ r => r.target = none
  | number _ => True
  | node a => good a

section

variable {α : Type} {good : α → Prop} {parts : List (Part α)} (h : ∀ p ∈ parts, p.Aimless good)
include h

theorem last?_aimless (names : List String) :
    (Part.last? parts names).map Reference.aimless = Part.last? parts names := by
  cases hlast : Part.last? parts names with
  | none => rfl
  | some r =>
    obtain ⟨p, hp, hr⟩ := List.mem_filterMap.1 (List.mem_of_getLast? hlast)
    have hgood := h p hp
    cases p with
    | number | node => cases hr
    | reference tag r' =>
      rw [Part.reference?, Option.ite_none_right_eq_some] at hr
      obtain rfl := Option.some.inj hr.2
      have htarget : r'.target = none := hgood
      rw [Option.map_some, Reference.aimless, ← htarget]

theorem good_of_mem_nodes {a : α} (ha : a ∈ Part.nodes parts) : good a := by
  obtain ⟨p, hp, hnode⟩ := List.mem_filterMap.1 ha
  have hgood := h p hp
  cases p with
  | reference | number => cases hnode
  | node a' =>
    obtain rfl := Option.some.inj hnode
    exact hgood

end

theorem aimless_nodePart {α : Type} {good : α → Prop} {read : Element → Except DocumentError α}
    (h : ∀ e, Ensures (read e) good) (tag : String) (e : Element) :
    Ensures (nodePart tag read e) fun parts => ∀ p ∈ parts, p.Aimless good := by
  unfold nodePart
  split_ifs
  · refine (h e).bind fun a ha => .pure fun p hp => ?_
    obtain rfl := List.mem_singleton.1 hp
    exact ha
  · exact .pure (by simp)

theorem aimless_reset (e : Element) :
    Ensures (reset plain e) fun r => r.mapReferences Reference.aimless = r := by
  refine (Ensures.trivial _).bind fun _ _ => (Corresponding.ensures_readParts
    (P := Part.Aimless fun _ => True) (fun _ _ => rfl) (fun _ => .pure (by simp)) e).bind
      fun parts hparts => .pure ?_
  simp only [Reset.mapReferences_eq, last?_aimless hparts]

/-- In the resets and values of a field. -/
theorem aimless_fieldPart (e : Element) : Ensures (fieldPart plain e) fun parts =>
    ∀ p ∈ parts, p.Aimless fun node =>
      ∀ r ∈ node.getLeft?, r.mapReferences Reference.aimless = r := by
  unfold fieldPart
  split_ifs
  · exact Corresponding.ensures_readParts (fun _ _ => rfl) (fun _ => .pure (by simp)) e
  · refine Ensures.mapM fun child _ => (aimless_reset child).bind fun r hr => .pure ?_
    rintro _ ⟨rfl⟩
    exact hr
  · refine Ensures.mapM fun child _ => (Ensures.trivial _).bind fun v _ => .pure ?_
    rintro _ ⟨⟩
  · exact .pure (by simp)

theorem aimless_field (e : Element) :
    Ensures (field plain e) fun f => f.mapReferences Reference.aimless = f := by
  refine (Ensures.trivial _).bind fun _ _ => (Ensures.trivial _).bind fun _ _ =>
    (Corresponding.ensures_readParts (fun _ _ => rfl) aimless_fieldPart e).bind
      fun parts hparts => .pure ?_
  have hresets : ((Part.nodes parts).filterMap Sum.getLeft?).map
      (Reset.mapReferences Reference.aimless) = (Part.nodes parts).filterMap Sum.getLeft? := by
    refine map_eq_self_iff.2 fun r hr => ?_
    obtain ⟨node, hnode, hr⟩ := List.mem_filterMap.1 hr
    exact good_of_mem_nodes hparts hnode r hr
  simp only [BitField.mapReferences_eq, last?_aimless hparts, hresets]

theorem aimless_register (e : Element) :
    Ensures (register plain e) fun r => r.mapReferences Reference.aimless = r := by
  refine (Ensures.trivial _).bind fun _ _ => (Corresponding.ensures_readParts (fun _ _ => rfl)
    (aimless_nodePart aimless_field "field") e).bind fun parts hparts =>
      (Ensures.trivial _).bind fun _ _ => .pure ?_
  have hfields := map_eq_self_iff.2 fun f hf => good_of_mem_nodes hparts hf
  simp only [Register.mapReferences_eq, last?_aimless hparts, hfields]

theorem aimless_addressBlock (e : Element) :
    Ensures (addressBlock plain e) fun b => b.mapReferences Reference.aimless = b := by
  refine (Ensures.trivial _).bind fun _ _ => (Corresponding.ensures_readParts (fun _ _ => rfl)
    (aimless_nodePart aimless_register "register") e).bind fun parts hparts =>
      (Ensures.trivial _).bind fun _ _ => .pure ?_
  have hregisters := map_eq_self_iff.2 fun r hr => good_of_mem_nodes hparts hr
  simp only [AddressBlock.mapReferences_eq, last?_aimless hparts, hregisters]

theorem aimless_mapPart (e : Element) : Ensures (mapPart plain e) fun parts =>
    ∀ p ∈ parts, p.Aimless fun b => b.mapReferences Reference.aimless = b := by
  unfold mapPart
  split_ifs
  · refine (Ensures.trivial _).bind fun n _ => .pure fun p hp => ?_
    obtain rfl := List.mem_singleton.1 hp
    trivial
  · exact aimless_nodePart aimless_addressBlock "addressBlock" e

theorem aimless_memoryMap (e : Element) :
    Ensures (memoryMap plain e) fun m => m.mapReferences Reference.aimless = m := by
  refine (Ensures.trivial _).bind fun _ _ => (Corresponding.ensures_readParts (fun _ _ => rfl)
    aimless_mapPart e).bind fun parts hparts => (Ensures.trivial _).bind fun _ _ => .pure ?_
  have hblocks := map_eq_self_iff.2 fun b hb => good_of_mem_nodes hparts hb
  simp only [MemoryMap.mapReferences_eq, last?_aimless hparts, hblocks]

theorem aimless_componentPart (e : Element) : Ensures (componentPart plain e) fun part =>
    ∀ ms ∈ part.memoryMaps?, ∀ m ∈ ms, m.mapReferences Reference.aimless = m := by
  unfold componentPart
  split_ifs
  · exact (Ensures.trivial _).map fun _ _ => nofun
  · exact (Ensures.trivial _).map fun _ _ => nofun
  · refine (Ensures.mapM fun m _ => aimless_memoryMap m).map fun ms hms => ?_
    rintro _ ⟨rfl⟩
    exact hms
  · exact (Ensures.trivial _).map fun _ _ => nofun
  · exact .pure nofun

/-- References below the memory maps have no target before they are resolved. -/
theorem aimless_component (e : Element) :
    Ensures (component plain e) fun c => c.mapReferences Reference.aimless = c := by
  unfold component
  split
  · rintro c ⟨⟩
  refine (Ensures.trivial _).bind fun _ _ => (Ensures.trivial _).bind fun _ _ =>
    (Ensures.mapM fun child _ => aimless_componentPart child).bind fun parts hparts =>
      (Ensures.trivial _).bind fun _ _ => .pure ?_
  have hmaps : (lastList ComponentPart.memoryMaps? parts).map
      (MemoryMap.mapReferences Reference.aimless) = lastList ComponentPart.memoryMaps? parts := by
    refine map_eq_self_iff.2 (forall_mem_getLastD fun ms hms => ?_)
    obtain ⟨part, hpart, hms⟩ := List.mem_filterMap.1 hms
    exact hparts part hpart ms hms
  simp only [Component.mapReferences, hmaps]

/-! ### Readings up to identity -/

end Ipxact

/-- The component without identity. Targets of references are the places of their parameters. -/
def Component.anonymous (c : Component) : Component :=
  (c.mapReferences (Reference.place c.parameters)).relabel unmarked

namespace Ipxact

/-- What resolution makes of a reference without target, without identity. -/
def settle (ps : List Parameter) (r : Reference) : Reference :=
  ((r.aimless.resolve ps).1.place ps).relabel unmarked

theorem anonymous_finish {c : Component}
    (h : (c.relabel unmarked).mapReferences Reference.aimless = c.relabel unmarked) :
    (finish c).component.anonymous =
      (c.relabel unmarked).mapReferences (settle c.link.parameters) := by
  let change (r : Reference) : Reference :=
    (c.link.resolvedReference r).place c.link.parameters
  have hchange : ∀ r : Reference,
      (change r).relabel unmarked = (change (r.relabel unmarked)).relabel unmarked := by
    intro r
    simp only [change, Component.resolvedReference, Reference.resolve_relabel]
    rfl
  calc (finish c).component.anonymous
      = (c.link.mapReferences change).relabel unmarked :=
        congrArg (Component.relabel unmarked) (Component.mapReferences_mapReferences _ _ _)
    _ = (c.link.relabel unmarked).mapReferences fun r => (change r).relabel unmarked :=
        Component.relabel_mapReferences hchange _
    _ = (c.relabel unmarked).mapReferences fun r => (change r).relabel unmarked := by
        rw [c.relabel_link fun _ _ => rfl]
    _ = ((c.relabel unmarked).mapReferences Reference.aimless).mapReferences
        fun r => (change r).relabel unmarked := by rw [h]
    _ = (c.relabel unmarked).mapReferences (settle c.link.parameters) :=
        Component.mapReferences_mapReferences _ _ _

theorem nodup_parameterIds {c : Component} (h : c.ids.Nodup) :
    (c.parameters.map (·.id)).Nodup := by
  have hchildren : (Item.component c).ids = _ := Item.ids_eq _
  have hids : (c.parameters.map (·.id)).Sublist (c.parameters.flatMap fun p =>
      (Item.parameter p).ids) := by
    rw [List.map_eq_flatMap]
    refine List.Sublist.flatMap_right _ fun p _ => ?_
    rw [Item.ids_eq]
    exact List.singleton_sublist.2 List.mem_cons_self
  refine List.Nodup.sublist (hids.trans ?_) h
  rw [show c.ids = (Item.component c).ids from rfl, hchildren, Item.children]
  simp only [List.flatMap_append, List.flatMap_map, List.append_assoc]
  exact (List.sublist_append_left _ _).trans (List.sublist_cons_self _ _)

/-- Two components that are the same up to identity give the same reading up to identity. -/
theorem finish_alike {c c' : Component} (hnodup : c.ids.Nodup) (hnodup' : c'.ids.Nodup)
    (heq : c.relabel unmarked = c'.relabel unmarked)
    (h : (c.relabel unmarked).mapReferences Reference.aimless = c.relabel unmarked) :
    (finish c).component.anonymous = (finish c').component.anonymous ∧
      (finish c).warnings = (finish c').warnings := by
  have hparameters : c.link.parameters.map (Parameter.relabel unmarked) =
      c'.link.parameters.map (Parameter.relabel unmarked) := by
    have hlinked : c.link.relabel unmarked = c'.link.relabel unmarked := by
      rw [c.relabel_link fun _ _ => rfl, c'.relabel_link fun _ _ => rfl, heq]
    rw [Component.relabel_eq, Component.relabel_eq] at hlinked
    exact congrArg Component.parameters hlinked
  rw [← c.ids_link] at hnodup
  rw [← c'.ids_link] at hnodup'
  have halike := resolve_alike hparameters (nodup_parameterIds hnodup)
    (nodup_parameterIds hnodup')
  constructor
  · rw [anonymous_finish h, anonymous_finish (heq ▸ h), heq]
    have hsettle : settle c.link.parameters = settle c'.link.parameters := by
      funext r
      rw [settle, settle, (halike r.aimless).2 rfl]
    rw [hsettle]
  · have hwarning : OwnedReference.warning? c.link.parameters =
        OwnedReference.warning? c'.link.parameters := by
      funext o
      rw [OwnedReference.warning?, OwnedReference.outcome, (halike o.reference).1]
      rfl
    change c.link.resolveWarnings = c'.link.resolveWarnings
    rw [Component.resolveWarnings_eq unmarked, Component.resolveWarnings_eq unmarked, hwarning,
      c.relabel_link fun _ _ => rfl, c'.relabel_link fun _ _ => rfl, heq]

/-- The reading without identity. -/
def Reading.anonymous (reading : Reading) : Reading :=
  { reading with component := reading.component.anonymous }

end Ipxact

end RegAtlas
