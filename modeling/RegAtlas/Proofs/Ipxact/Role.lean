import Mathlib.Data.List.Forall2
import RegAtlas.Proofs.Ipxact.Drawing
import RegAtlas.Proofs.Result

/-!
# Roles of elements

What an element is read as depends on its tag and on the element around it. The children of an
element fill slots by their tags. What is read from an element depends on its attributes and on the
children in each slot, and on nothing else.
-/

namespace RegAtlas.Ipxact

open Xml (Element)

/-- What an element is read as. -/
inductive Role where
  | component
  | parameters
  | parameter
  | resetTypes
  | resetType
  | memoryMaps
  | memoryMap
  | addressBlock
  | register
  | field
  | resets
  | reset
  | enumeratedValues
  | enumeratedValue
  /-- Only the text of the element counts. -/
  | text
  /-- All of the element counts. -/
  | verbatim
  deriving DecidableEq, Repr

namespace Role

/-- The slots that give the name and the documentation of a node. -/
def labelSlots : List (List String) := [["name"], ["displayName"], ["description"]]

/-- The slots of an element, each with the tags that fill it. A tag may fill several slots. -/
def slots : Role → List (List String)
  | component => labelSlots ++ [["vendor"], ["library"], ["version"], ["author"], ["license"],
      ["parameters"], ["resetTypes"], ["memoryMaps"], ["vendorExtensions"]]
  | parameters => [["parameter"]]
  | parameter => labelSlots ++ [["value"]]
  | resetTypes => [["resetType"]]
  | resetType => labelSlots
  | memoryMaps => [["memoryMap"]]
  | memoryMap => labelSlots ++ [["addressUnitBits"], ["isPresent"], ["addressBlock"]]
  | addressBlock => labelSlots ++ [["baseAddress"], ["blockRange", "range"], ["width"],
      ["isPresent"], ["volatile"], ["usage"], ["access"], ["register"]]
  | register => labelSlots ++ [["offset", "addressOffset"], ["size"], ["dimension", "dim"],
      ["isPresent"], ["volatile"], ["access"], ["field"]]
  | field => labelSlots ++ [["offset", "bitOffset"], ["width", "bitWidth"], ["isPresent"],
      ["reserved"], ["volatile"], ["access"], ["modifiedWriteValue", "modifiedWriteValues"],
      ["readAction"], ["testable"], ["testable", "testConstraint"], ["writeValueConstraint"],
      ["writeValueConstraint", "writevalueminimum"], ["writeValueConstraint", "writevaluemaximum"],
      ["resets"], ["enumeratedValues"]]
  | resets => [["reset"]]
  | reset => [["value"], ["mask"]]
  | enumeratedValues => [["enumeratedValue"]]
  | enumeratedValue => labelSlots ++ [["value"], ["usage"]]
  | text | verbatim => []

/-- The role of a child with a tag. -/
def child : Role → String → Role
  | component, "parameters" => parameters
  | component, "resetTypes" => resetTypes
  | component, "memoryMaps" => memoryMaps
  | component, "vendorExtensions" => verbatim
  | parameters, "parameter" => parameter
  | resetTypes, "resetType" => resetType
  | memoryMaps, "memoryMap" => memoryMap
  | memoryMap, "addressBlock" => addressBlock
  | addressBlock, "register" => register
  | register, "field" => field
  | field, "writeValueConstraint" => verbatim
  | field, "resets" => resets
  | field, "enumeratedValues" => enumeratedValues
  | resets, "reset" => reset
  | enumeratedValues, "enumeratedValue" => enumeratedValue
  | verbatim, _ => verbatim
  | _, _ => text

/-- The slot is one of texts. -/
def TextSlot (role : Role) (slot : List String) : Prop :=
  slot ∈ role.slots ∧ ∀ tag ∈ slot, role.child tag = text

instance (role : Role) (slot : List String) : Decidable (role.TextSlot slot) :=
  inferInstanceAs (Decidable (_ ∧ _))

/-- What is read from an element. -/
def Result : Role → Type
  | component => Option Component
  | parameters => Option (List Parameter)
  | parameter => Option Parameter
  | resetTypes => Option (List ResetType)
  | resetType => Option ResetType
  | memoryMaps => Option (List MemoryMap)
  | memoryMap => Option MemoryMap
  | addressBlock => Option AddressBlock
  | register => Option Register
  | field => Option BitField
  | resets => Option (List Reset)
  | reset => Option Reset
  | enumeratedValues => Option (List EnumValue)
  | enumeratedValue => Option EnumValue
  | text => String
  | verbatim => Element

def read : (role : Role) → Element → role.Result
  | component, e => (Ipxact.component plain e).toOption
  | parameters, e => (Ipxact.parameters plain e).toOption
  | parameter, e => (Ipxact.parameter plain e).toOption
  | resetTypes, e => ((e.named "resetType").mapM (Ipxact.resetType plain)).toOption
  | resetType, e => (Ipxact.resetType plain e).toOption
  | memoryMaps, e => ((e.named "memoryMap").mapM (Ipxact.memoryMap plain)).toOption
  | memoryMap, e => (Ipxact.memoryMap plain e).toOption
  | addressBlock, e => (Ipxact.addressBlock plain e).toOption
  | register, e => (Ipxact.register plain e).toOption
  | field, e => (Ipxact.field plain e).toOption
  | resets, e => ((e.named "reset").mapM (Ipxact.reset plain)).toOption
  | reset, e => (Ipxact.reset plain e).toOption
  | enumeratedValues, e => ((e.named "enumeratedValue").mapM (enumValue plain)).toOption
  | enumeratedValue, e => (enumValue plain e).toOption
  | text, e => e.content
  | verbatim, e => e

/-- The same is read from two elements with one head. -/
structure Same (role : Role) (e e' : Element) : Prop where
  name : e.name = e'.name
  attributes : e.attributes = e'.attributes
  read : role.read e = role.read e'

theorem Same.rfl {role : Role} {e : Element} : role.Same e e := ⟨.refl _, .refl _, .refl _⟩

theorem Same.symm {role : Role} {e e' : Element} (h : role.Same e e') : role.Same e' e :=
  ⟨h.name.symm, h.attributes.symm, h.read.symm⟩

theorem Same.trans {role : Role} {e e' e'' : Element} (h : role.Same e e') (h' : role.Same e' e'') :
    role.Same e e'' :=
  ⟨h.name.trans h'.name, h.attributes.trans h'.attributes, h.read.trans h'.read⟩

end Role

/-! ### Slots -/

/-- The child elements that fill a slot, in order. -/
def filling (e : Element) (slot : List String) : List Element :=
  e.elements.filter fun child => slot.contains child.name

theorem named_eq_filling (e : Element) (tag : String) : e.named tag = filling e [tag] := by
  refine List.filter_congr fun child _ => ?_
  rw [List.contains_cons, List.contains_nil, Bool.or_false]

/-- Slot by slot, the same is read from the children. -/
structure Corresponding (role : Role) (e e' : Element) : Prop where
  attributes : e.attributes = e'.attributes
  children : ∀ slot ∈ role.slots, List.Forall₂ (fun a a' => (role.child a.name).Same a a')
    (filling e slot) (filling e' slot)

namespace Corresponding

variable {role : Role} {e e' : Element} {slot : List String} {β : Type}

theorem map_eq (h : Corresponding role e e') (hslot : slot ∈ role.slots) {g : Element → β}
    (hg : ∀ a a', a.name ∈ slot → (role.child a.name).Same a a' → g a = g a') :
    (filling e slot).map g = (filling e' slot).map g := by
  have hnames : ∀ a ∈ filling e slot, a.name ∈ slot := fun a ha => by
    simpa using (List.mem_filter.1 ha).2
  have hchildren := h.children slot hslot
  generalize filling e slot = children, filling e' slot = children' at hnames hchildren ⊢
  induction hchildren with
  | nil => rfl
  | cons hsame _ ih =>
    rw [List.forall_mem_cons] at hnames
    rw [List.map_cons, List.map_cons, hg _ _ hnames.1 hsame, ih hnames.2]

/-- Only the last child of a slot counts. -/
theorem last_eq (h : Corresponding role e e') (hslot : slot ∈ role.slots) {g : Element → β}
    (hg : ∀ a a', a.name ∈ slot → (role.child a.name).Same a a' → g a = g a') :
    (e.last? slot).map g = (e'.last? slot).map g := by
  have hmap := congrArg List.getLast? (h.map_eq hslot hg)
  rw [List.getLast?_map, List.getLast?_map] at hmap
  exact hmap

/-- The children that fill no slot of a kind give nothing of it. -/
theorem flatMap_eq (h : Corresponding role e e') (hslot : slot ∈ role.slots)
    {g : Element → List β} (hnone : ∀ a, a.name ∉ slot → g a = [])
    (hg : ∀ a a', a.name ∈ slot → (role.child a.name).Same a a' → g a = g a') :
    e.elements.flatMap g = e'.elements.flatMap g := by
  have hfilling : ∀ children : List Element, children.flatMap g =
      ((children.filter fun child => slot.contains child.name).map g).flatten := by
    intro children
    induction children with
    | nil => rfl
    | cons a children ih =>
      by_cases ha : a.name ∈ slot
      · rw [List.filter_cons_of_pos (by simpa using ha), List.flatMap_cons, ih]
        rfl
      · rw [List.filter_cons_of_neg (by simpa using ha), List.flatMap_cons, ih, hnone a ha]
        rfl
  calc e.elements.flatMap g = ((filling e slot).map g).flatten := hfilling _
    _ = ((filling e' slot).map g).flatten := by rw [h.map_eq hslot hg]
    _ = e'.elements.flatMap g := (hfilling _).symm

theorem filterMap_eq (h : Corresponding role e e') (hslot : slot ∈ role.slots)
    {g : Element → Option β} (hnone : ∀ a, a.name ∉ slot → g a = none)
    (hg : ∀ a a', a.name ∈ slot → (role.child a.name).Same a a' → g a = g a') :
    e.elements.filterMap g = e'.elements.filterMap g := by
  rw [List.filterMap_eq_flatMap_toList, List.filterMap_eq_flatMap_toList]
  exact h.flatMap_eq hslot (fun a ha => by rw [hnone a ha]; rfl) fun a a' ha hsame => by
    rw [hg a a' ha hsame]

/-- A condition on the children of a slot. -/
theorem forall_iff (h : Corresponding role e e') (hslot : slot ∈ role.slots) {P : Element → Prop}
    (hg : ∀ a a', a.name ∈ slot → (role.child a.name).Same a a' → P a = P a') :
    (∀ a ∈ e.elements, a.name ∈ slot → P a) ↔ ∀ a ∈ e'.elements, a.name ∈ slot → P a := by
  have hfilling : ∀ e : Element, (∀ a ∈ e.elements, a.name ∈ slot → P a) ↔
      ∀ p ∈ (filling e slot).map P, p := by
    intro e
    rw [List.forall_mem_map]
    simp [filling]
  rw [hfilling, hfilling, h.map_eq hslot hg]

theorem named_eq (h : Corresponding role e e') {tag : String} {childRole : Role}
    (hslot : [tag] ∈ role.slots) (hrole : role.child tag = childRole) {g : Element → β}
    (hg : ∀ a a', childRole.Same a a' → g a = g a') :
    (e.named tag).map g = (e'.named tag).map g := by
  rw [named_eq_filling, named_eq_filling]
  refine h.map_eq hslot fun a a' ha hsame => hg a a' ?_
  rw [List.mem_singleton.1 ha, hrole] at hsame
  exact hsame

theorem mapM_named_eq (h : Corresponding role e e') {tag : String} {childRole : Role}
    (hslot : [tag] ∈ role.slots) (hrole : role.child tag = childRole)
    {f : Element → Except DocumentError β}
    (hf : ∀ a a', childRole.Same a a' → (f a).toOption = (f a').toOption) :
    ((e.named tag).mapM f).toOption = ((e'.named tag).mapM f).toOption := by
  rw [toOption_mapM, toOption_mapM]
  exact mapM_congr_map (h.named_eq hslot hrole hf)

/-- A condition that elements outside of all slots meet. -/
theorem forall_elements_iff (h : Corresponding role e e') {P : Element → Prop}
    (hnone : ∀ a, (∀ slot ∈ role.slots, a.name ∉ slot) → P a)
    (hP : ∀ a a', (role.child a.name).Same a a' → P a = P a') :
    (∀ a ∈ e.elements, P a) ↔ ∀ a ∈ e'.elements, P a := by
  have hslots : ∀ e : Element, (∀ a ∈ e.elements, P a) ↔
      ∀ slot ∈ role.slots, ∀ a ∈ e.elements, a.name ∈ slot → P a := by
    intro e
    refine ⟨fun hall _ _ a ha _ => hall a ha, fun hall a ha => ?_⟩
    by_cases hslot : ∃ slot ∈ role.slots, a.name ∈ slot
    · obtain ⟨slot, hmem, ha'⟩ := hslot
      exact hall slot hmem a ha ha'
    · exact hnone a fun slot hmem ha' => hslot ⟨slot, hmem, ha'⟩
  rw [hslots, hslots]
  exact forall₂_congr fun slot hslot => h.forall_iff hslot fun a a' _ => hP a a'

/-! ### Slots of texts -/

theorem text?_eq (h : Corresponding role e e') (slot : List String) (hslot : role.TextSlot slot) :
    text? e slot = text? e' slot :=
  h.last_eq hslot.1 fun a a' ha hsame => by
    rw [hslot.2 a.name ha] at hsame
    exact hsame.read

theorem keyword_eq {α : Type} [Keyword α] (h : Corresponding role e e') (slot : List String)
    (hslot : role.TextSlot slot) : (keyword e slot : α) = keyword e' slot := by
  rw [keyword, h.text?_eq slot hslot, keyword]

theorem label_eq (h : Corresponding role e e') (hslots : ∀ slot ∈ Role.labelSlots,
    role.TextSlot slot) : label e = label e' := by
  rw [label, h.text?_eq ["name"] (hslots _ (by decide)),
    h.text?_eq ["displayName"] (hslots _ (by decide)),
    h.text?_eq ["description"] (hslots _ (by decide)), label]

/-! ### Children that give parts -/

section

variable {α : Type} {tags : List String} {other : Element → Except DocumentError (List (Part α))}

/-- What a child gives its parent. -/
def childParts (tags : List String) (other : Element → Except DocumentError (List (Part α)))
    (a : Element) : Option (List (Part α)) :=
  if a.name ∈ tags then some [.reference a.name (.ofText a.content)] else (other a).toOption

theorem toOption_readParts (e : Element) : (readParts plain tags other e).toOption =
    (e.elements.mapM (childParts tags other)).map List.flatten := by
  have hchild : ∀ a : Element, (if a.name ∈ tags then do
      return [.reference a.name (← reference plain a)] else other a :
        Except DocumentError (List (Part α))).toOption = childParts tags other a := by
    intro a
    rw [childParts]
    split_ifs <;> rfl
  rw [readParts, toOption_bind, toOption_mapM]
  simp only [hchild]
  cases e.elements.mapM (childParts tags other) <;> rfl

/-- What holds of references and of what other children give holds of all parts. -/
theorem ensures_readParts {P : Part α → Prop}
    (hreference : ∀ a : Element, a.name ∈ tags → P (.reference a.name (.ofText a.content)))
    (hother : ∀ a, Ensures (other a) fun parts => ∀ p ∈ parts, P p) (e : Element) :
    Ensures (readParts plain tags other e) fun parts => ∀ p ∈ parts, P p := by
  have hchild : ∀ a ∈ e.elements, Ensures (if a.name ∈ tags then do
      return [.reference a.name (← reference plain a)] else other a :
        Except DocumentError (List (Part α))) fun parts => ∀ p ∈ parts, P p := by
    intro a _
    by_cases htag : a.name ∈ tags
    · rw [if_pos htag]
      rintro _ ⟨⟩ p hp
      obtain rfl := List.mem_singleton.1 hp
      exact hreference a htag
    · rw [if_neg htag]
      exact hother a
  refine (Ensures.mapM hchild).bind fun groups hgroups => .pure fun p hp => ?_
  obtain ⟨group, hgroup, hp⟩ := List.mem_flatten.1 hp
  exact hgroups group hgroup p hp

/-- What makes of two lists of parts the same list. -/
def PartsAlike (role : Role) (tags : List String)
    (other : Element → Except DocumentError (List (Part α))) (ps ps' : List (Part α)) : Prop :=
  ∀ {β : Type} (view : Part α → Option β), ∀ slot ∈ role.slots,
    (∀ a parts, a.name ∉ slot → childParts tags other a = some parts →
      parts.filterMap view = []) → ps.filterMap view = ps'.filterMap view

namespace PartsAlike

variable {ps ps' : List (Part α)}

theorem filterMap_eq (h : PartsAlike role tags other ps ps') {view : Part α → Option β}
    (hslot : slot ∈ role.slots)
    (hreference : ∀ tag ∈ tags, tag ∉ slot → ∀ r, view (.reference tag r) = none)
    (hother : ∀ a parts, a.name ∉ slot → other a = .ok parts → parts.filterMap view = []) :
    ps.filterMap view = ps'.filterMap view := by
  refine h view slot hslot fun a parts ha hparts => ?_
  rw [childParts] at hparts
  split_ifs at hparts with htag
  · obtain rfl := Option.some.inj hparts
    simp [hreference a.name htag ha]
  · exact hother a parts ha (toOption_eq_some_iff.1 hparts)

/-- The last reference with one of the names, all of which stand for one slot. -/
theorem last?_eq (h : PartsAlike role tags other ps ps') (slot names : List String)
    (hslot : slot ∈ role.slots) (hnames : ∀ tag ∈ tags, tag ∉ slot → tag ∉ names)
    (hother : ∀ a parts, a.name ∉ slot → other a = .ok parts →
      parts.filterMap (Part.reference? names) = []) :
    Part.last? ps names = Part.last? ps' names :=
  congrArg List.getLast? (h.filterMap_eq hslot
    (fun tag htag hout _ => if_neg (hnames tag htag hout)) hother)

end PartsAlike

theorem childParts_alike (htags : ∀ tag ∈ tags, role.child tag = .text)
    (hother : ∀ a a', (role.child a.name).Same a a' → (other a).toOption = (other a').toOption)
    (a a' : Element) (hsame : (role.child a.name).Same a a') :
    childParts tags other a = childParts tags other a' := by
  rw [childParts, childParts, ← hsame.name]
  by_cases htag : a.name ∈ tags
  · have htext := htags a.name htag
    rw [htext] at hsame
    have hcontent : a.content = a'.content := hsame.read
    rw [if_pos htag, if_pos htag, hcontent]
  · rw [if_neg htag, if_neg htag, hother a a' hsame]

theorem filterMap_childParts (view : Part α → Option β) (as : List Element) :
    (as.filterMap (childParts tags other)).flatten.filterMap view =
      as.flatMap fun a => ((childParts tags other a).getD []).filterMap view := by
  rw [List.filterMap_flatten, List.map_filterMap, List.filterMap_eq_flatMap_toList,
    List.flatten_eq_flatMap, List.flatMap_assoc]
  refine List.flatMap_congr fun a _ => ?_
  cases childParts tags other a <;> simp

/-- The children are read alike, and what they give is alike slot by slot. -/
theorem readParts_alike (h : Corresponding role e e') (tags : List String)
    (other : Element → Except DocumentError (List (Part α)))
    (htags : ∀ tag ∈ tags, role.child tag = .text)
    (hnone : ∀ a, (∀ slot ∈ role.slots, a.name ∉ slot) → childParts tags other a ≠ none)
    (hother : ∀ a a', (role.child a.name).Same a a' → (other a).toOption = (other a').toOption) :
    ((readParts plain tags other e).toOption = none ∧
      (readParts plain tags other e').toOption = none) ∨
    ∃ ps ps', (readParts plain tags other e).toOption = some ps ∧
      (readParts plain tags other e').toOption = some ps' ∧ PartsAlike role tags other ps ps' := by
  have hsame := childParts_alike htags hother
  have hreadable := h.forall_elements_iff (P := fun a => childParts tags other a ≠ none) hnone
    fun a a' haa' => by rw [hsame a a' haa']
  rw [toOption_readParts, toOption_readParts]
  by_cases hread : ∀ a ∈ e.elements, childParts tags other a ≠ none
  swap
  · rw [mapM_eq_none hread, mapM_eq_none (mt hreadable.2 hread)]
    exact .inl ⟨rfl, rfl⟩
  rw [mapM_eq_some hread, mapM_eq_some (hreadable.1 hread)]
  refine .inr ⟨_, _, rfl, rfl, fun {β} view slot hslot hview => ?_⟩
  rw [filterMap_childParts, filterMap_childParts]
  refine h.flatMap_eq hslot (fun a ha => ?_) fun a a' _ haa' => by rw [hsame a a' haa']
  cases hparts : childParts tags other a with
  | none => rfl
  | some parts => exact hview a parts ha hparts

end

end Corresponding

end RegAtlas.Ipxact
