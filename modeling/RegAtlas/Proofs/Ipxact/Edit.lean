import Mathlib.Logic.Relation
import RegAtlas.Proofs.Ipxact.Anonymous
import RegAtlas.Proofs.Ipxact.Correspondence

/-!
# Edits without effect

An edit inserts or deletes a node that means nothing, moves children of different slots past each
other, or edits a child. It changes no value that is read, so trees that come from each other by
edits describe the same component.
-/

namespace RegAtlas.Ipxact

open Xml (Element)

/-- Nodes that mean nothing below an element: comments, instructions and elements with tags that
fill no slot, and texts unless the element is one of text. -/
def Role.Ignores : Role → Xml.Node → Prop
  | .verbatim, _ => False
  | role, .element name _ _ => ∀ slot ∈ role.slots, name ∉ slot
  | role, .text _ => role ≠ .text
  | role, .cdata _ => role ≠ .text
  | _, .comment _ => True
  | _, .instruction _ _ => True

/-- One step from an element to another one that is read in the same way. -/
inductive Edit : Role → Element → Element → Prop where
  | insert {role : Role} {name : String} {attributes : List (String × String)}
      {before after : List Xml.Node} {node : Xml.Node} (h : role.Ignores node) :
      Edit role ⟨name, attributes, before ++ after⟩ ⟨name, attributes, before ++ node :: after⟩
  | delete {role : Role} {name : String} {attributes : List (String × String)}
      {before after : List Xml.Node} {node : Xml.Node} (h : role.Ignores node) :
      Edit role ⟨name, attributes, before ++ node :: after⟩ ⟨name, attributes, before ++ after⟩
  /-- Children in different slots change places. -/
  | reorder {role : Role} {name : String} {attributes : List (String × String)}
      {children children' : List Xml.Node} (htext : role ≠ .text) (hverbatim : role ≠ .verbatim)
      (hperm : children.Perm children') (hslots : ∀ slot ∈ role.slots,
        filling ⟨name, attributes, children⟩ slot = filling ⟨name, attributes, children'⟩ slot) :
      Edit role ⟨name, attributes, children⟩ ⟨name, attributes, children'⟩
  /-- A child element is edited in its own role. -/
  | inside {role childRole : Role} {name : String} {attributes : List (String × String)}
      {before after : List Xml.Node} {child child' : Element}
      (hrole : role.child child.name = childRole) (h : Edit childRole child child') :
      Edit role ⟨name, attributes, before ++ child.toNode :: after⟩
        ⟨name, attributes, before ++ child'.toNode :: after⟩

section

variable {role : Role} {name : String} {attributes : List (String × String)}
  {before after : List Xml.Node} {node : Xml.Node} {child child' : Element}

theorem filling_append (slot : List String) : filling ⟨name, attributes, before ++ after⟩ slot =
    filling ⟨name, attributes, before⟩ slot ++ filling ⟨name, attributes, after⟩ slot := by
  simp [filling, Element.elements]

theorem filling_cons_ignored (h : role.Ignores node) {slot : List String}
    (hslot : slot ∈ role.slots) :
    filling ⟨name, attributes, node :: after⟩ slot = filling ⟨name, attributes, after⟩ slot := by
  cases node with
  | element tag _ _ =>
    have htag : tag ∉ slot := by
      cases role with
      | verbatim => exact h.elim
      | _ => exact h slot hslot
    simp [filling, Element.elements, Xml.Node.element?, htag]
  | text | cdata | comment | instruction => rfl

theorem text?_ignored (h : Role.text.Ignores node) : node.text? = none := by
  cases node with
  | text | cdata => exact absurd rfl h
  | element | comment | instruction => rfl

/-- A node that means nothing may as well be absent. -/
theorem same_insert (h : role.Ignores node) :
    role.Same ⟨name, attributes, before ++ after⟩ ⟨name, attributes, before ++ node :: after⟩ := by
  by_cases hverbatim : role = .verbatim
  · subst hverbatim
    exact h.elim
  by_cases htext : role = .text
  · subst htext
    refine ⟨rfl, rfl, ?_⟩
    have hcontent : (before ++ after).filterMap Xml.Node.text? =
        (before ++ node :: after).filterMap Xml.Node.text? := by
      rw [List.filterMap_append, List.filterMap_append, List.filterMap_cons_none (text?_ignored h)]
    exact congrArg (fun texts => Text.trim (String.join texts)) hcontent
  refine Corresponding.same ⟨rfl, fun slot hslot => ?_⟩ rfl htext hverbatim
  rw [filling_append, filling_append, filling_cons_ignored h hslot]
  exact List.forall₂_same.2 fun _ _ => .rfl

theorem filling_cons_element (slot : List String) :
    filling ⟨name, attributes, child.toNode :: after⟩ slot =
      (if child.name ∈ slot then [child] else []) ++ filling ⟨name, attributes, after⟩ slot := by
  split_ifs with hname <;>
    simp [filling, Element.elements, Element.toNode, Xml.Node.element?, hname]

theorem same_inside (h : (role.child child.name).Same child child') :
    role.Same ⟨name, attributes, before ++ child.toNode :: after⟩
      ⟨name, attributes, before ++ child'.toNode :: after⟩ := by
  by_cases hverbatim : role = .verbatim
  · subst hverbatim
    obtain rfl : child = child' := h.read
    exact .rfl
  by_cases htext : role = .text
  · subst htext
    refine ⟨rfl, rfl, ?_⟩
    have hcontent : (before ++ child.toNode :: after).filterMap Xml.Node.text? =
        (before ++ child'.toNode :: after).filterMap Xml.Node.text? := by
      rw [List.filterMap_append, List.filterMap_append]
      rfl
    exact congrArg (fun texts => Text.trim (String.join texts)) hcontent
  refine Corresponding.same ⟨rfl, fun slot hslot => ?_⟩ rfl htext hverbatim
  have hrefl : ∀ children : List Element,
      List.Forall₂ (fun a a' => (role.child a.name).Same a a') children children :=
    fun children => List.forall₂_same.2 fun _ _ => .rfl
  rw [filling_append, filling_append, filling_cons_element, filling_cons_element, ← h.name]
  refine List.rel_append (hrefl _) (List.rel_append ?_ (hrefl _))
  split_ifs
  · exact .cons h .nil
  · exact .nil

end

/-- An edit does not change what is read. -/
theorem Edit.same {role : Role} {e e' : Element} (h : Edit role e e') : role.Same e e' := by
  induction h with
  | insert h => exact same_insert h
  | delete h => exact (same_insert h).symm
  | reorder htext hverbatim _ hslots =>
    refine Corresponding.same ⟨rfl, fun slot hslot => ?_⟩ rfl htext hverbatim
    rw [hslots slot hslot]
    exact List.forall₂_same.2 fun _ _ => .rfl
  | inside hrole _ ih => exact same_inside (hrole ▸ ih)

theorem anonymous_ingestRoot {root root' : Element} (h : Role.component.Same root root')
    (next next' : Nat) : (ingestRoot root next).1.toOption.map Reading.anonymous =
      (ingestRoot root' next').1.toOption.map Reading.anonymous := by
  have hcomponent : (component plain root).toOption = (component plain root').toOption := h.read
  obtain ⟨e, hplain, he⟩ | ⟨c, count, hplain, hok, hids⟩ := ingestRoot_cases root next <;>
    obtain ⟨e', hplain', he'⟩ | ⟨c', count', hplain', hok', hids'⟩ := ingestRoot_cases root' next'
  · rw [he, he']
    rfl
  · rw [hplain, hplain'] at hcomponent
    cases hcomponent
  · rw [hplain, hplain'] at hcomponent
    cases hcomponent
  · rw [hplain, hplain'] at hcomponent
    obtain ⟨hanonymous, hwarnings⟩ := finish_alike (nodup_of_drawn hids) (nodup_of_drawn hids')
      (Option.some.inj hcomponent) (aimless_component root _ hplain)
    rw [hok, hok']
    exact congrArg some (congrArg₂ Reading.mk hanonymous hwarnings)

/-- Wherever the counter stands for each of them, trees that come from each other by edits are
accepted alike, and with the same component up to identity, before references are resolved and
afterwards. -/
theorem edits_ignored {root root' : Element}
    (h : Relation.ReflTransGen (Edit .component) root root') (next next' : Nat) :
    (component drawNode root next).1.toOption.map (Component.relabel unmarked) =
      (component drawNode root' next').1.toOption.map (Component.relabel unmarked) ∧
    (ingestRoot root next).1.toOption.map Reading.anonymous =
      (ingestRoot root' next').1.toOption.map Reading.anonymous := by
  have hsame : Role.component.Same root root' := by
    induction h with
    | refl => exact .rfl
    | tail _ hedit ih => exact ih.trans hedit.same
  have hcomponent : (component plain root).toOption = (component plain root').toOption := hsame.read
  exact ⟨by rw [relabel_component, relabel_component, hcomponent], anonymous_ingestRoot hsame _ _⟩

/-- The identity of a component. -/
def identityNodes : List Xml.Node :=
  [.element "vendor" [] [], .element "library" [] [], .element "name" [] [],
    .element "version" [] []]

/-- A component with an empty memory map behind its identity. -/
def mapRoot : Element :=
  ⟨"component", [], identityNodes ++ [.element "memoryMaps" [] [.element "memoryMap" [] []]]⟩

/-- The component with a comment in the map, and the map before the identity. -/
def editedRoot : Element :=
  ⟨"component", [],
    .element "memoryMaps" [] [.element "memoryMap" [] [.comment "none"]] :: identityNodes⟩

theorem mapRoot_edits : Relation.ReflTransGen (Edit .component) mapRoot editedRoot := by
  have hcomment : Edit .memoryMap ⟨"memoryMap", [], [] ++ []⟩
      ⟨"memoryMap", [], [] ++ .comment "none" :: []⟩ := .insert trivial
  have hmap : Edit .memoryMaps ⟨"memoryMaps", [], [] ++ .element "memoryMap" [] [] :: []⟩
      ⟨"memoryMaps", [], [] ++ .element "memoryMap" [] [.comment "none"] :: []⟩ :=
    .inside (by decide) hcomment
  have hmaps : Edit .component mapRoot ⟨"component", [], identityNodes ++
      .element "memoryMaps" [] [.element "memoryMap" [] [.comment "none"]] :: []⟩ :=
    .inside (by decide) hmap
  have hmoved : Edit .component ⟨"component", [], identityNodes ++
      .element "memoryMaps" [] [.element "memoryMap" [] [.comment "none"]] :: []⟩ editedRoot := by
    refine .reorder (by decide) (by decide) List.perm_append_comm
      (List.forall_iff_forall_mem.1 ?_)
    exact ⟨rfl, rfl, rfl, rfl, rfl, rfl, rfl, rfl, rfl, rfl, rfl, rfl⟩
  exact (Relation.ReflTransGen.single hmaps).tail hmoved

/-- The first component is accepted, and so is the edited one, with the same reading. -/
theorem edits_ignored_map : Relation.ReflTransGen (Edit .component) mapRoot editedRoot ∧
    (ingestRoot mapRoot 1).1.toOption.map (·.component.memoryMaps.length) = some 1 ∧
    (component drawNode mapRoot 1).1.toOption.map (Component.relabel unmarked) =
      (component drawNode editedRoot 3).1.toOption.map (Component.relabel unmarked) ∧
    (ingestRoot mapRoot 1).1.toOption.map Reading.anonymous =
      (ingestRoot editedRoot 3).1.toOption.map Reading.anonymous :=
  ⟨mapRoot_edits, by decide +kernel, edits_ignored mapRoot_edits 1 3⟩

end RegAtlas.Ipxact
