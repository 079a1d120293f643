import Mathlib.Data.List.Forall2
import Mathlib.Logic.Relation
import RegAtlas.Proofs.Ipxact.Reading
import RegAtlas.Proofs.Text.Cut

/-!
# Vendor extensions

The vendor extensions of a component mirror the elements that they are built from: they have the
tags, all attributes and the child elements in order, at every depth. Of the texts in an element,
which comments, CDATA sections and child elements keep apart, only the first one is kept. It is the
whole text of the element if and only if nothing but white space comes behind it.
-/

namespace RegAtlas

/-! ### Elements and their texts -/

namespace Xml.Element

/-- The texts in an element, as comments, CDATA sections and child elements keep them apart. -/
def texts (e : Element) : List String := e.children.filterMap Node.text?

/-- The first of the texts, without white space at its ends. -/
def firstText? (e : Element) : Option String := e.texts.head?.map Text.trim

/-- All of the texts together, absent if there is none. -/
def wholeText? (e : Element) : Option String := if e.texts = [] then none else some e.content

/-- Behind the first text, the element has nothing but white space. -/
def TextInFront (e : Element) : Prop := ∀ s ∈ e.texts.tail, ∀ c ∈ s.toList, Text.isBlank c

/-- No text is lost if and only if there is none behind the first one. -/
theorem firstText?_eq_wholeText?_iff (e : Element) :
    e.firstText? = e.wholeText? ↔ e.TextInFront := by
  have hcontent : e.content = Text.trim (String.join e.texts) := rfl
  rw [firstText?, wholeText?, TextInFront, hcontent]
  cases e.texts with
  | nil => simp
  | cons s rest =>
    rw [if_neg (List.cons_ne_nil s rest), List.head?_cons, Option.map_some, Option.some.injEq,
      String.join_cons, Text.trim, Text.trim, String.ofList_inj, String.toList_append, eq_comm,
      Text.trimChars_append_eq_iff, String.toList_join, List.forall_mem_flatMap, List.tail_cons]

/-- The element itself, or an element below it at any depth. -/
def Within : Element → Element → Prop := Relation.ReflTransGen fun child e => child ∈ e.elements

theorem within_iff {d e : Element} : d.Within e ↔ d = e ∨ ∃ child ∈ e.elements, d.Within child := by
  rw [Within, Relation.ReflTransGen.cases_tail_iff, eq_comm]
  simp only [and_comm]

theorem sizeOf_lt_of_mem {child e : Element} (h : child ∈ e.elements) :
    sizeOf child < sizeOf e := by
  obtain ⟨node, hnode, hchild⟩ := List.mem_filterMap.1 h
  have hlt := List.sizeOf_lt_of_mem hnode
  cases node <;> cases hchild
  cases e
  simp only [mk.sizeOf_spec, Node.element.sizeOf_spec] at hlt ⊢
  omega

/-- Induction over the child elements. -/
theorem induction {p : Element → Prop} (h : ∀ e : Element, (∀ child ∈ e.elements, p child) → p e)
    (e : Element) : p e :=
  h e fun child _ => induction h child
termination_by sizeOf e
decreasing_by exact sizeOf_lt_of_mem ‹_›

end Xml.Element

namespace Ipxact

open Xml (Element)

/-! ### Extensions that mirror elements -/

/-- The extension has the tag, the attributes and in order the child elements of the element, and
the text that is taken from it. -/
inductive Mirrors (textOf : Element → Option String) : Element → VendorExtension → Prop
  | intro {e : Element} {x : VendorExtension} (tag : x.tag = e.name)
      (attributes : x.attributes = e.attributes) (text : x.text = textOf e)
      (children : List.Forall₂ (Mirrors textOf) e.elements x.children) : Mirrors textOf e x

variable {textOf textOf' : Element → Option String} {e : Element} {x : VendorExtension}

theorem mirrors_iff : Mirrors textOf e x ↔ x.tag = e.name ∧ x.attributes = e.attributes ∧
    x.text = textOf e ∧ List.Forall₂ (Mirrors textOf) e.elements x.children := by
  constructor
  · rintro ⟨tag, attributes, text, children⟩
    exact ⟨tag, attributes, text, children⟩
  · rintro ⟨tag, attributes, text, children⟩
    exact ⟨tag, attributes, text, children⟩

theorem map_text_of_mirrors {es : List Element} {xs : List VendorExtension}
    (h : List.Forall₂ (Mirrors textOf) es xs) : es.map textOf = xs.map (·.text) := by
  induction h with
  | nil => rfl
  | cons hx _ ih => rw [List.map_cons, List.map_cons, ih, (mirrors_iff.1 hx).2.2.1]

/-- A second relation between two lists asks for a property of the first list. -/
theorem forall₂_iff_forall_mem {α β : Type} {R R' : α → β → Prop} {p : α → Prop} {as : List α}
    {bs : List β} (h : List.Forall₂ R as bs) (hiff : ∀ a ∈ as, ∀ b, R a b → (R' a b ↔ p a)) :
    List.Forall₂ R' as bs ↔ ∀ a ∈ as, p a := by
  induction h with
  | nil => simp
  | cons hab _ ih =>
    rw [List.forall_mem_cons] at hiff
    rw [List.forall₂_cons, List.forall_mem_cons, hiff.1 _ hab, ih hiff.2]

theorem forall₂_getLast? {α β : Type} {R : α → β → Prop} {as : List α} {bs : List β}
    (h : List.Forall₂ R as bs) : Option.Rel R as.getLast? bs.getLast? := by
  have hreverse := List.rel_reverse h
  rw [List.getLast?_eq_head?_reverse, List.getLast?_eq_head?_reverse]
  generalize as.reverse = as', bs.reverse = bs' at hreverse ⊢
  cases hreverse with
  | nil => exact .none
  | cons h _ => exact .some h

theorem extension?_element (e : Element) : extension? plain e.toNode =
    (extensions plain e.children).map fun below => some {
      tag := e.name
      text := (e.children.findSome? Xml.Node.text?).map Text.trim
      attributes := e.attributes
      children := below } := by
  rw [Element.toNode, extension?]
  cases extensions plain e.children <;> rfl

theorem forall₂_extensions (nodes : List Xml.Node) : Ensures (extensions plain nodes) fun xs =>
    List.Forall₂ (fun e x => extension? plain e.toNode = .ok (some x))
      (nodes.filterMap Xml.Node.element?) xs := by
  induction nodes with
  | nil =>
    rw [extensions]
    exact .pure .nil
  | cons node nodes ih =>
    rw [extensions]
    refine (Ensures.self _).bind fun first hfirst => ih.bind fun rest hrest => .pure ?_
    cases node with
    | element name attributes children =>
      have helement := extension?_element ⟨name, attributes, children⟩
      rw [Element.toNode, hfirst] at helement
      cases hbelow : extensions plain children with
      | error e =>
        rw [hbelow] at helement
        cases helement
      | ok below =>
        rw [hbelow] at helement
        obtain rfl := Except.ok.inj helement
        exact .cons hfirst hrest
    | text _ | cdata _ | comment _ | instruction _ _ =>
      obtain rfl := Except.ok.inj hfirst
      exact hrest

/-- An element is mirrored by its extension, with its first text. -/
theorem mirrors_extension (h : extension? plain e.toNode = .ok (some x)) :
    Mirrors Element.firstText? e x := by
  induction e using Element.induction generalizing x with
  | h e ih =>
    obtain ⟨xs, hxs⟩ := exists_gives_extensions e.children
    rw [extension?_element, hxs.ok trivial] at h
    obtain rfl := Option.some.inj (Except.ok.inj h)
    refine ⟨rfl, rfl, ?_, ?_⟩
    · rw [Element.firstText?, Element.texts, List.head?_filterMap]
    · have hchildren := forall₂_extensions e.children xs (hxs.ok trivial)
      refine (forall₂_iff_forall_mem hchildren fun child hchild y hy => ?_).2 fun _ _ => trivial
      exact iff_true_intro (ih child hchild hy)

/-- Of two ways to take texts from elements, an extension shows both if and only if they agree at
every depth. -/
theorem Mirrors.mirrors_other_iff (h : Mirrors textOf e x) :
    Mirrors textOf' e x ↔ ∀ d : Element, d.Within e → textOf d = textOf' d := by
  induction e using Element.induction generalizing x with
  | h e ih =>
    obtain ⟨tag, attributes, text, children⟩ := h
    have hchildren := forall₂_iff_forall_mem children fun child hchild y hy => ih child hchild hy
    rw [mirrors_iff, and_iff_right tag, and_iff_right attributes, text, hchildren]
    constructor
    · rintro ⟨htext, hbelow⟩ d hd
      obtain rfl | ⟨child, hchild, hd⟩ := Element.within_iff.1 hd
      · exact htext
      · exact hbelow child hchild d hd
    · intro hall
      exact ⟨hall e (Element.within_iff.2 (.inl rfl)), fun child hchild d hd =>
        hall d (Element.within_iff.2 (.inr ⟨child, hchild, hd⟩))⟩

/-! ### Readings -/

mutual

theorem mirrors_relabel (f : Node → Node) : ∀ {e : Element} (x : VendorExtension),
    Mirrors textOf e (x.relabel f) ↔ Mirrors textOf e x
  | e, ⟨node, tag, text, attributes, children⟩ => by
    rw [mirrors_iff, mirrors_iff, VendorExtension.relabel_eq, forall₂_map_relabel f children]

theorem forall₂_map_relabel (f : Node → Node) : ∀ {es : List Element} (xs : List VendorExtension),
    List.Forall₂ (Mirrors textOf) es (xs.map (VendorExtension.relabel f)) ↔
      List.Forall₂ (Mirrors textOf) es xs
  | _, [] => .rfl
  | [], _ :: _ => by simp
  | e :: es, x :: xs => by
    rw [List.map_cons, List.forall₂_cons, List.forall₂_cons, mirrors_relabel f x,
      forall₂_map_relabel f xs]

end

/-- Identifiers, links and resolved references change nothing in an extension. -/
theorem forall₂_finish {es : List Element} {c : Component} :
    List.Forall₂ (Mirrors textOf) es (finish c).component.extensions ↔
      List.Forall₂ (Mirrors textOf) es (c.relabel unmarked).extensions := by
  have hcomponent : c.link.relabel unmarked = c.relabel unmarked := c.relabel_link fun _ _ => rfl
  have hextensions : (finish c).component.extensions.map (VendorExtension.relabel unmarked) =
      (c.link.relabel unmarked).extensions := by
    rw [Component.relabel_eq]
    rfl
  rw [← forall₂_map_relabel unmarked, hextensions, hcomponent]

/-- The elements that the extensions of a component are built from. -/
def vendorElements (root : Element) : List Element :=
  ((root.last? ["vendorExtensions"]).map Element.elements).getD []

theorem componentPart_of_ne {e : Element} (h : e.name ≠ "vendorExtensions") :
    Ensures (componentPart plain e) fun part => part.extensions? = none := by
  unfold componentPart
  split_ifs
  · exact (Ensures.trivial _).map fun _ _ => rfl
  · exact (Ensures.trivial _).map fun _ _ => rfl
  · exact (Ensures.trivial _).map fun _ _ => rfl
  · exact .pure rfl

theorem componentPart_vendorExtensions {e : Element} (h : e.name = "vendorExtensions") :
    Ensures (componentPart plain e) fun part =>
      ∃ xs, extensions plain e.children = .ok xs ∧ part = .extensions xs := by
  unfold componentPart
  rw [h]
  exact (Ensures.self _).map fun xs hxs => ⟨xs, hxs, rfl⟩

/-- The lists of extensions stand for the children with their tag, in order. -/
theorem forall₂_extensionLists (es : List Element) :
    Ensures (es.mapM (componentPart plain)) fun parts =>
      List.Forall₂ (fun e xs => extensions plain e.children = .ok xs)
        (es.filter fun e => ["vendorExtensions"].contains e.name)
        (parts.filterMap ComponentPart.extensions?) := by
  induction es with
  | nil => exact .pure .nil
  | cons e es ih =>
    rw [List.mapM_cons]
    by_cases hname : e.name = "vendorExtensions"
    · refine (componentPart_vendorExtensions hname).bind fun part ⟨xs, hxs, hpart⟩ =>
        ih.bind fun parts hparts => .pure ?_
      rw [List.filter_cons_of_pos (by simp [hname]), hpart]
      exact .cons hxs hparts
    · refine (componentPart_of_ne hname).bind fun part hpart => ih.bind fun parts hparts => .pure ?_
      rw [List.filter_cons_of_neg (by simp [hname]), List.filterMap_cons_none hpart]
      exact hparts

theorem extensions_component (root : Element) : Ensures (component plain root) fun c =>
    List.Forall₂ (fun e x => extension? plain e.toNode = .ok (some x)) (vendorElements root)
      c.extensions := by
  unfold component
  split
  · rintro c ⟨⟩
  refine (Ensures.trivial _).bind fun _ _ => (Ensures.trivial _).bind fun _ _ =>
    (forall₂_extensionLists root.elements).bind fun parts hparts =>
      (Ensures.trivial _).bind fun _ _ => .pure ?_
  have hlast := forall₂_getLast? hparts
  rw [vendorElements, Element.last?]
  simp only [lastList]
  generalize (root.elements.filter _).getLast? = list?,
    (parts.filterMap ComponentPart.extensions?).getLast? = xs? at hlast ⊢
  cases hlast with
  | some h => exact forall₂_extensions _ _ h
  | none => exact .nil

/-- In a component that was read, the vendor extensions mirror their elements with the first texts.
They do so with the whole texts if and only if, at every depth, all text stands in front. -/
theorem vendor_extensions {document : String} {next : Nat} {reading : Reading}
    (h : readFrom next document = .ok reading) : ∃ root, Xml.parse? document = some root ∧
      List.Forall₂ (Mirrors Element.firstText?) (vendorElements root)
        reading.component.extensions ∧
      (List.Forall₂ (Mirrors Element.wholeText?) (vendorElements root)
        reading.component.extensions ↔
        ∀ e ∈ vendorElements root, ∀ d : Element, d.Within e → d.TextInFront) := by
  obtain ⟨root, c, hroot, hc, rfl, -⟩ := readFrom_eq_ok h
  have hfirst : List.Forall₂ (Mirrors Element.firstText?) (vendorElements root)
      (finish c).component.extensions :=
    forall₂_finish.2 ((extensions_component root _ hc).imp fun _ _ => mirrors_extension)
  refine ⟨root, hroot, hfirst, forall₂_iff_forall_mem hfirst fun e _ x hx => ?_⟩
  rw [hx.mirrors_other_iff]
  exact forall₂_congr fun d _ => d.firstText?_eq_wholeText?_iff

/-- A document with an extension whose text is split by a comment. -/
def noteDocument : String :=
  "<component><vendor/><library/><name/><version/>" ++
  "<vendorExtensions><note>a<!-- c -->b</note></vendorExtensions></component>"

theorem parse?_noteDocument : (Xml.parse? noteDocument).bind (fun root =>
    (ingestRoot root 1).1.toOption.map fun reading => ((vendorElements root).map Element.wholeText?,
      reading.component.extensions.map (·.text))) = some ([some "ab"], [some "a"]) := by
  decide +kernel

theorem read_noteDocument : ∃ root reading, Xml.parse? noteDocument = some root ∧
    read noteDocument = .ok reading ∧ (vendorElements root).map Element.wholeText? = [some "ab"] ∧
    reading.component.extensions.map (·.text) = [some "a"] := by
  obtain ⟨root, hroot, hvalue⟩ := Option.bind_eq_some_iff.1 parse?_noteDocument
  obtain ⟨reading, hreading, htexts⟩ := exists_ok_of_map_toOption hvalue
  obtain ⟨hwhole, hfirst⟩ := Prod.mk.inj htexts
  refine ⟨root, reading, hroot, ?_, hwhole, hfirst⟩
  rw [read, readFrom, ingest, hroot]
  exact hreading

theorem vendor_extensions_note : ∃ root reading, Xml.parse? noteDocument = some root ∧
    read noteDocument = .ok reading ∧
    List.Forall₂ (Mirrors Element.firstText?) (vendorElements root)
      reading.component.extensions ∧
    reading.component.extensions.map (·.text) = [some "a"] := by
  obtain ⟨-, reading, -, hread, -, htexts⟩ := read_noteDocument
  obtain ⟨root, hroot, hfirst, -⟩ := vendor_extensions hread
  exact ⟨root, reading, hroot, hread, hfirst, htexts⟩

/-- The whole text of the element is `ab`, and its extension has the text `a`. -/
theorem text_behind_comment_lost : ∃ root reading, Xml.parse? noteDocument = some root ∧
    read noteDocument = .ok reading ∧
    (vendorElements root).map Element.wholeText? = [some "ab"] ∧
    reading.component.extensions.map (·.text) = [some "a"] ∧
    ¬ List.Forall₂ (Mirrors Element.wholeText?) (vendorElements root)
      reading.component.extensions := by
  obtain ⟨root, reading, hroot, hread, hwhole, htexts⟩ := read_noteDocument
  refine ⟨root, reading, hroot, hread, hwhole, htexts, fun hmirrors => ?_⟩
  rw [← map_text_of_mirrors hmirrors, hwhole] at htexts
  exact absurd htexts (by decide)

end Ipxact

end RegAtlas
