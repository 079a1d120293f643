import Mathlib.Data.List.Flatten
import Mathlib.Data.List.Perm.Subperm
import RegAtlas.Ipxact.Reader
import RegAtlas.Proofs.Component.Ownership
import RegAtlas.Proofs.Component.Relabel

/-!
# Identifiers drawn while reading

A document is read alike with identifiers and without. The identifiers that a reading draws follow
each other from where the counter stands, and every node of the result has one of its own among
them. Some belong to no node: those of references and lists that later ones replace.
-/

namespace RegAtlas.Ipxact

open Xml (Element)

/-- Draws no identifier. -/
def plain : Except DocumentError Node := .ok {}

/-! ### Computations that draw -/

section

variable {α β γ δ : Type}

/-- Wherever the counter stands, a computation with identifiers refuses with the error of the one
without, or its result and the other one are right for the identifiers that it drew in turn. -/
def Draws (x : Ingest α) (y : Except DocumentError β) (post : α → β → List Nat → Prop) : Prop :=
  ∀ next, ∃ count, (x next).2 = next + count ∧ match y with
    | .error e => (x next).1 = .error e
    | .ok b => ∃ a, (x next).1 = .ok a ∧ post a b (List.range' next count)

/-- The second value is the first one without identity, and the nodes of the first one have
different identifiers of those that were drawn. -/
def Made (bare : α → β) (ids : α → List Nat) (a : α) (b : β) (drawn : List Nat) : Prop :=
  bare a = b ∧ (ids a).Subperm drawn

theorem run_bind (x : Ingest α) (f : α → Ingest β) (next : Nat) : (x >>= f) next =
    match x next with
    | (.ok a, next') => f a next'
    | (.error e, next') => (.error e, next') := by
  change (ExceptT.bindCont f (x next).1 : StateM Nat _) (x next).2 = _
  obtain ⟨result, next'⟩ := x next
  cases result <;> rfl

namespace Draws

variable {x : Ingest α} {y : Except DocumentError β} {post : α → β → List Nat → Prop}

theorem pure {a : α} {b : β} (h : post a b []) :
    Draws (Pure.pure a : Ingest α) (Pure.pure b : Except DocumentError β) post :=
  fun _ => ⟨0, rfl, a, rfl, h⟩

/-- A requirement draws nothing. -/
theorem lift (y : Except DocumentError α) :
    Draws (liftM y : Ingest α) y fun a b drawn => a = b ∧ drawn = [] := by
  intro next
  refine ⟨0, rfl, ?_⟩
  cases y with
  | error e => rfl
  | ok a => exact ⟨a, rfl, rfl, rfl⟩

theorem error (e : DocumentError) : Draws (liftM (.error e : Except DocumentError α) : Ingest α)
    (.error e) post := fun _ => ⟨0, rfl, rfl⟩

theorem fresh : Draws drawNode plain fun node none drawn => none = {} ∧ drawn = [node.id] :=
  fun _ => ⟨1, rfl, _, rfl, rfl, rfl⟩

theorem bind {f : α → Ingest γ} {g : β → Except DocumentError δ} {post' : γ → δ → List Nat → Prop}
    (hx : Draws x y post) (hf : ∀ a b drawn, post a b drawn →
      Draws (f a) (g b) fun c d drawn' => post' c d (drawn ++ drawn')) :
    Draws (x >>= f) (y >>= g) post' := by
  intro next
  obtain ⟨count, hnext, hresult⟩ := hx next
  rw [run_bind]
  cases y with
  | error e =>
    have hx : x next = (.error e, next + count) := Prod.ext hresult hnext
    rw [hx]
    exact ⟨count, rfl, rfl⟩
  | ok b =>
    obtain ⟨a, ha, hpost⟩ := hresult
    have hx : x next = (.ok a, next + count) := Prod.ext ha hnext
    obtain ⟨count', hnext', hresult'⟩ := hf a b _ hpost (next + count)
    rw [hx]
    refine ⟨count + count', by rw [← Nat.add_assoc]; exact hnext', ?_⟩
    change match g b with | .error e => _ | .ok d => _
    cases hg : g b with
    | error e =>
      rw [hg] at hresult'
      exact hresult'
    | ok d =>
      rw [hg] at hresult'
      obtain ⟨c, hc, hpost'⟩ := hresult'
      rw [List.range'_append_1] at hpost'
      exact ⟨c, hc, hpost'⟩

/-- A node is made, and what comes after sees its identity. -/
theorem bind_fresh {f : Node → Ingest γ} {g : Node → Except DocumentError δ}
    {post' : γ → δ → List Nat → Prop}
    (h : ∀ node, Draws (f node) (g {}) fun c d drawn => post' c d (node.id :: drawn)) :
    Draws (drawNode >>= f) (plain >>= g) post' := by
  refine fresh.bind fun node none drawn ⟨hnone, hdrawn⟩ => ?_
  rw [hnone, hdrawn]
  exact h node

/-- A requirement that the first value meets if and only if the second one does. -/
theorem bind_lift {z : Except DocumentError α} {f : α → Ingest γ} {g : α → Except DocumentError δ}
    {post' : γ → δ → List Nat → Prop} (h : ∀ a, Draws (f a) (g a) post') :
    Draws ((liftM z : Ingest α) >>= f) ((liftM z : Except DocumentError α) >>= g) post' := by
  refine (lift z).bind fun a b drawn ⟨ha, hdrawn⟩ => ?_
  rw [ha, hdrawn]
  exact h b

/-- The last step of a computation that makes nodes. -/
theorem bind_pure {bare : α → β} {ids : α → List Nat} {bare' : γ → δ} {ids' : γ → List Nat}
    {f : α → γ} {g : β → δ} (hx : Draws x y (Made bare ids))
    (hbare : ∀ a, bare' (f a) = g (bare a)) (hids : ∀ a, ids' (f a) = ids a) :
    Draws (x >>= fun a => Pure.pure (f a)) (y >>= fun b => Pure.pure (g b)) (Made bare' ids') := by
  refine hx.bind fun a b drawn ⟨ha, hsub⟩ => .pure ⟨by rw [hbare, ha], ?_⟩
  rw [hids, List.append_nil]
  exact hsub

variable {bare : α → β} {ids : α → List Nat}

theorem mapM {ε : Type} {f : ε → Ingest α} {g : ε → Except DocumentError β} {es : List ε}
    (h : ∀ e ∈ es, Draws (f e) (g e) (Made bare ids)) :
    Draws (es.mapM f) (es.mapM g) (Made (List.map bare) (List.flatMap ids)) := by
  induction es with
  | nil => exact .pure ⟨rfl, .refl _⟩
  | cons e es ih =>
    rw [List.forall_mem_cons] at h
    rw [List.mapM_cons, List.mapM_cons]
    refine h.1.bind fun a b drawn ⟨ha, hids⟩ => ?_
    refine (ih h.2).bind fun as bs drawn' ⟨has, hids'⟩ => .pure ⟨?_, ?_⟩
    · rw [List.map_cons, ha, has]
    · rw [List.flatMap_cons, List.append_nil]
      exact hids.append hids'

theorem optional {ε : Type} {f : ε → Ingest α} {g : ε → Except DocumentError β}
    (h : ∀ e, Draws (f e) (g e) (Made bare ids)) (o : Option ε) :
    Draws (o.mapM f) (o.mapM g) (Made (Option.map bare) fun o => o.toList.flatMap ids) := by
  cases o with
  | none => exact .pure ⟨rfl, .refl _⟩
  | some e =>
    refine (h e).bind fun a b drawn ⟨ha, hids⟩ => .pure ⟨congrArg some ha, ?_⟩
    simpa using hids

end Draws

end

/-! ### Parts -/

namespace Part

variable {α β : Type}

/-- The part without identity. -/
def bare (of : α → β) : Part α → Part β
  | reference tag r => reference tag (r.relabel unmarked)
  | number n => number n
  | node a => node (of a)

/-- The identifiers of the nodes in a part. -/
def ids (of : α → List Nat) : Part α → List Nat
  | reference _ r => [r.id]
  | number _ => []
  | node a => of a

variable (parts : List (Part α))

theorem last?_map_bare (of : α → β) (tags : List String) :
    last? (parts.map (bare of)) tags = (last? parts tags).map (Reference.relabel unmarked) := by
  have hparts : ∀ p : Part α, (p.bare of).reference? tags =
      (p.reference? tags).map (Reference.relabel unmarked) := by
    intro p
    cases p with
    | reference tag r => by_cases htag : tag ∈ tags <;> simp [bare, reference?, htag]
    | number | node => rfl
  rw [last?, List.filterMap_map, last?, ← List.getLast?_map, List.map_filterMap]
  exact congrArg _ (List.filterMap_congr fun p _ => hparts p)

theorem nodes_map_bare (of : α → β) : nodes (parts.map (bare of)) = (nodes parts).map of := by
  rw [nodes, List.filterMap_map, nodes, List.map_filterMap]
  exact List.filterMap_congr fun p _ => by cases p <;> rfl

theorem map_nodes_bare {γ : Type} {of : α → β} {name : α → γ} {name' : β → γ}
    (h : ∀ a, name' (of a) = name a) :
    (nodes (parts.map (bare of))).map name' = (nodes parts).map name := by
  rw [nodes_map_bare, List.map_map]
  exact List.map_congr_left fun a _ => h a

theorem numbers_map_bare (of : α → β) :
    (parts.map (bare of)).filterMap number? = parts.filterMap number? := by
  rw [List.filterMap_map]
  exact List.filterMap_congr fun p _ => by cases p <;> rfl

end Part

namespace ComponentPart

/-- The part without identity. -/
def bare : ComponentPart → ComponentPart
  | parameters ps => parameters (ps.map (Parameter.relabel unmarked))
  | resetTypes ts => resetTypes (ts.map (ResetType.relabel unmarked))
  | memoryMaps ms => memoryMaps (ms.map (MemoryMap.relabel unmarked))
  | extensions es => extensions (es.map (VendorExtension.relabel unmarked))
  | other => other

/-- The identifiers of the nodes in a part. -/
def ids : ComponentPart → List Nat
  | parameters ps => ps.flatMap fun p => (Item.parameter p).ids
  | resetTypes ts => ts.flatMap fun t => (Item.resetType t).ids
  | memoryMaps ms => ms.flatMap fun m => (Item.memoryMap m).ids
  | extensions es => es.flatMap fun e => (Item.extension e).ids
  | other => []

end ComponentPart

/-- What several views show of a list, when all views together show no more of an element than it
has. -/
theorem flatMap_views_subperm {π : Type} {ids : π → List Nat} {views : List (π → List Nat)}
    (h : ∀ p, (views.flatMap fun view => view p).Subperm (ids p)) (ps : List π) :
    (views.flatMap fun view => ps.flatMap view).Subperm (ps.flatMap ids) := by
  induction ps with
  | nil => simp
  | cons p ps ih =>
    simp only [List.flatMap_cons]
    exact (List.flatMap_append_perm views _ _).symm.subperm.trans ((h p).append ih)

/-- A part that only one slot can hold. -/
theorem flatMap_slots_sublist {slots : List (List String)} (h : slots.flatten.Nodup)
    (tag : String) (id : Nat) :
    (slots.flatMap fun tags => if tag ∈ tags then [id] else []).Sublist [id] := by
  induction slots with
  | nil => exact List.nil_sublist _
  | cons tags slots ih =>
    rw [List.flatten_cons, List.nodup_append'] at h
    obtain ⟨-, hslots, hdisjoint⟩ := h
    rw [List.flatMap_cons]
    by_cases htag : tag ∈ tags
    · have hnone : (slots.flatMap fun tags => if tag ∈ tags then [id] else []) = [] :=
        List.flatMap_eq_nil_iff.2 fun tags' htags' =>
          if_neg fun htag' => hdisjoint htag (List.mem_flatten_of_mem htags' htag')
      rw [if_pos htag, hnone, List.append_nil]
    · rw [if_neg htag]
      exact ih hslots

theorem getLast?_sublist {α : Type} (as : List α) : as.getLast?.toList.Sublist as := by
  cases h : as.getLast? with
  | none => exact List.nil_sublist as
  | some a => exact List.singleton_sublist.2 (List.mem_of_getLast? h)

/-- The identifiers of references in different slots and of the nodes are among those of the
parts. -/
theorem slots_subperm {α : Type} (ids : α → List Nat) (slots : List (List String))
    (h : slots.flatten.Nodup) (parts : List (Part α)) :
    (((slots.map (Part.last? parts)).flatMap fun r => r.toList.map (·.id)) ++
      (Part.nodes parts).flatMap ids).Subperm (parts.flatMap (Part.ids ids)) := by
  let slotView (tags : List String) (p : Part α) : List Nat :=
    (p.reference? tags).toList.map (·.id)
  let nodeView (p : Part α) : List Nat := p.node?.toList.flatMap ids
  have hviews : ∀ p : Part α,
      ((slots.map slotView ++ [nodeView]).flatMap fun view => view p).Subperm (p.ids ids) := by
    intro p
    rw [List.flatMap_append, List.flatMap_map, List.flatMap_singleton]
    cases p with
    | reference tag r =>
      have hslot : ∀ tags, slotView tags (.reference tag r) =
          if tag ∈ tags then [r.id] else [] := by
        intro tags
        by_cases htag : tag ∈ tags <;> simp [slotView, Part.reference?, htag]
      simp only [hslot]
      exact (List.append_nil _).symm ▸ (flatMap_slots_sublist h tag r.id).subperm
    | number n =>
      have hslots : slots.flatMap (fun tags => slotView tags (.number n : Part α)) = [] :=
        List.flatMap_eq_nil_iff.2 fun _ _ => rfl
      rw [hslots]
      exact .refl _
    | node a =>
      have hslots : slots.flatMap (fun tags => slotView tags (.node a)) = [] :=
        List.flatMap_eq_nil_iff.2 fun _ _ => rfl
      have hnode : nodeView (.node a) = ids a := List.flatMap_singleton ids a
      rw [hslots, List.nil_append, hnode]
      exact .refl _
  refine List.Subperm.trans ?_ (flatMap_views_subperm hviews parts)
  rw [List.flatMap_append, List.flatMap_map, List.flatMap_map, List.flatMap_singleton]
  refine (List.Sublist.append (.flatMap_right _ fun tags _ => ?_) ?_).subperm
  · have hview : parts.flatMap (slotView tags) =
        (parts.filterMap (Part.reference? tags)).map (·.id) := by
      rw [List.filterMap_eq_flatMap_toList, List.map_flatMap]
    rw [hview]
    exact (getLast?_sublist _).map _
  · rw [Part.nodes, List.filterMap_eq_flatMap_toList, List.flatMap_assoc]

end RegAtlas.Ipxact
