import Mathlib.Data.List.Forall2
import RegAtlas.Outline
import RegAtlas.Proofs.Component.Traversal
import RegAtlas.Proofs.Text.Cut

/-!
# Lines of an outline

An outline has one line for each node that is no reference and no value, in the order of the nodes.
The depth of a line is the length of the path to its node.
-/

namespace RegAtlas

namespace Item

/-- References and values have no lines. They are shown with the nodes that own them. -/
def isShown (i : Item) : Bool := i.kind ≠ .reference ∧ i.kind ≠ .value

theorem isSome_outlineText? (i : Item) : i.outlineText?.isSome = i.isShown := by
  cases i <;> rfl

/-! ### The lines of a node and of those below it -/

/-- One line for each shown node, as far below a depth as the path to the node is long. -/
def outlineFrom (depth : Nat) (i : Item) : List OutlineLine :=
  i.paths.filterMap fun path =>
    ((i.nodeAt? path).bind outlineText?).map (OutlineLine.mk (depth + path.length))

/-- The line of a node stands before those of the nodes that it owns. -/
theorem outlineFrom_eq (depth : Nat) (i : Item) : i.outlineFrom depth =
    (i.outlineText?.map (OutlineLine.mk depth)).toList ++
      i.children.flatMap (outlineFrom (depth + 1)) := by
  have hchild : ∀ x ∈ i.children.zipIdx, ((x.1.paths.map (x.2 :: ·)).filterMap fun path =>
      ((i.nodeAt? path).bind outlineText?).map (OutlineLine.mk (depth + path.length))) =
        x.1.outlineFrom (depth + 1) := by
    intro x hx
    have hget : i.children[x.2]? = some x.1 := List.mem_zipIdx_iff_getElem?.1 hx
    rw [List.filterMap_map, outlineFrom]
    refine List.filterMap_congr fun path _ => ?_
    rw [Function.comp_apply, nodeAt?, hget, Option.bind_some, List.length_cons, Nat.add_right_comm,
      Nat.add_assoc]
  rw [outlineFrom, paths_eq, ← List.singleton_append, List.filterMap_append, List.filterMap_flatMap,
    List.flatMap_congr hchild, flatMap_zipIdx_fst]
  cases hi : i.outlineText? <;> simp [nodeAt?, hi]

/-- The lines are read from the nodes, each with the number of its owners. -/
theorem filterMap_subtreeIn_line? (depth : Nat) (i : Item) :
    (i.subtreeIn (fun depth _ => depth + 1) depth).filterMap Outline.line? =
      i.outlineFrom depth := by
  induction i using induction generalizing depth with
  | step i ih =>
    rw [outlineFrom_eq, subtreeIn_eq, List.filterMap_cons, List.filterMap_flatMap,
      List.flatMap_congr fun j hj => ih j hj (depth + 1), Outline.line?]
    cases i.outlineText? <;> rfl

theorem outlineFrom_component (c : Component) :
    (component c).outlineFrom 0 = Outline.component c := by
  rw [Outline.component, Component.itemsIn_eq, filterMap_subtreeIn_line?]

end Item

/-! ### Shown nodes -/

/-- The paths to the nodes that have lines, in the order of the nodes. -/
def Component.shownPaths (c : Component) : List (List Nat) :=
  (Item.component c).paths.filter fun path => ((Item.component c).nodeAt? path).any Item.isShown

theorem Component.map_nodeAt?_shownPaths (c : Component) :
    c.shownPaths.map (Item.component c).nodeAt? = (c.items.filter Item.isShown).map some := by
  have hnodes : (Item.component c).paths.map (Item.component c).nodeAt? = c.items.map some :=
    (Item.component c).map_nodeAt?_paths
  calc c.shownPaths.map (Item.component c).nodeAt?
      = ((Item.component c).paths.map (Item.component c).nodeAt?).filter
          (Option.any Item.isShown) := by rw [List.filter_map]; rfl
    _ = (c.items.filter Item.isShown).map some := by rw [hnodes, List.filter_map]; rfl

theorem forall₂_filter_filterMap {α β : Type} {f : α → Option β} {p : α → Bool}
    (h : ∀ a, (f a).isSome = p a) (as : List α) :
    List.Forall₂ (fun a b => f a = some b) (as.filter p) (as.filterMap f) := by
  induction as with
  | nil => exact .nil
  | cons a as ih =>
    cases hf : f a with
    | none =>
      rw [List.filter_cons_of_neg (by simp [← h, hf]), List.filterMap_cons_none hf]
      exact ih
    | some b =>
      rw [List.filter_cons_of_pos (by simp [← h, hf]), List.filterMap_cons_some hf]
      exact .cons hf ih

/-- The lines stand for the shown nodes. -/
theorem Component.forall₂_outline (c : Component) :
    List.Forall₂ (fun path line => ∃ i text, (Item.component c).nodeAt? path = some i ∧
      i.outlineText? = some text ∧ line = ⟨path.length, text⟩)
      c.shownPaths (Outline.component c) := by
  rw [← Item.outlineFrom_component]
  refine (forall₂_filter_filterMap (fun path => ?_) _).imp fun path line h => ?_
  · cases (Item.component c).nodeAt? path with
    | none => rfl
    | some i => simpa using i.isSome_outlineText?
  · obtain ⟨text, htext, rfl⟩ := Option.map_eq_some_iff.1 h
    obtain ⟨i, hi, htext⟩ := Option.bind_eq_some_iff.1 htext
    exact ⟨i, text, hi, htext, by rw [Nat.zero_add]⟩

end RegAtlas
