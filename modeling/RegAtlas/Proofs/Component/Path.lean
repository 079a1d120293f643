import Mathlib.Data.List.Nodup
import RegAtlas.Proofs.Component.Ownership

/-!
# Paths in order

The paths to all nodes below a node, in the order of the nodes: the path to a node before the paths
to the nodes below it.
-/

namespace RegAtlas

theorem pairwise_index_lt {α : Type} (as : List α) : as.zipIdx.Pairwise fun x y => x.2 < y.2 := by
  have hlt : (as.zipIdx.map Prod.snd).Pairwise (· < ·) := by
    rw [List.zipIdx_map_snd]
    exact List.pairwise_lt_range'
  exact List.pairwise_map.1 hlt

theorem pairwise_index_ne {α : Type} (as : List α) : as.zipIdx.Pairwise fun x y => x.2 ≠ y.2 :=
  (pairwise_index_lt as).imp Nat.ne_of_lt

theorem flatMap_zipIdx_fst {α β : Type} (as : List α) (f : α → List β) :
    as.zipIdx.flatMap (fun x => f x.1) = as.flatMap f := by
  have hfst := congrArg (List.flatMap f) (List.zipIdx_map_fst 0 as)
  rwa [List.flatMap_map] at hfst

namespace Item

theorem length_subtree_lt {i j : Item} (h : j ∈ i.children) :
    j.subtree.length < i.subtree.length := by
  rw [subtree_eq i, List.length_cons]
  exact Nat.lt_succ_of_le (subtree_sublist h).length_le

/-- The paths to a node and to the nodes below it. -/
def paths (i : Item) : List (List Nat) :=
  [] :: i.children.zipIdx.attach.flatMap fun x => (paths x.1.1).map (x.1.2 :: ·)
termination_by i.subtree.length
decreasing_by exact length_subtree_lt (List.fst_mem_of_mem_zipIdx x.2)

theorem paths_eq (i : Item) :
    i.paths = [] :: i.children.zipIdx.flatMap fun x => x.1.paths.map (x.2 :: ·) := by
  rw [paths]
  congr 1
  calc i.children.zipIdx.attach.flatMap (fun x => x.1.1.paths.map (x.1.2 :: ·))
      = (i.children.zipIdx.attach.map Subtype.val).flatMap
          (fun x => x.1.paths.map (x.2 :: ·)) := by rw [List.flatMap_map]
    _ = i.children.zipIdx.flatMap fun x => x.1.paths.map (x.2 :: ·) := by
      rw [List.attach_map_subtype_val]

/-- The nodes at the ends of the paths are the nodes below, in order. -/
theorem map_nodeAt?_paths (i : Item) : i.paths.map i.nodeAt? = i.subtree.map some := by
  induction i using induction with
  | step i ih =>
    have hchild : ∀ x ∈ i.children.zipIdx,
        (x.1.paths.map (x.2 :: ·)).map i.nodeAt? = x.1.subtree.map some := by
      intro x hx
      have hget : i.children[x.2]? = some x.1 := List.mem_zipIdx_iff_getElem?.1 hx
      rw [← ih x.1 (List.fst_mem_of_mem_zipIdx hx), List.map_map]
      refine List.map_congr_left fun path _ => ?_
      rw [Function.comp_apply, nodeAt?, hget, Option.bind_some]
    rw [paths_eq, subtree_eq, List.map_cons, List.map_cons, nodeAt?, List.map_flatMap,
      List.flatMap_congr hchild, flatMap_zipIdx_fst i.children fun j => j.subtree.map some,
      List.map_flatMap]

theorem mem_paths_iff {i : Item} {path : List Nat} :
    path ∈ i.paths ↔ ∃ j, i.nodeAt? path = some j := by
  induction path generalizing i with
  | nil =>
    rw [paths_eq]
    exact ⟨fun _ => ⟨i, rfl⟩, fun _ => List.mem_cons_self⟩
  | cons k path ih =>
    rw [paths_eq, nodeAt?]
    simp only [List.mem_cons, reduceCtorEq, false_or, List.mem_flatMap, List.mem_map,
      List.cons.injEq, Option.bind_eq_some_iff]
    constructor
    · rintro ⟨x, hx, path', hpath', rfl, rfl⟩
      obtain ⟨j, hj⟩ := ih.1 hpath'
      exact ⟨j, x.1, List.mem_zipIdx_iff_getElem?.1 hx, hj⟩
    · rintro ⟨j, child, hk, hj⟩
      exact ⟨(child, k), List.mem_zipIdx_iff_getElem?.2 hk, path, ih.2 ⟨j, hj⟩, rfl, rfl⟩

/-- A path stands before the paths that go on from it. -/
theorem pairwise_paths (i : Item) : i.paths.Pairwise fun path path' => ¬ path' <+: path := by
  induction i using induction with
  | step i ih =>
    rw [paths_eq, List.pairwise_cons, List.pairwise_flatMap]
    refine ⟨?_, fun x hx => ?_, ?_⟩
    · simp only [List.mem_flatMap, List.mem_map, List.prefix_nil]
      rintro _ ⟨x, -, path, -, rfl⟩
      exact List.cons_ne_nil _ _
    · rw [List.pairwise_map]
      refine (ih x.1 (List.fst_mem_of_mem_zipIdx hx)).imp fun hbefore hstart => hbefore ?_
      exact (List.cons_prefix_cons.1 hstart).2
    · -- Paths to different children begin with different numbers.
      refine (pairwise_index_ne i.children).imp fun hne path hpath path' hpath' hstart => hne ?_
      obtain ⟨_, -, rfl⟩ := List.mem_map.1 hpath
      obtain ⟨_, -, rfl⟩ := List.mem_map.1 hpath'
      exact (List.cons_prefix_cons.1 hstart).1.symm

/-- Where two paths part, the one that goes on to the earlier child stands first. -/
theorem pairwise_paths_siblings (i : Item) : i.paths.Pairwise fun path path' =>
    ∀ start k k', start ++ [k] <+: path → start ++ [k'] <+: path' → k ≤ k' := by
  induction i using induction with
  | step i ih =>
    rw [paths_eq, List.pairwise_cons, List.pairwise_flatMap]
    refine ⟨fun _ _ start k k' hstart => by simp at hstart, fun x hx => ?_, ?_⟩
    · rw [List.pairwise_map]
      refine (ih x.1 (List.fst_mem_of_mem_zipIdx hx)).imp fun hbelow start k k' hk hk' => ?_
      cases start with
      | nil =>
        obtain ⟨rfl, -⟩ := List.cons_prefix_cons.1 hk
        exact Nat.le_of_eq (List.cons_prefix_cons.1 hk').1.symm
      | cons n start =>
        exact hbelow start k k' (List.cons_prefix_cons.1 hk).2 (List.cons_prefix_cons.1 hk').2
    · refine (pairwise_index_lt i.children).imp fun hlt path hpath path' hpath' => ?_
      intro start k k' hk hk'
      obtain ⟨_, -, rfl⟩ := List.mem_map.1 hpath
      obtain ⟨_, -, rfl⟩ := List.mem_map.1 hpath'
      cases start with
      | nil =>
        obtain ⟨rfl, -⟩ := List.cons_prefix_cons.1 hk
        obtain ⟨rfl, -⟩ := List.cons_prefix_cons.1 hk'
        exact Nat.le_of_lt hlt
      | cons n start =>
        have heq := (List.cons_prefix_cons.1 hk).1.symm.trans (List.cons_prefix_cons.1 hk').1
        exact absurd heq (Nat.ne_of_lt hlt)

end Item

end RegAtlas
