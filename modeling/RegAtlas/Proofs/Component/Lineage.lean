import Mathlib.Data.List.Chain
import RegAtlas.Proofs.Component.Linking

/-!
# Lineage

In a linked component without repeated identifiers, the identifiers tell the nodes apart, and
following parents leads from every node to the root.
-/

namespace RegAtlas.Component

/-- The identifiers tell the nodes apart: each identifier of the list stands at the end of one path
from the root, and the identifier at the end of each path is in the list, once. -/
structure Identified (c : Component) : Prop where
  distinct : c.ids.Nodup
  listed : ∀ path i, (Item.component c).nodeAt? path = some i → i.node.id ∈ c.ids
  placed : ∀ id ∈ c.ids, ∃! path, ∃ i, (Item.component c).nodeAt? path = some i ∧ i.node.id = id

theorem Identified.of_nodup {c : Component} (h : c.ids.Nodup) : c.Identified where
  distinct := h
  listed _ _ hpath := Item.mem_ids_of_nodeAt? hpath
  placed id hid := by
    obtain ⟨i, hi, rfl⟩ := List.mem_map.1 hid
    obtain ⟨path, hpath⟩ := Item.mem_subtree_iff.1 (show i ∈ (Item.component c).subtree from hi)
    refine ⟨path, ⟨i, hpath, rfl⟩, ?_⟩
    rintro path' ⟨j, hpath', hj⟩
    have hids : (Item.component c).ids.Nodup := h
    exact Item.path_unique hids hpath' hpath hj

/-- The parent of the node with an identifier. -/
def parentOf? (c : Component) (id : Nat) : Option Nat :=
  (c.items.find? (·.node.id == id)).bind (·.node.parent)

theorem parentOf?_eq {c : Component} (h : c.ids.Nodup) {i : Item} (hi : i ∈ c.items) :
    c.parentOf? i.node.id = i.node.parent := by
  have hfind : c.items.find? (·.node.id == i.node.id) = some i := by
    cases hfind : c.items.find? (·.node.id == i.node.id) with
    | none => exact absurd (List.find?_eq_none.1 hfind i hi) (by simp)
    | some j =>
      have hid : j.node.id = i.node.id := by simpa using List.find?_some hfind
      rw [List.inj_on_of_nodup_map h (List.mem_of_find?_eq_some hfind) hi hid]
  rw [parentOf?, hfind, Option.bind_some]

/-- Following parents leads along the line, from the node with the identifier to the root, and meets
no node twice. -/
structure Lineage (c : Component) (id : Nat) (line : List Nat) : Prop where
  starts : line.head? = some id
  follows : line.IsChain fun child parent => c.parentOf? child = some parent
  ends : line.getLast? = some c.id
  distinct : line.Nodup

/-- The line of a node is made of the identifiers at the ends of the path's beginnings. -/
theorem exists_lineage_path {c : Component} (hnodup : c.ids.Nodup) (hlinked : c.Linked)
    {path : List Nat} {i : Item} (hpath : (Item.component c).nodeAt? path = some i) :
    ∃ line, c.Lineage i.node.id line ∧ ∀ id ∈ line, ∃ start j, start <+: path ∧
      (Item.component c).nodeAt? start = some j ∧ j.node.id = id := by
  induction path using List.reverseRecOn generalizing i with
  | nil =>
    obtain rfl := Option.some.inj hpath
    refine ⟨[c.id], ⟨rfl, .singleton _, rfl, List.nodup_singleton _⟩, ?_⟩
    rintro id hid
    rw [List.mem_singleton] at hid
    exact ⟨[], _, List.prefix_rfl, rfl, hid.symm⟩
  | append_singleton path k ih =>
    rw [Item.nodeAt?_append] at hpath
    obtain ⟨owner, howner, hlast⟩ := Option.bind_eq_some_iff.1 hpath
    obtain ⟨child, hk, hchild⟩ := Option.bind_eq_some_iff.1 hlast
    obtain rfl := Option.some.inj hchild
    obtain ⟨line, hline, hplaces⟩ := ih howner
    have hchild : (Item.component c).nodeAt? (path ++ [k]) = some child := by
      rw [Item.nodeAt?_append, howner]
      exact hlast
    have hparent : c.parentOf? child.node.id = some owner.node.id := by
      rw [parentOf?_eq hnodup (Item.mem_subtree_iff.2 ⟨_, hchild⟩)]
      exact hlinked.owned owner (Item.mem_subtree_iff.2 ⟨_, howner⟩) child
        (List.mem_of_getElem? hk)
    refine ⟨child.node.id :: line, ⟨rfl, ?_, ?_, ?_⟩, ?_⟩
    · refine List.isChain_cons.2 ⟨fun parent hhead => ?_, hline.follows⟩
      rw [hparent, ← hline.starts, hhead]
    · rw [List.getLast?_cons, hline.ends, Option.getD_some]
    · refine List.nodup_cons.2 ⟨fun hmem => ?_, hline.distinct⟩
      -- An ancestor with this identifier would stand at the end of the whole path.
      obtain ⟨start, j, hstart, hj, hid⟩ := hplaces _ hmem
      have hids : (Item.component c).ids.Nodup := hnodup
      have heq := Item.path_unique hids hj hchild hid
      have hle := hstart.length_le
      rw [heq, List.length_append, List.length_singleton] at hle
      omega
    · intro id hid
      rcases List.mem_cons.1 hid with rfl | hid
      · exact ⟨_, child, List.prefix_rfl, hchild, rfl⟩
      · obtain ⟨start, j, hstart, hj⟩ := hplaces id hid
        exact ⟨start, j, hstart.trans (List.prefix_append _ _), hj⟩

theorem Linked.exists_lineage {c : Component} (hlinked : c.Linked) (hnodup : c.ids.Nodup) {i : Item}
    (hi : i ∈ c.items) : ∃ line, c.Lineage i.node.id line := by
  have hmem : i ∈ (Item.component c).subtree := hi
  obtain ⟨path, hpath⟩ := Item.mem_subtree_iff.1 hmem
  obtain ⟨line, hline, -⟩ := exists_lineage_path hnodup hlinked hpath
  exact ⟨line, hline⟩

theorem Linked.parentOf?_root {c : Component} (hlinked : c.Linked) (hnodup : c.ids.Nodup) :
    c.parentOf? c.id = none := by
  have hroot : Item.component c ∈ c.items := List.mem_cons_self
  exact (parentOf?_eq hnodup hroot).trans hlinked.root

end RegAtlas.Component
