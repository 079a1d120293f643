import Mathlib.Data.List.Permutation
import RegAtlas.WordGroup

/-!
# Items in order of offset

The order in which items are cut into groups is the stable sort by offset, and there is only one.
-/

namespace RegAtlas.WordGroup

variable {α : Type}

/-- `sorted` holds the items in ascending order; equal offsets are in the order of `items`. -/
structure IsStableSort (offset : α → Nat) (items sorted : List α) : Prop where
  perm : sorted.Perm items
  ascending : sorted.Pairwise fun a b => offset a ≤ offset b
  stable : ∀ n, sorted.filter (offset · = n) = items.filter (offset · = n)

/-- The items with the offsets that a function gives. -/
def keyedBy (offset : α → Nat) (items : List α) : List (Nat × α) :=
  items.map fun a => (offset a, a)

@[simp] theorem map_snd_keyedBy (offset : α → Nat) (items : List α) :
    (keyedBy offset items).map Prod.snd = items := by
  simp [keyedBy, Function.comp_def]

/-- The items in ascending order of offset. -/
def inOrder (offset : α → Nat) (items : List α) : List α :=
  items.mergeSort fun a b => offset a ≤ offset b

theorem sortByOffset_keyedBy (offset : α → Nat) (items : List α) :
    sortByOffset (keyedBy offset items) = keyedBy offset (inOrder offset items) := by
  unfold sortByOffset keyedBy inOrder
  exact (List.map_mergeSort (f := fun a => (offset a, a)) fun _ _ _ _ => rfl).symm

theorem inOrder_perm (offset : α → Nat) (items : List α) :
    (inOrder offset items).Perm items := List.mergeSort_perm _ _

@[simp] theorem mem_inOrder {offset : α → Nat} {items : List α} {a : α} :
    a ∈ inOrder offset items ↔ a ∈ items := (inOrder_perm offset items).mem_iff

theorem le_trans_offset (offset : α → Nat) (a b c : α) (hab : decide (offset a ≤ offset b))
    (hbc : decide (offset b ≤ offset c)) : decide (offset a ≤ offset c) := by
  simp only [decide_eq_true_eq] at *
  omega

theorem le_total_offset (offset : α → Nat) (a b : α) :
    (decide (offset a ≤ offset b) || decide (offset b ≤ offset a)) = true := by
  simp only [Bool.or_eq_true, decide_eq_true_eq]
  omega

theorem pairwise_inOrder (offset : α → Nat) (items : List α) :
    (inOrder offset items).Pairwise fun a b => offset a ≤ offset b := by
  have h := List.pairwise_mergeSort (le_trans_offset offset) (le_total_offset offset) items
  exact h.imp fun hab => by simpa using hab

/-- The items of one offset are a sorted part of the input, so they stay in their order. -/
theorem filter_inOrder (offset : α → Nat) (items : List α) (n : Nat) :
    (inOrder offset items).filter (offset · = n) = items.filter (offset · = n) := by
  have hsub : items.filter (offset · = n) |>.Sublist (inOrder offset items) := by
    refine List.sublist_mergeSort (le_trans_offset offset) (le_total_offset offset) ?_
      List.filter_sublist
    refine List.pairwise_of_forall_mem_list fun a ha b hb => ?_
    simp only [List.mem_filter, decide_eq_true_eq] at ha hb ⊢
    omega
  have hfilter := hsub.filter (offset · = n)
  rw [List.filter_filter] at hfilter
  simp only [Bool.and_self] at hfilter
  exact (hfilter.eq_of_length ((inOrder_perm offset items).filter _).length_eq.symm).symm

theorem isStableSort_inOrder (offset : α → Nat) (items : List α) :
    IsStableSort offset items (inOrder offset items) where
  perm := inOrder_perm offset items
  ascending := pairwise_inOrder offset items
  stable := filter_inOrder offset items

/-- Two ascending lists with the same items of every offset are equal. The first item of either is
one of least offset in both, so both begin with the first item of that offset. -/
theorem eq_of_filter_eq {offset : α → Nat} {s t : List α}
    (hs : s.Pairwise fun a b => offset a ≤ offset b)
    (ht : t.Pairwise fun a b => offset a ≤ offset b)
    (h : ∀ n, s.filter (offset · = n) = t.filter (offset · = n)) : s = t := by
  have hmem : ∀ a, a ∈ s ↔ a ∈ t := fun a => by
    have := congrArg (a ∈ ·) (h (offset a))
    simpa using this
  induction s generalizing t with
  | nil =>
    cases t with
    | nil => rfl
    | cons b t => simpa using hmem b
  | cons a s ih =>
    cases t with
    | nil => simpa using hmem a
    | cons b t =>
      rw [List.pairwise_cons] at hs ht
      have hab : offset a = offset b := by
        have ha : a ∈ b :: t := (hmem a).1 (by simp)
        have hb : b ∈ a :: s := (hmem b).2 (by simp)
        rw [List.mem_cons] at ha hb
        have hle : offset b ≤ offset a := ha.elim (fun e => e ▸ Nat.le_refl _) (ht.1 a)
        have hge : offset a ≤ offset b := hb.elim (fun e => e ▸ Nat.le_refl _) (hs.1 b)
        omega
      have heq : a = b := by
        have := h (offset b)
        simp only [List.filter_cons, hab, decide_true, if_true] at this
        exact (List.cons.inj this).1
      subst heq
      have hrest : ∀ n, s.filter (offset · = n) = t.filter (offset · = n) := fun n => by
        have := h n
        by_cases hn : offset a = n <;> simpa [List.filter_cons, hn] using this
      refine congrArg _ (ih hs.2 ht.2 hrest fun c => ?_)
      have := congrArg (c ∈ ·) (hrest (offset c))
      simpa using this

theorem IsStableSort.eq_inOrder {offset : α → Nat} {items sorted : List α}
    (h : IsStableSort offset items sorted) : sorted = inOrder offset items :=
  eq_of_filter_eq h.ascending (pairwise_inOrder offset items) fun n =>
    (h.stable n).trans (filter_inOrder offset items n).symm

theorem inOrder_of_pairwise {offset : α → Nat} {items : List α}
    (h : items.Pairwise fun a b => offset a ≤ offset b) : inOrder offset items = items :=
  (IsStableSort.eq_inOrder ⟨.refl _, h, fun _ => rfl⟩).symm

end RegAtlas.WordGroup
