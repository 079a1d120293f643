import RegAtlas.Proofs.WordGroup.Windows

/-!
# Places in the order of offsets

Sorting and grouping look at offsets only: two lists with the same offsets give their elements in
the same order of places, and in the same groups.
-/

namespace RegAtlas.WordGroup

variable {α β : Type}

/-- Two sequences hold the elements of two lists in one order of places, each place once. -/
def SamePlaces (as : List α) (bs : List β) (xs : List α) (ys : List β) : Prop :=
  ∃ places : List Nat, places.Perm (List.range as.length) ∧
    xs.map some = places.map (as[·]?) ∧ ys.map some = places.map (bs[·]?)

/-- Two sequences of groups hold the elements of two lists in one order of places, each place in one
group. -/
def SameGroups (as : List α) (bs : List β) (xss : List (List α)) (yss : List (List β)) : Prop :=
  ∃ places : List (List Nat), places.flatten.Perm (List.range as.length) ∧
    xss.map (List.map some) = places.map (List.map (as[·]?)) ∧
    yss.map (List.map some) = places.map (List.map (bs[·]?))

/-! ### A change of the items -/

theorem sortByOffset_map (f : α → β) (items : List (Nat × α)) :
    sortByOffset (items.map (Prod.map id f)) = (sortByOffset items).map (Prod.map id f) := by
  unfold sortByOffset
  exact (List.map_mergeSort (f := Prod.map id f) fun _ _ _ _ => rfl).symm

theorem cutFrom_map (f : α → β) (wordBytes low : Nat) (group : List α) (items : List (Nat × α)) :
    cutFrom wordBytes low (group.map f) (items.map (Prod.map id f)) =
      (cutFrom wordBytes low group items).map (List.map f) := by
  induction items generalizing low group with
  | nil => cases group <;> simp [cutFrom]
  | cons item items ih =>
    simp only [List.map_cons, cutFrom, Prod.map_fst, Prod.map_snd, id_eq, List.isEmpty_map]
    split
    · have hopened := ih (windowStart item.1) [item.2]
      rw [List.map_singleton] at hopened
      rw [hopened]
      split <;> simp
    · exact ih low (item.2 :: group)

theorem group_map (f : α → β) (wordBytes : Nat) (items : List (Nat × α)) :
    group wordBytes (items.map (Prod.map id f)) = (group wordBytes items).map (List.map f) := by
  rw [group, sortByOffset_map]
  exact cutFrom_map f _ _ [] _

theorem flatten_cutFrom (wordBytes low : Nat) (group : List α) (items : List (Nat × α)) :
    (cutFrom wordBytes low group items).flatten = group.reverse ++ items.map Prod.snd := by
  induction items generalizing low group with
  | nil => cases group <;> simp [cutFrom]
  | cons item items ih =>
    rw [cutFrom]
    split
    · cases group <;> simp [ih]
    · simp [ih]

/-! ### The places behind the items -/

theorem map_some_zip {offsets : List Nat} {as : List α} (h : offsets.length = as.length) :
    (offsets.zip as).map (Prod.map id some) = offsets.zipIdx.map (Prod.map id (as[·]?)) := by
  have has : as.map some = (List.range as.length).map (as[·]?) :=
    List.ext_getElem (by simp) (by simp)
  rw [List.zipIdx_eq_zip_range', ← List.range_eq_range', ← List.zip_map_right, h, has,
    List.zip_map_right]

theorem map_some_sortByOffset {offsets : List Nat} {as : List α} (h : offsets.length = as.length) :
    ((sortByOffset (offsets.zip as)).map Prod.snd).map some =
      ((sortByOffset offsets.zipIdx).map Prod.snd).map (as[·]?) := by
  have hmap := congrArg (List.map Prod.snd) (congrArg sortByOffset (map_some_zip h))
  rw [sortByOffset_map, sortByOffset_map] at hmap
  simpa [Function.comp_def] using hmap

theorem map_some_group {offsets : List Nat} {as : List α} (h : offsets.length = as.length)
    (wordBytes : Nat) : (group wordBytes (offsets.zip as)).map (List.map some) =
      (group wordBytes offsets.zipIdx).map (List.map (as[·]?)) := by
  rw [← group_map, map_some_zip h, group_map]

theorem perm_range (offsets : List Nat) :
    ((sortByOffset offsets.zipIdx).map Prod.snd).Perm (List.range offsets.length) := by
  have hperm : (sortByOffset offsets.zipIdx).Perm offsets.zipIdx := List.mergeSort_perm _ _
  rw [List.range_eq_range', ← List.zipIdx_map_snd 0 offsets]
  exact hperm.map _

theorem samePlaces_sortByOffset {offsets : List Nat} {as : List α} {bs : List β}
    (has : offsets.length = as.length) (hbs : offsets.length = bs.length) :
    SamePlaces as bs ((sortByOffset (offsets.zip as)).map Prod.snd)
      ((sortByOffset (offsets.zip bs)).map Prod.snd) :=
  ⟨(sortByOffset offsets.zipIdx).map Prod.snd, has ▸ perm_range offsets,
    map_some_sortByOffset has, map_some_sortByOffset hbs⟩

theorem sameGroups_group {offsets : List Nat} {as : List α} {bs : List β}
    (has : offsets.length = as.length) (hbs : offsets.length = bs.length) (wordBytes : Nat) :
    SameGroups as bs (group wordBytes (offsets.zip as)) (group wordBytes (offsets.zip bs)) := by
  refine ⟨group wordBytes offsets.zipIdx, ?_, map_some_group has wordBytes,
    map_some_group hbs wordBytes⟩
  rw [group, flatten_cutFrom, ← has]
  exact perm_range offsets

end RegAtlas.WordGroup
