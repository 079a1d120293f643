/-!
# Repeated elements of a list
-/

namespace RegAtlas

/-- The first element whose key is that of an element before it or one of the keys seen. -/
def firstRepeat? {α β : Type} [BEq β] (key : α → β) (seen : List β) : List α → Option α
  | [] => none
  | a :: as => if seen.contains (key a) then some a else firstRepeat? key (key a :: seen) as

theorem firstRepeat?_map {α β γ : Type} [BEq β] (f : α → γ) (key : γ → β) (seen : List β)
    (as : List α) : firstRepeat? key seen (as.map f) =
      (firstRepeat? (fun a => key (f a)) seen as).map f := by
  induction as generalizing seen with
  | nil => rfl
  | cons a as ih =>
    rw [List.map_cons, firstRepeat?, firstRepeat?]
    split
    · rfl
    · exact ih _

theorem firstRepeat?_eq_none_iff {α β : Type} [BEq β] [LawfulBEq β] {key : α → β} {seen : List β}
    {as : List α} : firstRepeat? key seen as = none ↔
      (as.map key).Nodup ∧ ∀ a ∈ as, key a ∉ seen := by
  induction as generalizing seen with
  | nil => simp [firstRepeat?]
  | cons a as ih =>
    rw [firstRepeat?, List.map_cons, List.nodup_cons, List.forall_mem_cons]
    split
    case isTrue h => simp_all
    case isFalse h =>
      rw [ih]
      simp only [List.contains_iff_mem] at h
      simp only [List.mem_cons, not_or, List.mem_map, not_exists, not_and]
      constructor
      · rintro ⟨hnodup, hnew⟩
        exact ⟨⟨fun b hb => (hnew b hb).1, hnodup⟩, h, fun b hb => (hnew b hb).2⟩
      · rintro ⟨⟨hne, hnodup⟩, -, hnew⟩
        exact ⟨hnodup, fun b hb => ⟨hne b hb, hnew b hb⟩⟩

/-- The elements before the first repeated one have keys of their own. -/
theorem firstRepeat?_eq_some_iff {α β : Type} [BEq β] [LawfulBEq β] {key : α → β} {seen : List β}
    {as : List α} {a : α} : firstRepeat? key seen as = some a ↔ ∃ before after,
      as = before ++ a :: after ∧ ((before.map key).Nodup ∧ ∀ b ∈ before, key b ∉ seen) ∧
        (key a ∈ seen ∨ key a ∈ before.map key) := by
  induction as generalizing seen with
  | nil => simp [firstRepeat?]
  | cons b as ih =>
    rw [firstRepeat?]
    split
    case isTrue h =>
      rw [List.contains_iff_mem] at h
      constructor
      · rintro ⟨⟩
        exact ⟨[], as, rfl, by simp, .inl h⟩
      · rintro ⟨before, after, heq, ⟨-, hnew⟩, -⟩
        cases before with
        | nil => rw [(List.cons.inj heq).1]
        | cons d before =>
          rw [← (List.cons.inj heq).1] at hnew
          exact absurd h (hnew b List.mem_cons_self)
    case isFalse h =>
      rw [List.contains_iff_mem] at h
      rw [ih]
      constructor
      · rintro ⟨before, after, rfl, ⟨hnodup, hnew⟩, hrepeat⟩
        refine ⟨b :: before, after, rfl, ?_, ?_⟩
        · simp only [List.mem_cons, not_or] at hnew
          rw [List.map_cons, List.nodup_cons, List.forall_mem_cons, List.mem_map]
          exact ⟨⟨fun ⟨d, hd, heq⟩ => (hnew d hd).1 heq, hnodup⟩, h, fun d hd => (hnew d hd).2⟩
        · simpa [or_left_comm, or_assoc] using hrepeat
      · rintro ⟨before, after, heq, ⟨hnodup, hnew⟩, hrepeat⟩
        cases before with
        | nil =>
          rw [← (List.cons.inj heq).1] at hrepeat
          simp [h] at hrepeat
        | cons d before =>
          obtain ⟨rfl, rfl⟩ := List.cons.inj heq
          rw [List.map_cons, List.nodup_cons, List.mem_map] at hnodup
          rw [List.forall_mem_cons] at hnew
          refine ⟨before, after, rfl, ⟨hnodup.2, fun d hd => ?_⟩, ?_⟩
          · rw [List.mem_cons, not_or]
            exact ⟨fun heq => hnodup.1 ⟨d, hd, heq⟩, hnew.2 d hd⟩
          · simpa [or_left_comm, or_assoc] using hrepeat

end RegAtlas
