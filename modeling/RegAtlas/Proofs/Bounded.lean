import RegAtlas.Bounded
import RegAtlas.Proofs.Result

/-!
# Numbers in their ranges

What the operations on numbers give inside of their ranges, and computations that never leave them.
-/

namespace RegAtlas.Bounded

variable {α β : Type} {a b : Nat}

/-! ### Operations -/

theorem add_of_lt (h : a + b < Literal.bound) : add a b = .ok (a + b) := if_pos h

theorem add_of_le (h : Literal.bound ≤ a + b) : add a b = .error .outOfRange :=
  if_neg (Nat.not_lt.2 h)

theorem eq_of_add_eq_ok {c : Nat} (h : add a b = .ok c) : c = a + b := by
  rw [add] at h
  split at h
  · exact (Except.ok.inj h).symm
  · cases h

theorem sub_of_le (h : b ≤ a) : sub a b = .ok (a - b) := if_pos h

theorem mul_of_lt (h : a * b < Literal.bound) : mul a b = .ok (a * b) := if_pos h

theorem divCeil_eight (h : a < Literal.bound) : divCeil a 8 = .ok ((a + 7) / 8) := by
  have hlt : a / 8 + 1 < Literal.bound := by
    rw [Literal.bound] at h ⊢
    omega
  rw [divCeil]
  split
  · rw [show (a + 7) / 8 = a / 8 by omega]
  · rw [add_of_lt hlt, show (a + 7) / 8 = a / 8 + 1 by omega]

theorem set_of_lt {xs : List α} {i : Nat} (h : i < xs.length) (x : α) :
    set xs i x = .ok (xs.set i x) := if_pos h

/-- A loop that sets the elements from `first` on. -/
theorem foldlM_set (x : α) {first n : Nat} {xs : List α} (h : first + n ≤ xs.length) :
    (List.range' first n).foldlM (fun xs i => set xs i x) xs =
      .ok (xs.mapIdx fun i y => if first ≤ i ∧ i < first + n then x else y) := by
  induction n generalizing first xs with
  | zero =>
    rw [List.range'_zero, List.foldlM_nil]
    refine congrArg Except.ok (List.ext_getElem (by simp) fun i _ _ => ?_)
    rw [List.getElem_mapIdx, if_neg (by omega)]
  | succ n ih =>
    have hstep : ∀ i y, (if first + 1 ≤ i ∧ i < first + 1 + n then x
        else if first = i then x else y) = if first ≤ i ∧ i < first + (n + 1) then x else y := by
      intro i y
      grind
    rw [List.range'_succ, List.foldlM_cons, set_of_lt (by omega), ok_bind,
      ih (by rw [List.length_set]; omega)]
    refine congrArg Except.ok (List.ext_getElem (by simp) fun i _ _ => ?_)
    simp only [List.getElem_mapIdx, List.getElem_set]
    exact hstep i _

theorem gives_mul (a b : Nat) : Gives (mul a b) (a * b < Literal.bound) (a * b) :=
  ⟨mul_of_lt, fun h => ⟨_, if_neg h⟩⟩

theorem gives_formatWidth (n : Nat) : Gives (formatWidth n) (n < widthBound) n :=
  ⟨fun h => if_pos h, fun h => ⟨_, if_neg h⟩⟩

/-! ### Computations that stay in range -/

/-- The computation leaves no range: it gives a value, or reports a fault. -/
def Stays (x : Except Fault α) : Prop := x ≠ .error .outOfRange

namespace Stays

variable {x : Except Fault α}

theorem ok (a : α) : Stays (.ok a) := nofun

theorem error {e : Fault} (h : e ≠ .outOfRange) : Stays (.error e : Except Fault α) :=
  fun heq => h (Except.error.inj heq)

theorem pure (a : α) : Stays (pure a) := .ok a

theorem bind {f : α → Except Fault β} (h : Stays x) (hf : ∀ a, x = .ok a → Stays (f a)) :
    Stays (x >>= f) := by
  rw [Stays, ne_eq, bind_eq_error_iff]
  rintro (he | ⟨a, ha, he⟩)
  · exact h he
  · exact hf a ha he

theorem map {f : α → β} (h : Stays x) : Stays (f <$> x) := mt map_eq_error_iff.1 h

theorem mapM {f : α → Except Fault β} {as : List α} (h : ∀ a ∈ as, Stays (f a)) :
    Stays (as.mapM f) := by
  rw [Stays, ne_eq, mapM_eq_error_iff]
  rintro ⟨before, a, behind, rfl, -, he⟩
  exact h a (by simp) he

theorem foldlM {f : β → α → Except Fault β} {as : List α} {b : β} {q : β → Prop} (hb : q b)
    (hkeeps : ∀ b a, q b → Ensures (f b a) q) (h : ∀ b a, q b → Stays (f b a)) :
    Stays (as.foldlM f b) := by
  induction as generalizing b with
  | nil => exact pure b
  | cons a as ih =>
    rw [List.foldlM_cons]
    exact (h b a hb).bind fun b' hb' => ih (hkeeps b a hb b' hb')

/-- Behind a computation that stays in range, the range is left later if at all. -/
theorem bind_eq_error_iff {f : α → Except Fault β} (h : Stays x) :
    x >>= f = .error .outOfRange ↔ ∃ a, x = .ok a ∧ f a = .error .outOfRange :=
  RegAtlas.bind_eq_error_iff.trans (or_iff_right h)

end Stays

end RegAtlas.Bounded
