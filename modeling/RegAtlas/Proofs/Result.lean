import Mathlib.Data.List.Basic

/-!
# Computations that can fail

A computation that gives one value under a condition and fails otherwise, for sequences of such
computations and for one repeated over a list.
-/

namespace RegAtlas

theorem exists_error_iff {ε α : Type} {x : Except ε α} :
    (∃ e, x = .error e) ↔ ¬ ∃ a, x = .ok a := by
  cases x <;> simp

theorem exists_map_eq_ok_iff {ε α β : Type} {f : α → β} {x : Except ε α} :
    (∃ b, f <$> x = .ok b) ↔ ∃ a, x = .ok a := by
  cases x <;> simp [Functor.map, Except.map]

theorem toOption_bind {ε α β : Type} (x : Except ε α) (f : α → Except ε β) :
    (x >>= f).toOption = x.toOption.bind fun a => (f a).toOption := by
  cases x <;> rfl

theorem toOption_map {ε α β : Type} (x : Except ε α) (f : α → β) :
    (f <$> x).toOption = x.toOption.map f := by
  cases x <;> rfl

theorem toOption_eq_some_iff {ε α : Type} {x : Except ε α} {a : α} :
    x.toOption = some a ↔ x = .ok a := by
  cases x <;> simp [Except.toOption]

theorem toOption_mapM {ε α β : Type} (f : α → Except ε β) (as : List α) :
    (as.mapM f).toOption = as.mapM fun a => (f a).toOption := by
  induction as with
  | nil => rfl
  | cons a as ih =>
    rw [List.mapM_cons, List.mapM_cons, toOption_bind, ← ih]
    refine congrArg _ (funext fun b => ?_)
    rw [toOption_bind]
    rfl

theorem mapM_map {ε α β γ : Type} (f : α → Except ε β) (image : β → γ) (as : List α) :
    as.mapM (fun a => image <$> f a) = List.map image <$> as.mapM f := by
  induction as with
  | nil => rfl
  | cons a as ih =>
    rw [List.mapM_cons, List.mapM_cons, ih]
    cases f a with
    | error e => rfl
    | ok b => cases as.mapM f <;> rfl

theorem mapM_eq_some {α β : Type} {f : α → Option β} {as : List α} (h : ∀ a ∈ as, f a ≠ none) :
    as.mapM f = some (as.filterMap f) := by
  induction as with
  | nil => rfl
  | cons a as ih =>
    rw [List.forall_mem_cons] at h
    obtain ⟨b, hb⟩ := Option.ne_none_iff_exists'.1 h.1
    rw [List.mapM_cons, ih h.2, List.filterMap_cons_some hb, hb]
    rfl

theorem mapM_eq_none {α β : Type} {f : α → Option β} {as : List α} (h : ¬ ∀ a ∈ as, f a ≠ none) :
    as.mapM f = none := by
  induction as with
  | nil => simp at h
  | cons a as ih =>
    rw [List.mapM_cons]
    cases ha : f a with
    | none => rfl
    | some b =>
      rw [ih fun has => h (List.forall_mem_cons.2 ⟨by simp [ha], has⟩)]
      rfl

theorem mapM_congr_map {α β : Type} {as as' : List α} {f : α → Option β}
    (h : as.map f = as'.map f) : as.mapM f = as'.mapM f := by
  induction as generalizing as' with
  | nil => cases as' <;> simp_all
  | cons a as ih =>
    cases as' with
    | nil => cases h
    | cons a' as' =>
      obtain ⟨ha, has⟩ := List.cons.inj h
      rw [List.mapM_cons, List.mapM_cons, ha, ih has]

theorem optionMapM_congr_map {m : Type → Type} [Monad m] {α β : Type} {o o' : Option α}
    {f : α → m β} (h : o.map f = o'.map f) : o.mapM f = o'.mapM f := by
  cases o <;> cases o' <;> simp_all

theorem ok_bind {ε α β : Type} (a : α) (f : α → Except ε β) : (Except.ok a >>= f) = f a := rfl

theorem mapM_eq_ok {ε α β : Type} {f : α → Except ε β} {g : α → β} {as : List α}
    (h : ∀ a ∈ as, f a = .ok (g a)) : as.mapM f = .ok (as.map g) := by
  induction as with
  | nil => rfl
  | cons a as ih =>
    rw [List.forall_mem_cons] at h
    rw [List.mapM_cons, h.1, ok_bind, ih h.2]
    rfl

theorem length_of_mapM_eq_ok {ε α β : Type} {f : α → Except ε β} {as : List α} {bs : List β}
    (h : as.mapM f = .ok bs) : bs.length = as.length := by
  induction as generalizing bs with
  | nil =>
    obtain rfl := Except.ok.inj h
    rfl
  | cons a as ih =>
    rw [List.mapM_cons] at h
    cases hb : f a with
    | error e => simp [hb, bind, Except.bind] at h
    | ok b =>
      cases hbs : as.mapM f with
      | error e => simp [hb, hbs, bind, Except.bind] at h
      | ok bs' =>
        rw [hb, hbs] at h
        obtain rfl := Except.ok.inj h
        rw [List.length_cons, List.length_cons, ih hbs]

theorem bind_eq_error_iff {ε α β : Type} {x : Except ε α} {f : α → Except ε β} {e : ε} :
    x >>= f = .error e ↔ x = .error e ∨ ∃ a, x = .ok a ∧ f a = .error e := by
  cases x <;> simp [bind, Except.bind]

theorem map_eq_error_iff {ε α β : Type} {x : Except ε α} {f : α → β} {e : ε} :
    f <$> x = .error e ↔ x = .error e := by
  cases x <;> simp [Functor.map, Except.map]

theorem mapError_eq_error_iff {ε ε' α : Type} {x : Except ε α} {f : ε → ε'} {e : ε'} :
    x.mapError f = .error e ↔ ∃ e', x = .error e' ∧ f e' = e := by
  cases x <;> simp [Except.mapError]

/-- Over a list, the first element at which a computation fails decides. -/
theorem mapM_eq_error_iff {ε α β : Type} {f : α → Except ε β} {as : List α} {e : ε} :
    as.mapM f = .error e ↔ ∃ before a behind, as = before ++ a :: behind ∧
      (∀ a' ∈ before, ∃ b, f a' = .ok b) ∧ f a = .error e := by
  induction as with
  | nil => simp [pure, Except.pure]
  | cons a as ih =>
    have hcons (b : β) : (as.mapM f >>= fun bs => (pure (b :: bs) : Except ε (List β))) =
        .error e ↔ as.mapM f = .error e := by
      rw [bind_eq_error_iff]
      simp [pure, Except.pure]
    rw [List.mapM_cons, bind_eq_error_iff]
    simp only [hcons, ih]
    constructor
    · rintro (he | ⟨b, hb, before, a', behind, rfl, hbefore, he⟩)
      · exact ⟨[], a, as, rfl, by simp, he⟩
      · exact ⟨a :: before, a', behind, rfl, List.forall_mem_cons.2 ⟨⟨b, hb⟩, hbefore⟩, he⟩
    · rintro ⟨before, a', behind, heq, hbefore, he⟩
      cases before with
      | nil =>
        obtain ⟨rfl, -⟩ := List.cons.inj heq
        exact .inl he
      | cons c before =>
        obtain ⟨rfl, rfl⟩ := List.cons.inj heq
        obtain ⟨⟨b, hb⟩, hbefore⟩ := List.forall_mem_cons.1 hbefore
        exact .inr ⟨b, hb, before, a', behind, rfl, hbefore, he⟩

theorem exists_ok_of_map_toOption {ε α β : Type} {x : Except ε α} {f : α → β} {b : β}
    (h : x.toOption.map f = some b) : ∃ a, x = .ok a ∧ f a = b := by
  cases x with
  | error e => cases h
  | ok a => exact ⟨a, rfl, Option.some.inj h⟩

/-- The computation gives the value if the condition holds, and fails otherwise. -/
structure Gives {ε α : Type} (x : Except ε α) (defined : Prop) (value : α) : Prop where
  ok : defined → x = .ok value
  error : ¬ defined → ∃ e, x = .error e

namespace Gives

variable {ε ε' α β : Type} {x : Except ε α} {a value : α} {defined : Prop}

theorem eq_ok_iff (h : Gives x defined value) : x = .ok a ↔ defined ∧ value = a := by
  by_cases hd : defined
  · simp [h.ok hd, hd]
  · obtain ⟨e, he⟩ := h.error hd
    simp [he, hd]

theorem succeeds_iff (h : Gives x defined value) : (∃ a, x = .ok a) ↔ defined := by
  simp [h.eq_ok_iff]

theorem fails_iff (h : Gives x defined value) : (∃ e, x = .error e) ↔ ¬ defined := by
  rw [exists_error_iff, h.succeeds_iff]

theorem congr {defined' : Prop} (h : Gives x defined value) (hd : defined ↔ defined') :
    Gives x defined' value :=
  ⟨fun h' => h.ok (hd.2 h'), fun h' => h.error (mt hd.1 h')⟩

theorem pure (a : α) : Gives (pure a : Except ε α) True a :=
  ⟨fun _ => rfl, fun h => absurd trivial h⟩

theorem of_eq_ok (h : x = .ok a) : Gives x True a := ⟨fun _ => h, fun hnot => absurd trivial hnot⟩

/-- The second computation only matters if the first one gives its value. -/
theorem bind {f : α → Except ε β} {defined' : Prop} {b : β} (h : Gives x defined value)
    (hf : defined → Gives (f value) defined' b) : Gives (x >>= f) (defined ∧ defined') b where
  ok := by
    rintro ⟨hd, hd'⟩
    rw [h.ok hd]
    exact (hf hd).ok hd'
  error hnot := by
    by_cases hd : defined
    · rw [h.ok hd]
      exact (hf hd).error fun hd' => hnot ⟨hd, hd'⟩
    · obtain ⟨e, he⟩ := h.error hd
      exact ⟨e, by rw [he]; rfl⟩

/-- The last step of a computation only uses its value. -/
theorem bind_pure {f : α → β} (h : Gives x defined value) :
    Gives (x >>= fun a => Pure.pure (f a)) defined (f value) :=
  (h.bind fun _ => .pure (f value)).congr (and_true _).to_iff

theorem map {f : α → β} (h : Gives x defined value) : Gives (f <$> x) defined (f value) where
  ok hd := by rw [h.ok hd]; rfl
  error hd := by
    obtain ⟨e, he⟩ := h.error hd
    exact ⟨e, by rw [he]; rfl⟩

theorem mapError {f : ε → ε'} (h : Gives x defined value) :
    Gives (x.mapError f) defined value where
  ok hd := by rw [h.ok hd]; rfl
  error hd := by
    obtain ⟨e, he⟩ := h.error hd
    exact ⟨f e, by rw [he]; rfl⟩

/-- Over a list, the computation gives all values or fails at some element. -/
theorem mapM {f : α → Except ε β} {defined : α → Prop} {value : α → β} {as : List α}
    (h : ∀ a ∈ as, Gives (f a) (defined a) (value a)) :
    Gives (as.mapM f) (∀ a ∈ as, defined a) (as.map value) := by
  induction as with
  | nil => exact (Gives.pure []).congr (by simp)
  | cons a as ih =>
    rw [List.forall_mem_cons] at h
    rw [List.mapM_cons, List.map_cons]
    refine Gives.congr (h.1.bind fun _ => ?_) List.forall_mem_cons.symm
    exact (ih h.2).bind_pure

end Gives

/-- Every value that the computation can give has the property. -/
def Ensures {ε α : Type} (x : Except ε α) (p : α → Prop) : Prop := ∀ a, x = .ok a → p a

namespace Ensures

variable {ε α β : Type} {x : Except ε α} {p : α → Prop} {q : β → Prop}

theorem trivial (x : Except ε α) : Ensures x fun _ => True := fun _ _ => True.intro

/-- What is known of the value at least is that the computation gave it. -/
theorem self (x : Except ε α) : Ensures x (x = .ok ·) := fun _ h => h

theorem and {p' : α → Prop} (h : Ensures x p) (h' : Ensures x p') :
    Ensures x fun a => p a ∧ p' a := fun a ha => ⟨h a ha, h' a ha⟩

theorem pure {a : α} (h : p a) : Ensures (pure a : Except ε α) p := by
  rintro _ ⟨⟩
  exact h

theorem bind {f : α → Except ε β} (h : Ensures x p) (hf : ∀ a, p a → Ensures (f a) q) :
    Ensures (x >>= f) q := by
  intro b hb
  cases hx : x with
  | error e =>
    rw [hx] at hb
    cases hb
  | ok a =>
    rw [hx] at hb
    exact hf a (h a hx) b hb

theorem map {f : α → β} (h : Ensures x p) (hf : ∀ a, p a → q (f a)) : Ensures (f <$> x) q := by
  intro b hb
  cases hx : x with
  | error e =>
    rw [hx] at hb
    cases hb
  | ok a =>
    rw [hx] at hb
    obtain rfl := Except.ok.inj hb
    exact hf a (h a hx)

theorem mapError {ε' : Type} {f : ε → ε'} (h : Ensures x p) : Ensures (x.mapError f) p := by
  intro a ha
  cases x with
  | error e => cases ha
  | ok b =>
    obtain rfl := Except.ok.inj ha
    exact h b rfl

theorem mapM {f : α → Except ε β} {as : List α} (h : ∀ a ∈ as, Ensures (f a) q) :
    Ensures (as.mapM f) fun bs => ∀ b ∈ bs, q b := by
  induction as with
  | nil => exact pure (by simp)
  | cons a as ih =>
    rw [List.forall_mem_cons] at h
    rw [List.mapM_cons]
    exact h.1.bind fun b hb => (ih h.2).bind fun bs hbs => pure (List.forall_mem_cons.2 ⟨hb, hbs⟩)

/-- What every step of a loop keeps holds of its result. -/
theorem foldlM {f : β → α → Except ε β} {as : List α} {b : β} (hb : q b)
    (h : ∀ b a, q b → Ensures (f b a) q) : Ensures (as.foldlM f b) q := by
  induction as generalizing b with
  | nil => exact pure hb
  | cons a as ih =>
    rw [List.foldlM_cons]
    exact (h b a hb).bind fun b' hb' => ih hb'

end Ensures

end RegAtlas
