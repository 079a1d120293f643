import RegAtlas.Proofs.Reference.Tree
import RegAtlas.Proofs.Text.Cut

/-!
# What a resolution does

Each reference below the memory maps takes the value of the first parameter with its key, or gives
up its key; everything else stays. A second resolution finds the same values again.
-/

namespace RegAtlas

namespace Reference

/-! ### One reference -/

/-- The reference has the key, and the key is not blank. -/
@[mk_iff]
structure Asks (r : Reference) (key : String) : Prop where
  key_eq : r.key = some key
  shown : ∃ c ∈ key.toList, Text.isBlank c = false

/-- The first parameter with the key. -/
structure IsFirst (ps : List Parameter) (key : String) (p : Parameter) : Prop where
  key_eq : p.key = key
  first : ∃ before after, ps = before ++ p :: after ∧ ∀ q ∈ before, q.key ≠ key

/-- What a reference becomes, and what is noted about it. -/
inductive Becomes (ps : List Parameter) (r : Reference) : Reference → Outcome → Prop where
  | keyless (hkey : r.key = none) : Becomes ps r r .skipped
  | blank {key : String} (hkey : r.key = some key) (hblank : ∀ c ∈ key.toList, Text.isBlank c) :
      Becomes ps r { r with key := none } .skipped
  | value {key : String} {p : Parameter} {v : Reference} (hkey : r.Asks key)
      (hp : IsFirst ps key p) (hv : p.value = some v) :
      Becomes ps r { r with text := v.text, target := some p.id } .resolved
  | valueless {key : String} {p : Parameter} (hkey : r.Asks key) (hp : IsFirst ps key p)
      (hv : p.value = none) : Becomes ps r { r with key := none } (.valueless p.name)
  | literal {key : String} (hkey : r.Asks key) (hno : ∀ p ∈ ps, p.key ≠ key)
      (hnumber : r.number? ≠ none) : Becomes ps r { r with key := none } .literal
  | unresolved {key : String} (hkey : r.Asks key) (hno : ∀ p ∈ ps, p.key ≠ key)
      (hnumber : r.number? = none) : Becomes ps r { r with key := none } (.unresolved r.text)

section

variable {ps : List Parameter} {r r' : Reference} {key : String} {p : Parameter} {o : Outcome}

theorem find?_eq_some_iff : ps.find? (·.key == key) = some p ↔ IsFirst ps key p := by
  rw [List.find?_eq_some_iff_append]
  simp only [beq_iff_eq, Bool.not_eq_eq_eq_not, Bool.not_true, beq_eq_false_iff_ne]
  exact ⟨fun ⟨hkey, hfirst⟩ => ⟨hkey, hfirst⟩, fun ⟨hkey, hfirst⟩ => ⟨hkey, hfirst⟩⟩

theorem trim_isEmpty_of_asks (h : r.Asks key) : (Text.trim key).isEmpty = false := by
  obtain ⟨c, hc, hshown⟩ := h.shown
  refine Bool.eq_false_iff.2 fun hempty => ?_
  simp [Text.trim_isEmpty_iff.1 hempty c hc] at hshown

theorem Becomes.resolve_eq (h : Becomes ps r r' o) : r.resolve ps = (r', o) := by
  cases h with
  | keyless hkey => rw [resolve, hkey]
  | blank hkey hblank => simp [resolve, hkey, Text.trim_isEmpty_iff.2 hblank]
  | value hkey hp hv =>
    simp [resolve, hkey.key_eq, trim_isEmpty_of_asks hkey, find?_eq_some_iff.2 hp, hv]
  | valueless hkey hp hv =>
    simp [resolve, hkey.key_eq, trim_isEmpty_of_asks hkey, find?_eq_some_iff.2 hp, hv]
  | @literal key hkey hno hnumber =>
    have hfind : ps.find? (·.key == key) = none := by simpa using hno
    simp [resolve, hkey.key_eq, trim_isEmpty_of_asks hkey, hfind,
      Option.isSome_iff_ne_none.2 hnumber]
  | @unresolved key hkey hno hnumber =>
    have hfind : ps.find? (·.key == key) = none := by simpa using hno
    simp [resolve, hkey.key_eq, trim_isEmpty_of_asks hkey, hfind, hnumber]

/-- Every reference is in one of the cases. -/
theorem exists_becomes (ps : List Parameter) (r : Reference) : ∃ r' o, Becomes ps r r' o := by
  cases hkey : r.key with
  | none => exact ⟨_, _, .keyless hkey⟩
  | some key =>
    by_cases hblank : ∀ c ∈ key.toList, Text.isBlank c
    · exact ⟨_, _, .blank hkey hblank⟩
    have hasks : r.Asks key := ⟨hkey, by simpa using hblank⟩
    cases hfind : ps.find? (·.key == key) with
    | none =>
      have hno : ∀ p ∈ ps, p.key ≠ key := by simpa using hfind
      by_cases hnumber : r.number? = none
      · exact ⟨_, _, .unresolved hasks hno hnumber⟩
      · exact ⟨_, _, .literal hasks hno hnumber⟩
    | some p =>
      have hp := find?_eq_some_iff.1 hfind
      cases hv : p.value with
      | none => exact ⟨_, _, .valueless hasks hp hv⟩
      | some v => exact ⟨_, _, .value hasks hp hv⟩

theorem becomes_iff : Becomes ps r r' o ↔ r.resolve ps = (r', o) := by
  refine ⟨Becomes.resolve_eq, fun h => ?_⟩
  obtain ⟨r'', o', hcase⟩ := exists_becomes ps r
  obtain ⟨rfl, rfl⟩ := Prod.mk.inj (hcase.resolve_eq.symm.trans h)
  exact hcase

theorem becomes_resolve (ps : List Parameter) (r : Reference) :
    Becomes ps r (r.resolve ps).1 (r.resolve ps).2 := becomes_iff.2 rfl

/-- A reference that became something becomes the same again. Only a value is noted again. -/
theorem Becomes.again (h : Becomes ps r r' o) :
    Becomes ps r' r' (if o = .resolved then .resolved else .skipped) := by
  cases h with
  | keyless hkey => exact .keyless hkey
  | value hkey hp hv => exact .value ⟨hkey.key_eq, hkey.shown⟩ hp hv
  | blank | valueless | literal | unresolved => exact .keyless rfl

theorem resolve_again (ps : List Parameter) (r : Reference) : (r.resolve ps).1.resolve ps =
    ((r.resolve ps).1, if (r.resolve ps).2 = .resolved then .resolved else .skipped) :=
  (becomes_resolve ps r).again.resolve_eq

/-- A parameter with the key of the reference is there. -/
def Matched (ps : List Parameter) (r : Reference) : Prop := ∃ p ∈ ps, r.Asks p.key

/-- The first parameter with the key of the reference has a value. -/
def TakesValue (ps : List Parameter) (r : Reference) : Prop :=
  ∃ key p v, r.Asks key ∧ IsFirst ps key p ∧ p.value = some v

/-- No parameter has the key of the reference. -/
def Unmatched (ps : List Parameter) (r : Reference) : Prop :=
  ∃ key, r.Asks key ∧ ∀ p ∈ ps, p.key ≠ key

theorem exists_becomes_of_outcome (h : (r.resolve ps).2 = o) : ∃ r', Becomes ps r r' o :=
  ⟨_, h ▸ becomes_resolve ps r⟩

theorem outcome_eq_resolved_iff : (r.resolve ps).2 = .resolved ↔ r.TakesValue ps := by
  constructor
  · intro h
    obtain ⟨r', hcase⟩ := exists_becomes_of_outcome h
    cases hcase with
    | value hkey hp hv => exact ⟨_, _, _, hkey, hp, hv⟩
  · rintro ⟨key, p, v, hkey, hp, hv⟩
    rw [(Becomes.value hkey hp hv).resolve_eq]

theorem outcome_eq_literal_iff :
    (r.resolve ps).2 = .literal ↔ r.Unmatched ps ∧ r.number? ≠ none := by
  constructor
  · intro h
    obtain ⟨r', hcase⟩ := exists_becomes_of_outcome h
    cases hcase with
    | literal hkey hno hnumber => exact ⟨⟨_, hkey, hno⟩, hnumber⟩
  · rintro ⟨⟨key, hkey, hno⟩, hnumber⟩
    rw [(Becomes.literal hkey hno hnumber).resolve_eq]

theorem outcome_eq_unresolved_iff {text : String} : (r.resolve ps).2 = .unresolved text ↔
    (r.Unmatched ps ∧ r.number? = none) ∧ r.text = text := by
  constructor
  · intro h
    obtain ⟨r', hcase⟩ := exists_becomes_of_outcome h
    cases hcase with
    | unresolved hkey hno hnumber => exact ⟨⟨⟨_, hkey, hno⟩, hnumber⟩, rfl⟩
  · rintro ⟨⟨⟨key, hkey, hno⟩, hnumber⟩, rfl⟩
    rw [(Becomes.unresolved hkey hno hnumber).resolve_eq]

theorem outcome_eq_valueless_iff {name : String} : (r.resolve ps).2 = .valueless name ↔
    ∃ key p, (r.Asks key ∧ IsFirst ps key p ∧ p.value = none) ∧ p.name = name := by
  constructor
  · intro h
    obtain ⟨r', hcase⟩ := exists_becomes_of_outcome h
    cases hcase with
    | valueless hkey hp hv => exact ⟨_, _, ⟨hkey, hp, hv⟩, rfl⟩
  · rintro ⟨key, p, ⟨hkey, hp, hv⟩, rfl⟩
    rw [(Becomes.valueless hkey hp hv).resolve_eq]

instance (r : Reference) (key : String) : Decidable (r.Asks key) :=
  decidable_of_iff' _ (asks_iff r key)

instance : Decidable (r.Matched ps) := inferInstanceAs (Decidable (∃ p ∈ ps, r.Asks p.key))

instance : Decidable (r.TakesValue ps) := decidable_of_iff _ outcome_eq_resolved_iff

instance : Decidable (r.Unmatched ps) :=
  decidable_of_iff (∃ key ∈ r.key, r.Asks key ∧ ∀ p ∈ ps, p.key ≠ key)
    ⟨fun ⟨key, _, h⟩ => ⟨key, h⟩, fun ⟨key, h⟩ => ⟨key, h.1.key_eq, h⟩⟩

end

end Reference

/-! ### The report and the warnings -/

namespace OwnedReference

variable {ps : List Parameter} {o : OwnedReference}

theorem unresolved?_eq (ps : List Parameter) (o : OwnedReference) : o.unresolved? ps =
    if o.reference.Unmatched ps ∧ o.reference.number? = none
    then some { id := o.reference.id, owner := "/".intercalate o.path, text := o.reference.text }
    else none := by
  rw [unresolved?, outcome]
  split
  case h_1 text h =>
    obtain ⟨hno, rfl⟩ := Reference.outcome_eq_unresolved_iff.1 h
    rw [if_pos hno]
    rfl
  case h_2 h =>
    rw [if_neg fun hno => h _ (Reference.outcome_eq_unresolved_iff.2 ⟨hno, rfl⟩)]

/-- The text that warns of a reference. -/
inductive Warns (ps : List Parameter) (o : OwnedReference) : String → Prop where
  | valueless {key : String} {p : Parameter} (hkey : o.reference.Asks key)
      (hp : Reference.IsFirst ps key p) (hv : p.value = none) : Warns ps o
        ("Parameter " ++ p.name ++ " referenced by " ++ "/".intercalate o.path ++ " has no value")
  | unresolved (hno : o.reference.Unmatched ps) (hnumber : o.reference.number? = none) : Warns ps o
      ("Unresolved reference '" ++ o.reference.text ++ "' in " ++ "/".intercalate o.path)

theorem warning?_eq_some_iff {text : String} : o.warning? ps = some text ↔ o.Warns ps text := by
  constructor
  · intro h
    rw [warning?, outcome] at h
    split at h
    case h_1 hnoted =>
      obtain ⟨⟨hno, hnumber⟩, rfl⟩ := Reference.outcome_eq_unresolved_iff.1 hnoted
      cases h
      exact .unresolved hno hnumber
    case h_2 hnoted =>
      obtain ⟨key, p, ⟨hkey, hp, hv⟩, rfl⟩ := Reference.outcome_eq_valueless_iff.1 hnoted
      cases h
      exact .valueless hkey hp hv
    case h_3 => cases h
  · intro h
    rw [warning?, outcome]
    cases h with
    | valueless hkey hp hv =>
      rw [Reference.outcome_eq_valueless_iff.2 ⟨_, _, ⟨hkey, hp, hv⟩, rfl⟩]
      rfl
    | unresolved hno hnumber =>
      rw [Reference.outcome_eq_unresolved_iff.2 ⟨⟨hno, hnumber⟩, rfl⟩]
      rfl

/-- The notes of a kind are counted by their condition. -/
theorem count_outcome {refs : List OwnedReference} {noted : Outcome} {P : OwnedReference → Prop}
    [DecidablePred P] (h : ∀ o, o.outcome ps = noted ↔ P o) :
    (refs.map (outcome ps)).count noted = refs.countP P := by
  rw [List.count, List.countP_map]
  refine List.countP_congr fun o _ => ?_
  simp [h]

end OwnedReference

namespace Component

section

variable (c : Component)

theorem resolved_eq_countP : c.resolveReport.resolved =
    c.ownedReferences.countP fun o => o.reference.TakesValue c.parameters :=
  OwnedReference.count_outcome fun _ => Reference.outcome_eq_resolved_iff

theorem literals_eq_countP : c.resolveReport.literals = c.ownedReferences.countP fun o =>
    o.reference.Unmatched c.parameters ∧ o.reference.number? ≠ none :=
  OwnedReference.count_outcome fun _ => Reference.outcome_eq_literal_iff

theorem unresolved_eq_map_filter : c.resolveReport.unresolved =
    (c.ownedReferences.filter fun o =>
      o.reference.Unmatched c.parameters ∧ o.reference.number? = none).map fun o =>
        { id := o.reference.id, owner := "/".intercalate o.path, text := o.reference.text } := by
  rw [← List.filterMap_eq_map, List.filterMap_filter]
  refine List.filterMap_congr fun o _ => ?_
  simp [OwnedReference.unresolved?_eq]

/-- For each reference in the order of the tree the text that warns of it, where there is one. -/
theorem exists_warnings : ∃ texts : List (Option String),
    List.Forall₂ (fun o text? => ∀ text, text? = some text ↔ o.Warns c.parameters text)
      c.ownedReferences texts ∧
    c.resolveWarnings = texts.filterMap id := by
  refine ⟨c.ownedReferences.map (OwnedReference.warning? c.parameters), ?_, ?_⟩
  · exact List.forall₂_map_right_iff.2
      (List.forall₂_same.2 fun _ _ _ => OwnedReference.warning?_eq_some_iff)
  · rw [List.filterMap_map, Function.id_comp, resolveWarnings]

/-- The tree after a resolution is the only one in which every reference below the memory maps has
become what its key asks for and all else is as before. The report counts the references that took
a value and the numbers that no parameter replaces, and lists the others that no parameter
replaces, in the order of the tree and with the names around them. Of these others and of the
references whose parameter has no value the resolution warns, in the same order. -/
theorem resolution_exact :
    (∀ c', c.RelatedBy (fun r r' => ∃ o, Reference.Becomes c.parameters r r' o) c' ↔
      c' = c.resolved) ∧
    c.ownedReferences = Item.ownedReferences [] (c.memoryMaps.flatMap MemoryMap.items) ∧
    c.resolveReport.resolved =
      (c.ownedReferences.countP fun o => o.reference.TakesValue c.parameters) ∧
    c.resolveReport.literals = (c.ownedReferences.countP fun o =>
      o.reference.Unmatched c.parameters ∧ o.reference.number? ≠ none) ∧
    (c.resolveReport.unresolved = (c.ownedReferences.filter fun o =>
      o.reference.Unmatched c.parameters ∧ o.reference.number? = none).map fun o =>
        { id := o.reference.id, owner := "/".intercalate o.path, text := o.reference.text }) ∧
    ∃ texts : List (Option String),
      List.Forall₂ (fun o text? => ∀ text, text? = some text ↔ o.Warns c.parameters text)
        c.ownedReferences texts ∧
      c.resolveWarnings = texts.filterMap id := by
  refine ⟨fun c' => ?_, c.ownedReferences_eq, c.resolved_eq_countP, c.literals_eq_countP,
    c.unresolved_eq_map_filter, c.exists_warnings⟩
  refine relatedBy_iff (fun r r' => ?_) c c'
  simp only [Reference.becomes_iff, Prod.ext_iff]
  exact ⟨fun ⟨o, hr, _⟩ => hr.symm, fun hr => ⟨_, hr.symm, rfl⟩⟩

end

/-- A map whose presence names a parameter without a value. -/
def valuelessComponent : Component where
  parameters := [{ name := "DEBUG", key := "debug" }]
  memoryMaps := [{ name := "regs", isPresent := some (.ofText "debug") }]

/-- The reference is matched by a parameter, but counted nowhere. -/
theorem matched_uncounted :
    valuelessComponent.ownedReferences = [⟨["regs"], .ofText "debug"⟩] ∧
    (Reference.ofText "debug").Matched valuelessComponent.parameters ∧
    valuelessComponent.resolveReport = { resolved := 0, literals := 0, unresolved := [] } ∧
    valuelessComponent.resolveReport.resolved ≠ valuelessComponent.ownedReferences.countP
      fun o => o.reference.Matched valuelessComponent.parameters := by
  decide

/-! ### A second resolution -/

section

variable (c : Component)

/-- What a reference is after a resolution of the component. -/
def resolvedReference (r : Reference) : Reference := (r.resolve c.parameters).1

theorem resolvedReference_comp_self :
    c.resolvedReference ∘ c.resolvedReference = c.resolvedReference := by
  funext r
  have hagain := congrArg Prod.fst (r.resolve_again c.parameters)
  exact hagain

theorem ownedReferences_resolved : c.resolved.ownedReferences =
    c.ownedReferences.map (OwnedReference.mapReference c.resolvedReference) :=
  c.ownedReferences_mapReferences _

theorem outcome_mapReference (o : OwnedReference) :
    (o.mapReference c.resolvedReference).outcome c.parameters =
      if o.outcome c.parameters = .resolved then .resolved else .skipped := by
  have hagain := congrArg Prod.snd (o.reference.resolve_again c.parameters)
  exact hagain

theorem resolved_resolved : c.resolved.resolved = c.resolved := by
  calc c.resolved.resolved
      = (c.mapReferences c.resolvedReference).mapReferences c.resolvedReference := rfl
    _ = c.mapReferences c.resolvedReference := by
      rw [mapReferences_mapReferences, resolvedReference_comp_self]

theorem outcome_of_mem_resolved {o : OwnedReference} (h : o ∈ c.resolved.ownedReferences) :
    o.outcome c.parameters = .resolved ∨ o.outcome c.parameters = .skipped := by
  rw [ownedReferences_resolved] at h
  obtain ⟨o, -, rfl⟩ := List.mem_map.1 h
  rw [outcome_mapReference]
  split_ifs
  · exact .inl rfl
  · exact .inr rfl

theorem resolveWarnings_resolved : c.resolved.resolveWarnings = [] := by
  refine List.filterMap_eq_nil_iff.2 fun o ho => ?_
  rw [OwnedReference.warning?]
  rcases c.outcome_of_mem_resolved ho with h | h
  · rw [show o.outcome c.resolved.parameters = .resolved from h]
  · rw [show o.outcome c.resolved.parameters = .skipped from h]

theorem count_resolved_resolved :
    (c.resolved.ownedReferences.map (OwnedReference.outcome c.parameters)).count .resolved =
      (c.ownedReferences.map (OwnedReference.outcome c.parameters)).count .resolved := by
  rw [ownedReferences_resolved, List.map_map, List.count, List.countP_map, List.countP_map]
  refine List.countP_congr fun o _ => ?_
  rw [Function.comp_apply, Function.comp_apply, outcome_mapReference, Function.comp_apply]
  split_ifs with h
  · simp [h]
  · simp [h]

theorem resolveReport_resolved : c.resolved.resolveReport =
    { resolved := c.resolveReport.resolved, literals := 0, unresolved := [] } := by
  rw [resolveReport, ResolveReport.mk.injEq]
  refine ⟨?_, ?_, ?_⟩
  · exact c.count_resolved_resolved
  · refine List.count_eq_zero.2 fun hmem => ?_
    obtain ⟨o, ho, hliteral⟩ := List.mem_map.1 hmem
    rcases c.outcome_of_mem_resolved ho with h | h
    · exact absurd (h.symm.trans hliteral) (by decide)
    · exact absurd (h.symm.trans hliteral) (by decide)
  · refine List.filterMap_eq_nil_iff.2 fun o ho => ?_
    rw [OwnedReference.unresolved?]
    rcases c.outcome_of_mem_resolved ho with h | h
    · rw [show o.outcome c.resolved.parameters = .resolved from h]
    · rw [show o.outcome c.resolved.parameters = .skipped from h]

/-- A second resolution changes nothing, warns of nothing, and counts what the first one counted as
resolved. -/
theorem resolution_idempotent :
    c.resolved.resolved = c.resolved ∧ c.resolved.resolveWarnings = [] ∧
    c.resolved.resolveReport =
      { resolved := c.resolveReport.resolved, literals := 0, unresolved := [] } :=
  ⟨c.resolved_resolved, c.resolveWarnings_resolved, c.resolveReport_resolved⟩

end

end Component

end RegAtlas
