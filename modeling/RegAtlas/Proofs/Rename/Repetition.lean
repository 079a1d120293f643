import RegAtlas.Proofs.Rename.Effect
import RegAtlas.Proofs.Text.NameCase

/-!
# Renaming twice

A renaming done again changes nothing exactly if every name that it gives converts to itself. Words
joined by underscores do; capitalized words do unless one of them ends in a capital that the next
one goes on with, as in `AB` from `a_b`, which is one word when it is cut again.
-/

namespace RegAtlas

open Text (IsAscii CapitalsApart NameCase)

namespace RenameOptions

variable {o : RenameOptions}

theorem changes_eq_nil_iff {s : Siblings} : o.changes s = [] ↔ s.KeptBy o.newName := by
  rw [changes_eq, List.filterMap_eq_nil_iff]
  refine forall₂_congr fun name _ => ?_
  rw [change?]
  split <;> simp_all

theorem newName_newName_iff {kind : NameKind} {name : String} :
    o.newName kind (o.newName kind name) = o.newName kind name ↔ (kind ∈ o.kinds →
      o.target.convert (o.target.convert name) = o.target.convert name) := by
  by_cases h : kind ∈ o.kinds <;> simp [newName, h]

end RenameOptions

namespace Component

variable {o : RenameOptions} {c : Component}

/-- The names below the component are made of ASCII characters. -/
def AsciiNames (c : Component) : Prop := ∀ s ∈ c.siblings, ∀ name ∈ s.names, IsAscii name.toList

instance (c : Component) : Decidable c.AsciiNames :=
  inferInstanceAs (Decidable (∀ s ∈ c.siblings, ∀ name ∈ s.names, IsAscii name.toList))

/-- The capitals of the new names begin words, where words are capitalized. -/
def NewCapitalsApart (o : RenameOptions) (c : Component) : Prop :=
  ∀ s ∈ c.siblings, s.kind ∈ o.kinds → ∀ name ∈ s.names,
    o.target = .snake ∨ CapitalsApart (o.target.convert name).toList

instance (o : RenameOptions) (c : Component) : Decidable (c.NewCapitalsApart o) :=
  inferInstanceAs (Decidable (∀ s ∈ c.siblings, s.kind ∈ o.kinds → ∀ name ∈ s.names,
    o.target = .snake ∨ CapitalsApart (o.target.convert name).toList))

/-- A renaming changes nothing exactly if siblings of selected kinds have names of their own, and
every name is its own new name. -/
theorem rename_eq_self_iff : c.rename o = (c, .ok {}) ↔
    (∀ s ∈ c.siblings, s.kind ∈ o.kinds → s.names.Nodup) ∧
      ∀ s ∈ c.siblings, s.KeptBy o.newName := by
  constructor
  · intro h
    have hok : (c.rename o).2 = .ok {} := by rw [h]
    obtain ⟨count, hrename⟩ := rename_of_no_fault (no_fault_of_rename hok)
    constructor
    · have hnodup := (nodup_namesOf_iff _).1 (nodup_of_rename hok)
      rwa [h] at hnodup
    · have hchanges : c.siblings.flatMap o.changes = [] := by
        rw [hrename] at hok
        exact congrArg RenameReport.renamed (Except.ok.inj hok)
      exact fun s hs => RenameOptions.changes_eq_nil_iff.1 (List.flatMap_eq_nil_iff.1 hchanges s hs)
  · rintro ⟨hnodup, hkept⟩
    have hnone : c.siblings.findSome? o.collision? = none :=
      List.findSome?_eq_none_iff.2 fun s hs =>
        RenameOptions.collision?_eq_none_iff.2 (hnodup s hs)
    have hchanges : c.siblings.flatMap o.changes = [] :=
      List.flatMap_eq_nil_iff.2 fun s hs => RenameOptions.changes_eq_nil_iff.2 (hkept s hs)
    rw [rename, mapNames_eq_self_iff.2 hkept]
    simp [hnone, hchanges]

/-- The names after a renaming are their own new names if converting twice is converting once. -/
theorem keptBy_rename_iff : (∀ s ∈ (c.rename o).1.siblings, s.KeptBy o.newName) ↔
    ∀ s ∈ c.siblings, s.kind ∈ o.kinds → ∀ name ∈ s.names,
      o.target.convert (o.target.convert name) = o.target.convert name := by
  have hnode : ∀ s : Siblings, ∀ i : Item,
      (Siblings.mk s.kind (i.newName o.newName) (s.names.map (o.newName s.kind))).KeptBy
        o.newName ↔ (s.kind ∈ o.kinds → ∀ name ∈ s.names,
          o.target.convert (o.target.convert name) = o.target.convert name) := by
    intro s i
    rw [Siblings.KeptBy, List.forall_mem_map]
    simp only [RenameOptions.newName_newName_iff]
    exact ⟨fun h hkind name hname => h name hname hkind,
      fun h name hname hkind => h hkind name hname⟩
  rw [siblings_rename, siblings]
  simp only [List.mem_filterMap, RenameOptions.renamedSiblings?_eq_some_iff]
  constructor
  · rintro h s ⟨i, hi, hs⟩
    exact (hnode s i).1 (h _ ⟨i, hi, s, hs, rfl⟩)
  · rintro h _ ⟨i, hi, s, hs, rfl⟩
    exact (hnode s i).2 (h s ⟨i, hi, hs⟩)

/-- A renaming that succeeded succeeds again, reports nothing and leaves the tree as it is, exactly
if the capitals of the new names begin words. -/
theorem rename_rename_iff {report : RenameReport} (hascii : c.AsciiNames)
    (hok : (c.rename o).2 = .ok report) :
    (c.rename o).1.rename o = ((c.rename o).1, .ok {}) ↔ c.NewCapitalsApart o := by
  have hnodup := (nodup_namesOf_iff _).1 (nodup_of_rename hok)
  rw [rename_eq_self_iff, and_iff_right hnodup, keptBy_rename_iff]
  exact forall₂_congr fun s hs => forall_congr' fun _ => forall₂_congr fun name hname =>
    o.target.convert_convert_iff (hascii s hs name hname)

/-- A component with memory maps of the names. -/
def ofMapNames (names : List String) : Component where
  memoryMaps := names.map fun name => { name }

theorem rename_rename_iff_words :
    (ofMapNames ["RX_DATA"]).AsciiNames ∧
    ((ofMapNames ["RX_DATA"]).rename { target := .upperCamel }).2 =
      .ok ⟨[("RX_DATA", "RxData")], 0⟩ ∧
    ((ofMapNames ["RX_DATA"]).rename { target := .upperCamel }).1.rename { target := .upperCamel } =
      (((ofMapNames ["RX_DATA"]).rename { target := .upperCamel }).1, .ok {}) :=
  have hok : ((ofMapNames ["RX_DATA"]).rename { target := .upperCamel }).2 =
      .ok ⟨[("RX_DATA", "RxData")], 0⟩ := rfl
  ⟨by decide, hok, (rename_rename_iff (by decide) hok).2 (by decide)⟩

/-- Words of one letter run together: two maps get names of their own first, and one name when the
renaming is done again. -/
theorem rename_letters_twice :
    (ofMapNames ["a_b", "ab"]).AsciiNames ∧
    (ofMapNames ["a_b", "ab"]).rename { target := .upperCamel } =
      (ofMapNames ["AB", "Ab"], .ok ⟨[("a_b", "AB"), ("ab", "Ab")], 0⟩) ∧
    ((ofMapNames ["AB", "Ab"]).rename { target := .upperCamel }).2 =
      .error (.nameCollision "memory map" "Ab" "") :=
  ⟨by decide, rfl, rfl⟩

end Component

end RegAtlas
