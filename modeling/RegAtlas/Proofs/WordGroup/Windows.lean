import RegAtlas.Proofs.Component.Layout

/-!
# Windows of word groups

Groups are determined by the windows that their first items open: every other item of a group lies
before the end of its window, and the next group begins at or behind it.
-/

namespace RegAtlas.WordGroup

variable {α : Type}

/-- Groups of items with the offsets that a function gives. -/
def groupBy (wordBytes : Nat) (offset : α → Nat) (items : List α) : List (List α) :=
  group wordBytes (keyedBy offset items)

/-- The groups fill their windows. `low j first` is the beginning of the window of the group at
place `j`, which begins with `first`. -/
structure FillsWindows (wordBytes : Nat) (offset : α → Nat) (low : Nat → α → Nat)
    (groups : List (List α)) : Prop where
  nonempty : ∀ g ∈ groups, g ≠ []
  inside : ∀ (j : Nat) (first : α) (rest : List α), groups[j]? = some (first :: rest) →
    ∀ a ∈ rest, offset a < windowEnd wordBytes (low j first)
  outside : ∀ (j : Nat) (first next : α) (rest others : List α),
    groups[j]? = some (first :: rest) → groups[j + 1]? = some (next :: others) →
    windowEnd wordBytes (low j first) ≤ offset next

/-- The first window begins at zero if it holds the first item. Every other window begins at the
offset of the first item of its group, rounded down to a multiple of four. -/
def groupLow (wordBytes : Nat) (offset : α → Nat) (j : Nat) (first : α) : Nat :=
  if j = 0 ∧ offset first < wordBytes then 0 else windowStart (offset first)

/-- The items in ascending order, cut into groups that fill their windows. -/
structure IsGrouping (wordBytes : Nat) (offset : α → Nat) (items : List α)
    (groups : List (List α)) : Prop where
  sorted : IsStableSort offset items groups.flatten
  windows : FillsWindows wordBytes offset (groupLow wordBytes offset) groups

/-! ### Lists of groups -/

section FillsWindows

variable {wordBytes : Nat} {offset : α → Nat} {low low' : Nat → α → Nat} {first : α}
  {rest : List α} {groups : List (List α)}

theorem head?_flatten_of_getElem? (h : groups[0]? = some (first :: rest)) :
    groups.flatten.head? = some first := by
  cases groups with
  | nil => simp at h
  | cons g groups => simp_all

theorem fillsWindows_nil : FillsWindows wordBytes offset low [] := by
  constructor <;> simp

theorem fillsWindows_cons : FillsWindows wordBytes offset low ((first :: rest) :: groups) ↔
    (∀ a ∈ rest, offset a < windowEnd wordBytes (low 0 first)) ∧
    (∀ next ∈ groups.flatten.head?, windowEnd wordBytes (low 0 first) ≤ offset next) ∧
    FillsWindows wordBytes offset (fun j => low (j + 1)) groups := by
  constructor
  · rintro ⟨nonempty, inside, outside⟩
    refine ⟨inside 0 first rest rfl, fun next hnext => ?_, ?_, ?_, ?_⟩
    · cases groups with
      | nil => simp at hnext
      | cons g groups =>
        obtain ⟨next', others, rfl⟩ := List.exists_cons_of_ne_nil (nonempty g (by simp))
        obtain rfl : next' = next := by simpa using hnext
        exact outside 0 first next' rest others rfl rfl
    · exact fun g hg => nonempty g (List.mem_cons_of_mem _ hg)
    · exact fun j => inside (j + 1)
    · exact fun j => outside (j + 1)
  · rintro ⟨hin, hout, nonempty, inside, outside⟩
    refine ⟨by simpa using nonempty, fun j => ?_, fun j => ?_⟩
    · cases j with
      | zero => rintro _ _ ⟨⟩; exact hin
      | succ j => exact inside j
    · cases j with
      | zero => rintro _ next _ others ⟨⟩ h; exact hout next (head?_flatten_of_getElem? h)
      | succ j => exact outside j

/-- Only the windows of the items that begin groups count. -/
theorem FillsWindows.congr (h : FillsWindows wordBytes offset low groups)
    (hlow : ∀ j first rest, groups[j]? = some (first :: rest) → low j first = low' j first) :
    FillsWindows wordBytes offset low' groups where
  nonempty := h.nonempty
  inside j first rest hj := hlow j first rest hj ▸ h.inside j first rest hj
  outside j first next rest others hj :=
    hlow j first rest hj ▸ h.outside j first next rest others hj

end FillsWindows

/-! ### Cutting -/

section Cut

variable {wordBytes low : Nat} {offset : α → Nat}

/-- The beginning of the window in which an item stands when the window at `low` is open. -/
def openedLow (wordBytes low offset : Nat) : Nat :=
  if windowEnd wordBytes low ≤ offset then windowStart offset else low

/-- The open group takes the items up to the end of its window. -/
theorem cutFrom_eq_cons {g : List α} (hg : g ≠ []) (items : List α) :
    cutFrom wordBytes low g (keyedBy offset items) =
      (g.reverse ++ items.takeWhile (offset · < windowEnd wordBytes low)) ::
        cutFrom wordBytes low [] (keyedBy offset
          (items.dropWhile (offset · < windowEnd wordBytes low))) := by
  induction items generalizing g with
  | nil => simp [keyedBy, cutFrom, hg]
  | cons a items ih =>
    by_cases ha : windowEnd wordBytes low ≤ offset a
    · have hnot : ¬ offset a < windowEnd wordBytes low := by omega
      simp [keyedBy, cutFrom, ha, hnot, hg]
    · have hlt : offset a < windowEnd wordBytes low := by omega
      have := ih (g := a :: g) (by simp)
      simpa [keyedBy, cutFrom, ha, hlt] using this

/-- The first item opens a window, or stands in the one that is open. -/
theorem cutFrom_nil_cons (a : α) (items : List α) :
    cutFrom wordBytes low [] (keyedBy offset (a :: items)) =
      (a :: items.takeWhile
          (offset · < windowEnd wordBytes (openedLow wordBytes low (offset a)))) ::
        cutFrom wordBytes (openedLow wordBytes low (offset a)) [] (keyedBy offset
          (items.dropWhile
            (offset · < windowEnd wordBytes (openedLow wordBytes low (offset a))))) := by
  have hopen : cutFrom wordBytes low [] (keyedBy offset (a :: items)) =
      cutFrom wordBytes (openedLow wordBytes low (offset a)) [a] (keyedBy offset items) := by
    by_cases ha : windowEnd wordBytes low ≤ offset a <;> simp [keyedBy, cutFrom, openedLow, ha]
  rw [hopen, cutFrom_eq_cons (by simp)]
  rfl

/-- The window of the group at place `j` when the window at `low` is open before the first group. -/
def windowLow (wordBytes low : Nat) (offset : α → Nat) (j : Nat) (first : α) : Nat :=
  if j = 0 then openedLow wordBytes low (offset first) else windowStart (offset first)

/-- Groups behind an open window fill the windows that their own first items open. -/
theorem fillsWindows_behind_iff {groups : List (List α)}
    (hout : ∀ next ∈ groups.flatten.head?, windowEnd wordBytes low ≤ offset next) :
    FillsWindows wordBytes offset (windowLow wordBytes low offset) groups ↔
      FillsWindows wordBytes offset (fun _ a => windowStart (offset a)) groups := by
  have hlow : ∀ j first rest, groups[j]? = some (first :: rest) →
      windowLow wordBytes low offset j first = windowStart (offset first) := by
    intro j first rest hj
    cases j with
    | zero => simp [windowLow, openedLow, hout first (head?_flatten_of_getElem? hj)]
    | succ j => rfl
  exact ⟨fun h => h.congr hlow, fun h => h.congr fun j first rest hj => (hlow j first rest hj).symm⟩

/-- Cutting loses no item and fills the windows. The induction is on the length of the list, because
every step goes on with what is behind a window. -/
theorem cutFrom_spec (wordBytes low : Nat) (offset : α → Nat) (items : List α) :
    (cutFrom wordBytes low [] (keyedBy offset items)).flatten = items ∧
    FillsWindows wordBytes offset (windowLow wordBytes low offset)
      (cutFrom wordBytes low [] (keyedBy offset items)) := by
  induction hn : items.length using Nat.strongRecOn generalizing items low with
  | _ n ih =>
    cases items with
    | nil => exact ⟨rfl, fillsWindows_nil⟩
    | cons a items =>
      rw [cutFrom_nil_cons]
      set low' := openedLow wordBytes low (offset a)
      set inWindow : α → Bool := (offset · < windowEnd wordBytes low')
      have hlt : (items.dropWhile inWindow).length < n := by
        have := (items.dropWhile_sublist inWindow).length_le
        simp only [List.length_cons] at hn
        omega
      obtain ⟨hflat, hfill⟩ := ih _ hlt low' (items.dropWhile inWindow) rfl
      have hout : ∀ next ∈ (cutFrom wordBytes low' []
          (keyedBy offset (items.dropWhile inWindow))).flatten.head?,
          windowEnd wordBytes low' ≤ offset next := by
        intro next hnext
        have := List.head?_dropWhile_not inWindow items
        rw [hflat] at hnext
        simpa [Option.mem_def.1 hnext, inWindow] using this
      constructor
      · simp [hflat]
      · refine fillsWindows_cons.2 ⟨fun b hb => ?_, hout, (fillsWindows_behind_iff hout).1 hfill⟩
        exact of_decide_eq_true (List.all_eq_true.1 (List.all_takeWhile (p := inWindow)) b hb)

/-- Groups that fill their windows are those that cutting their items gives. -/
theorem FillsWindows.eq_cutFrom {groups : List (List α)}
    (h : FillsWindows wordBytes offset (windowLow wordBytes low offset) groups) :
    groups = cutFrom wordBytes low [] (keyedBy offset groups.flatten) := by
  induction groups generalizing low with
  | nil => rfl
  | cons g groups ih =>
    obtain ⟨first, rest, rfl⟩ := List.exists_cons_of_ne_nil (h.nonempty g (by simp))
    obtain ⟨hin, hout, hmore⟩ := fillsWindows_cons.1 h
    rw [List.flatten_cons, List.cons_append, cutFrom_nil_cons]
    set low' := openedLow wordBytes low (offset first)
    set inWindow : α → Bool := (offset · < windowEnd wordBytes low')
    have hrest : ∀ a ∈ rest, inWindow a := fun a ha => decide_eq_true (hin a ha)
    have hnext : ∀ next ∈ groups.flatten.head?, inWindow next = false := fun next hnext =>
      decide_eq_false (Nat.not_lt.2 (hout next hnext))
    have htake : (rest ++ groups.flatten).takeWhile inWindow = rest := by
      rw [List.takeWhile_append_of_pos hrest]
      cases hflat : groups.flatten with
      | nil => simp
      | cons next others => simp [hnext next (by simp [hflat])]
    have hdrop : (rest ++ groups.flatten).dropWhile inWindow = groups.flatten := by
      rw [List.dropWhile_append_of_pos hrest]
      cases hflat : groups.flatten with
      | nil => simp
      | cons next others => simp [hnext next (by simp [hflat])]
    rw [htake, hdrop]
    exact congrArg _ (ih ((fillsWindows_behind_iff hout).2 hmore))

end Cut

/-! ### Groups -/

section Groups

variable {wordBytes : Nat} {offset : α → Nat} {items g : List α} {groups : List (List α)}

theorem windowLow_zero (offset : α → Nat) (hw : wordBytes ≤ maxOffset) :
    windowLow wordBytes 0 offset = groupLow wordBytes offset := by
  have hend : windowEnd wordBytes 0 = wordBytes := by
    simp only [windowEnd]
    omega
  funext j first
  by_cases hj : j = 0 <;> by_cases hf : offset first < wordBytes <;>
    simp [windowLow, openedLow, groupLow, hend, hj, hf, Nat.not_le.2, Nat.not_lt.1]

/-- Groups are determined by their items and their windows. -/
theorem isGrouping_iff (hw : wordBytes ≤ maxOffset) :
    IsGrouping (max wordBytes 1) offset items groups ↔ groups = groupBy wordBytes offset items := by
  have hlow : windowLow (max wordBytes 1) 0 offset = groupLow (max wordBytes 1) offset :=
    windowLow_zero offset (Nat.max_le.2 ⟨hw, by decide⟩)
  have hcut : groupBy wordBytes offset items =
      cutFrom (max wordBytes 1) 0 [] (keyedBy offset (inOrder offset items)) := by
    rw [groupBy, group, sortByOffset_keyedBy]
  rw [hcut]
  constructor
  · rintro ⟨hsorted, hwindows⟩
    rw [← hlow] at hwindows
    rw [← hsorted.eq_inOrder]
    exact hwindows.eq_cutFrom
  · rintro rfl
    obtain ⟨hflat, hwindows⟩ := cutFrom_spec (max wordBytes 1) 0 offset (inOrder offset items)
    exact ⟨hflat.symm ▸ isStableSort_inOrder offset items, hlow ▸ hwindows⟩

theorem isGrouping_groupBy (offset : α → Nat) (items : List α) (hw : wordBytes ≤ maxOffset) :
    IsGrouping (max wordBytes 1) offset items (groupBy wordBytes offset items) :=
  (isGrouping_iff hw).2 rfl

/-- Cutting keeps the ascending order. -/
theorem flatten_groupBy (wordBytes : Nat) (offset : α → Nat) (items : List α) :
    (groupBy wordBytes offset items).flatten = inOrder offset items := by
  rw [groupBy, group, sortByOffset_keyedBy]
  exact (cutFrom_spec _ 0 offset _).1

theorem forall_mem_groupBy {p : α → Prop} :
    (∀ g ∈ groupBy wordBytes offset items, ∀ a ∈ g, p a) ↔ ∀ a ∈ items, p a := by
  have hmem : ∀ a, a ∈ (groupBy wordBytes offset items).flatten ↔ a ∈ items := by
    simp [flatten_groupBy]
  simp only [← hmem, List.mem_flatten]
  exact ⟨fun h a ⟨g, hg, ha⟩ => h g hg a ha, fun h g hg a ha => h a ⟨g, hg, ha⟩⟩

theorem flatMap_groupBy {β : Type} (f : α → List β) :
    (groupBy wordBytes offset items).flatMap (fun g => g.flatMap f) =
      (inOrder offset items).flatMap f := by
  rw [← flatten_groupBy wordBytes, ← List.flatMap_id, List.flatMap_assoc]
  rfl

/-- A group is ascending, and its items stand before the end of its window. -/
theorem group_cases (hw : wordBytes ≤ maxOffset) (hg : g ∈ groupBy wordBytes offset items) :
    ∃ j first rest, g = first :: rest ∧ ∀ a ∈ rest, offset first ≤ offset a ∧
      offset a < windowEnd (max wordBytes 1) (groupLow (max wordBytes 1) offset j first) := by
  obtain ⟨hsorted, hwindows⟩ := isGrouping_groupBy offset items hw
  obtain ⟨first, rest, rfl⟩ := List.exists_cons_of_ne_nil (hwindows.nonempty g hg)
  obtain ⟨j, hj⟩ := List.getElem?_of_mem hg
  have hasc := hsorted.ascending.sublist (List.sublist_flatten_of_mem hg)
  exact ⟨j, first, rest, rfl, fun a ha =>
    ⟨List.rel_of_pairwise_cons hasc ha, hwindows.inside j first rest hj a ha⟩⟩

/-- If windows begin at aligned access words, the items of a group share one access word. -/
theorem div_eq_of_mem_group (hw : wordBytes ∣ 4) (hg : g ∈ groupBy wordBytes offset items) {a b : α}
    (ha : a ∈ g) (hb : b ∈ g) : offset a / wordBytes = offset b / wordBytes := by
  have hle : wordBytes ≤ 4 := Nat.le_of_dvd (by omega) hw
  obtain ⟨j, first, rest, rfl, hrest⟩ := group_cases (Nat.le_trans hle (by decide)) hg
  have hfirst : ∀ c ∈ first :: rest, offset c / wordBytes = offset first / wordBytes := by
    intro c hc
    rcases List.mem_cons.1 hc with rfl | hc
    · rfl
    · obtain ⟨hge, hlt⟩ := hrest c hc
      simp only [windowEnd, groupLow, windowStart] at hlt
      have hcases : wordBytes = 1 ∨ wordBytes = 2 ∨ wordBytes = 4 := by
        have : wordBytes ≠ 0 := by rintro rfl; simp at hw
        have : wordBytes ≠ 3 := by rintro rfl; omega
        omega
      rcases hcases with rfl | rfl | rfl <;> split at hlt <;> omega
  rw [hfirst a ha, hfirst b hb]

/-- With words of four bytes, later groups have later words. -/
theorem FillsWindows.pairwise_div {low : Nat → α → Nat} (h : FillsWindows 4 offset low groups)
    (hlow : ∀ j first, low j first = windowStart (offset first))
    (hasc : groups.flatten.Pairwise fun a b => offset a ≤ offset b)
    (hbound : ∀ a ∈ groups.flatten, offset a + 4 ≤ maxOffset) :
    groups.Pairwise fun g g' => ∀ a ∈ g, ∀ b ∈ g', offset a / 4 < offset b / 4 := by
  induction groups generalizing low with
  | nil => exact .nil
  | cons g groups ih =>
    obtain ⟨first, rest, rfl⟩ := List.exists_cons_of_ne_nil (h.nonempty g (by simp))
    obtain ⟨hin, hout, hmore⟩ := fillsWindows_cons.1 h
    rw [List.flatten_cons, List.pairwise_append] at hasc
    simp only [List.flatten_cons, List.mem_append] at hbound
    refine List.pairwise_cons.2 ⟨fun g' hg' a ha b hb => ?_, ih hmore (fun j => hlow (j + 1))
      hasc.2.1 fun c hc => hbound c (.inr hc)⟩
    have hfirst := hbound first (.inl (by simp))
    have hb' : b ∈ groups.flatten := List.mem_flatten.2 ⟨g', hg', hb⟩
    have hab : offset a < windowStart (offset first) + 4 := by
      rcases List.mem_cons.1 ha with rfl | ha
      · simp only [windowStart]
        omega
      · have := hin a ha
        rw [hlow] at this
        exact Nat.lt_of_lt_of_le this (Nat.min_le_left _ _)
    -- The first item behind the window has the least offset of those behind it.
    have hnext : windowEnd 4 (low 0 first) ≤ offset b := by
      cases hflat : groups.flatten with
      | nil => simp [hflat] at hb'
      | cons next others =>
        rw [hflat] at hb' hout
        have hle := hout next rfl
        rcases List.mem_cons.1 hb' with rfl | hb'
        · exact hle
        · have := hflat ▸ hasc.2.1
          exact Nat.le_trans hle ((List.pairwise_cons.1 this).1 b hb')
    rw [hlow] at hnext
    simp only [windowEnd, windowStart] at hab hnext
    omega

end Groups

/-! ### Registers -/

section Registers

variable {wordBytes : Nat} {rs : List Register}

theorem gives_registers (wordBytes : Nat) (rs : List Register) :
    Gives (registers wordBytes rs) (∀ r ∈ rs, numberOf? r.offset ≠ none)
      (groupBy wordBytes Register.start rs) :=
  (gives_keyed fun r _ => r.gives_byteOffset).bind_pure

/-- Registers are grouped by their offsets. -/
theorem registers_eq_ok {place : Register → Nat} (h : ∀ r ∈ rs, r.byteOffset = .ok (place r)) :
    registers wordBytes rs = .ok (groupBy wordBytes place rs) := by
  have hplace : ∀ r ∈ rs, numberOf? r.offset ≠ none ∧ r.start = place r := fun r hr =>
    r.gives_byteOffset.eq_ok_iff.1 (h r hr)
  have hkeys : keyedBy Register.start rs = keyedBy place rs :=
    List.map_congr_left fun r hr => by rw [(hplace r hr).2]
  rw [(gives_registers wordBytes rs).ok fun r hr => (hplace r hr).1, groupBy, groupBy, hkeys]

/-- Grouping registers fails if one of them has no offset. -/
theorem registers_eq_error_iff : (∃ fault, registers wordBytes rs = .error fault) ↔
    ∃ r ∈ rs, numberOf? r.offset = none := by
  simp [(gives_registers wordBytes rs).fails_iff]

end Registers

/-- Grouping in full: the groups are the only ones that hold the items in ascending order and fill
their windows; with words of four bytes, items share a group exactly when they share a word; and
registers are grouped by their offsets, unless one of them has none. -/
theorem groupBy_exact (wordBytes : Nat) (offset : α → Nat) (items : List α)
    (hw : wordBytes ≤ maxOffset) :
    (∀ groups, IsGrouping (max wordBytes 1) offset items groups ↔
      groups = groupBy wordBytes offset items) ∧
    (wordBytes = 4 → (∀ a ∈ items, offset a + 4 ≤ maxOffset) →
      (∀ g ∈ groupBy wordBytes offset items, ∀ a ∈ g, ∀ b ∈ g, offset a / 4 = offset b / 4) ∧
      (groupBy wordBytes offset items).Pairwise fun g g' =>
        ∀ a ∈ g, ∀ b ∈ g', offset a / 4 ≠ offset b / 4) ∧
    (∀ (rs : List Register) (place : Register → Nat),
      (∀ r ∈ rs, r.byteOffset = .ok (place r)) →
      registers wordBytes rs = .ok (groupBy wordBytes place rs)) ∧
    ∀ rs : List Register, (∃ fault, registers wordBytes rs = .error fault) ↔
      ∃ r ∈ rs, numberOf? r.offset = none := by
  refine ⟨fun groups => isGrouping_iff hw, ?_, fun rs place => registers_eq_ok,
    fun rs => registers_eq_error_iff⟩
  rintro rfl hbound
  refine ⟨fun g hg a ha b hb => div_eq_of_mem_group (by decide) hg ha hb, ?_⟩
  obtain ⟨hsorted, hwindows⟩ := isGrouping_groupBy offset items hw
  have hlow : ∀ j first, groupLow 4 offset j first = windowStart (offset first) := by
    intro j first
    simp only [groupLow, windowStart]
    split <;> omega
  refine (hwindows.pairwise_div hlow hsorted.ascending fun a ha => ?_).imp ?_
  · exact hbound a (hsorted.perm.mem_iff.1 ha)
  · exact fun hlt a ha b hb => Nat.ne_of_lt (hlt a ha b hb)

/-- A window of eight bytes that begins at twelve. -/
theorem groupBy_exact_wide :
    8 ≤ maxOffset ∧ IsGrouping 8 (fun n => n) [18, 0, 12] [[0], [12, 18]] ∧
    groupBy 4 (fun n => n) [8, 0, 4, 2] = [[0, 2], [4], [8]] ∧
    (groupBy 4 (fun n => n) [8, 0, 4, 2]).Pairwise fun g g' =>
      ∀ a ∈ g, ∀ b ∈ g', a / 4 ≠ b / 4 := by
  refine ⟨by decide, ?_, by cbv, ?_⟩
  · exact ((groupBy_exact 8 (fun n => n) [18, 0, 12] (by decide)).1 _).2 (by cbv)
  · exact ((groupBy_exact 4 (fun n => n) [8, 0, 4, 2] (by decide)).2.1 rfl (by decide)).2

end RegAtlas.WordGroup
