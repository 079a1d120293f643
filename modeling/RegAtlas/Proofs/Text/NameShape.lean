import RegAtlas.Proofs.Text.NameCase

/-!
# The characters of converted names

No conversion puts white space, a colon, an equals sign or a slash into a name, so that a name can
be read back up to the first of them. The upper case form has no letters in lower case that the
Latin-1 range has in both cases, and names in it that differ still do when case is ignored.
-/

namespace RegAtlas.Text

/-- White space, colons, equals signs and slashes: what stands behind a name in a declaration or
begins a comment. -/
def endsName (c : Char) : Bool := isBlank c || c == ':' || c == '=' || c == '/'

/-- Ranges of code points without letters and digits that hold these characters. -/
def endRanges : List (Nat × Nat) :=
  [(0x9, 0x20), (0x21, 0x2F), (0x3A, 0x3A), (0x3D, 0x3D), (0x85, 0xA0), (0x1680, 0x1680),
    (0x2000, 0x205F), (0x3000, 0x3000)]

/-- The lower case letters of Latin-1 that have an upper case form in it. -/
def lowerLatinRanges : List (Nat × Nat) := [(0x61, 0x7A), (0xE0, 0xF6), (0xF8, 0xFE)]

/-- Their upper case forms. -/
def upperLatinRanges : List (Nat × Nat) := [(0x41, 0x5A), (0xC0, 0xD6), (0xD8, 0xDE)]

/-- The number lies in none of the ranges. -/
def Outside (ranges : List (Nat × Nat)) (n : Nat) : Prop := ∀ r ∈ ranges, n < r.1 ∨ r.2 < n

instance (ranges : List (Nat × Nat)) (n : Nat) : Decidable (Outside ranges n) :=
  inferInstanceAs (Decidable (∀ r ∈ ranges, n < r.1 ∨ r.2 < n))

theorem outside_append {ranges ranges' : List (Nat × Nat)} {n : Nat} :
    Outside (ranges ++ ranges') n ↔ Outside ranges n ∧ Outside ranges' n :=
  List.forall_mem_append

/-- The numbers from `first` to `last` lie in none of the ranges. -/
def clear (ranges : List (Nat × Nat)) (first last : Nat) : Bool :=
  ranges.all fun r => Nat.blt last r.1 || Nat.blt r.2 first

theorem outside_of_clear {ranges : List (Nat × Nat)} {first last n : Nat}
    (h : clear ranges first last) (hfirst : first ≤ n) (hlast : n ≤ last) : Outside ranges n := by
  intro r hr
  have hclear := List.all_eq_true.1 h r hr
  simp only [Bool.or_eq_true, Nat.blt_eq] at hclear
  omega

theorem lt_of_not_outside {ranges : List (Nat × Nat)} {n bound : Nat} (h : ¬Outside ranges n)
    (hbound : ∀ r ∈ ranges, r.2 < bound) : n < bound := by
  by_contra hle
  refine h fun r hr => .inr ?_
  have hlast := hbound r hr
  omega

theorem endsName_of_outside {c : Char} (h : Outside endRanges c.toNat) : endsName c = false := by
  have hne : ∀ d : Char, c.toNat ≠ d.toNat → c ≠ d := fun d h heq => h (heq ▸ rfl)
  have hcolon := hne ':' (h (0x3A, 0x3A) (by decide) |>.elim Nat.ne_of_lt Nat.ne_of_gt)
  have hequals := hne '=' (h (0x3D, 0x3D) (by decide) |>.elim Nat.ne_of_lt Nat.ne_of_gt)
  have hslash := hne '/' (h (0x21, 0x2F) (by decide) |>.elim
    (fun hlt => Nat.ne_of_lt (Nat.lt_trans hlt (by decide))) Nat.ne_of_gt)
  have hblank : isBlank c = false := by
    simp only [Outside, endRanges, List.forall_mem_cons] at h
    simp only [isBlank, Bool.or_eq_false_iff, Bool.and_eq_false_iff, decide_eq_false_iff_not,
      beq_eq_false_iff_ne]
    omega
  simp [endsName, hblank, hcolon, hequals, hslash]

/-! ### Mapping runs -/

/-- A code point has no image or one of the run that holds it. -/
theorem mapRuns_cases (table : List (Nat × Nat × Nat × Nat)) (n : Nat) :
    mapRuns table n = n ∨ ∃ run ∈ table, run.2.2.2 ≤ mapRuns table n ∧
      mapRuns table n ≤ run.2.2.2 + (run.2.1 - run.1) := by
  rw [mapRuns]
  split
  case h_1 first last step image hfind =>
    have hrun := List.find?_some hfind
    simp only [Bool.and_eq_true, decide_eq_true_eq] at hrun
    exact .inr ⟨_, List.mem_of_find?_eq_some hfind, Nat.le_add_right _ _,
      Nat.add_le_add_left (Nat.sub_le_sub_right hrun.1.2 first) image⟩
  case h_2 => exact .inl rfl

/-- Images lie outside of ranges that no run maps into. -/
theorem outside_mapRuns {table : List (Nat × Nat × Nat × Nat)} {ranges : List (Nat × Nat)} {n : Nat}
    (htable : table.all fun (first, last, _, image) => clear ranges image (image + (last - first)))
    (hself : mapRuns table n = n → Outside ranges n) : Outside ranges (mapRuns table n) := by
  obtain heq | ⟨run, hrun, hle, hle'⟩ := mapRuns_cases table n
  · exact heq.symm ▸ hself heq
  · exact outside_of_clear (List.all_eq_true.1 htable run hrun) hle hle'

theorem outside_toNat_ofNat {ranges : List (Nat × Nat)} {n : Nat} (h : Outside ranges n)
    (hzero : Outside ranges 0) : Outside ranges (Char.ofNat n).toNat := by
  by_cases hvalid : n.isValidChar
  case pos =>
    have hchar : Char.ofNat n = Char.ofNatAux n hvalid := dif_pos hvalid
    exact hchar ▸ h
  case neg =>
    have hchar : Char.ofNat n = Char.ofNat 0 := dif_neg hvalid
    exact hchar ▸ hzero

theorem outside_of_inRanges {table ranges : List (Nat × Nat)} {n : Nat} (h : inRanges table n)
    (hclear : table.all fun t => clear ranges t.1 t.2) : Outside ranges n := by
  obtain ⟨t, ht, hn⟩ := List.any_eq_true.1 h
  simp only [Bool.and_eq_true, decide_eq_true_eq] at hn
  exact outside_of_clear (List.all_eq_true.1 hclear t ht) hn.1 hn.2

/-! ### Forms of letters and digits -/

/-- The form of a character lies outside of ranges that no expansion and no image meets. -/
theorem outside_of_mem_form {ranges : List (Nat × Nat)} {expansions : List (Nat × List Nat)}
    {table : List (Nat × Nat × Nat × Nat)} {c d : Char} (hzero : Outside ranges 0)
    (hexpansions : ∀ p ∈ expansions, ∀ code ∈ p.2, Outside ranges (Char.ofNat code).toNat)
    (htable : table.all fun (first, last, _, image) => clear ranges image (image + (last - first)))
    (hself : mapRuns table c.toNat = c.toNat → Outside ranges c.toNat)
    (hd : d ∈ match expansions.lookup c.toNat with
      | some image => image.map Char.ofNat
      | none => [Char.ofNat (mapRuns table c.toNat)]) : Outside ranges d.toNat := by
  split at hd
  case h_1 image hlookup =>
    obtain ⟨code, hcode, rfl⟩ := List.mem_map.1 hd
    obtain ⟨before, behind, rfl, -⟩ := List.lookup_eq_some_iff.1 hlookup
    exact hexpansions (c.toNat, image) (by simp) code hcode
  case h_2 =>
    rw [List.mem_singleton.1 hd]
    exact outside_toNat_ofNat (outside_mapRuns htable hself) hzero

/-- Letters, digits and numbers that are no ASCII characters end no name. -/
theorem outside_of_isAlphanumeric {c : Char} (hc : isAlphanumeric c) (hascii : ¬c.toNat < 0x80) :
    Outside endRanges c.toNat := by
  rw [isAlphanumeric, if_neg hascii, Bool.or_eq_true, Bool.or_eq_true] at hc
  obtain (h | h) | h := hc
  · exact outside_of_inRanges h (by decide +kernel)
  · exact outside_of_inRanges h (by decide +kernel)
  · exact outside_of_inRanges h (by decide +kernel)

theorem outside_of_mem_upperForm {c d : Char} (hc : isAlphanumeric c) (hd : d ∈ upperForm c) :
    Outside (endRanges ++ lowerLatinRanges) d.toNat := by
  by_cases hascii : c.toNat < 0x80
  case pos =>
    have hall : ∀ c : Char, c.toNat < 0x80 → isAlphanumeric c →
        ∀ d ∈ upperForm c, Outside (endRanges ++ lowerLatinRanges) d.toNat :=
      forall_ascii (by decide +kernel)
    exact hall c hascii hc d hd
  case neg =>
    rw [upperForm, if_neg hascii] at hd
    refine outside_of_mem_form (by decide) (by decide +kernel) (by decide +kernel)
      (fun hself => outside_append.2 ⟨outside_of_isAlphanumeric hc hascii, ?_⟩) hd
    -- A lower case letter of Latin-1 has an image.
    have hlatin : ∀ n < 0x100, ¬Outside lowerLatinRanges n → mapRuns upperRuns n ≠ n := by
      decide +kernel
    by_contra hinside
    exact hlatin _ (lt_of_not_outside hinside (by decide)) hinside hself

theorem outside_of_mem_lowerForm {c d : Char} (hc : isAlphanumeric c) (hd : d ∈ lowerForm c) :
    Outside endRanges d.toNat := by
  by_cases hascii : c.toNat < 0x80
  case pos =>
    have hall : ∀ c : Char, c.toNat < 0x80 → isAlphanumeric c →
        ∀ d ∈ lowerForm c, Outside endRanges d.toNat := forall_ascii (by decide +kernel)
    exact hall c hascii hc d hd
  case neg =>
    rw [lowerForm, if_neg hascii] at hd
    exact outside_of_mem_form (by decide) (by decide) (by decide +kernel)
      (fun _ => outside_of_isAlphanumeric hc hascii) hd

/-! ### Converted names -/

theorem mem_intercalate {sep : List Char} {parts : List (List Char)} {c : Char}
    (h : c ∈ sep.intercalate parts) : c ∈ sep ∨ ∃ part ∈ parts, c ∈ part := by
  induction parts with
  | nil => simp at h
  | cons part parts ih =>
    cases parts with
    | nil => exact .inr ⟨part, by simp, by simpa using h⟩
    | cons next parts =>
      rw [List.intercalate_cons_cons, List.mem_append, List.mem_append] at h
      obtain (h | h) | h := h
      · exact .inr ⟨part, by simp, h⟩
      · exact .inl h
      · exact (ih h).imp_right fun ⟨other, hother, hc⟩ => ⟨other, List.mem_cons_of_mem _ hother, hc⟩

/-- A name that can be read back up to what stands behind it. -/
def IsPlainName (name : String) : Prop := ∀ c ∈ name.toList, endsName c = false

instance (name : String) : Decidable (IsPlainName name) :=
  inferInstanceAs (Decidable (∀ c ∈ name.toList, endsName c = false))

theorem outside_of_mem_shoutingSnake {name : String} {c : Char}
    (h : c ∈ (shoutingSnake name).toList) : Outside (endRanges ++ lowerLatinRanges) c.toNat := by
  rw [shoutingSnake, String.toList_ofList] at h
  obtain h | ⟨word, hword, hc⟩ := mem_intercalate h
  · rw [List.mem_singleton.1 h]
    decide
  · obtain ⟨word, hmem, rfl⟩ := List.mem_map.1 hword
    obtain ⟨d, hd, hc⟩ := List.mem_flatMap.1 hc
    exact outside_of_mem_upperForm ((mem_nameWords hmem).2 d hd).2 hc

theorem isPlainName_shoutingSnake (name : String) : IsPlainName (shoutingSnake name) :=
  fun _ hc => endsName_of_outside (outside_append.1 (outside_of_mem_shoutingSnake hc)).1

theorem hash_not_mem_shoutingSnake (name : String) : '#' ∉ (shoutingSnake name).toList := by
  intro h
  exact absurd (outside_of_mem_shoutingSnake h) (by decide)

theorem mem_lowerWord {word : List Char} {d : Char} (h : d ∈ lowerWord word) :
    d = 'ς' ∨ ∃ c ∈ word, d ∈ lowerForm c := by
  fun_induction lowerWord word with
  | case1 => simp at h
  | case2 => exact .inl (List.mem_singleton.1 h)
  | case3 c cs _ ih =>
    obtain h | h := List.mem_append.1 h
    · exact .inr ⟨c, by simp, h⟩
    · exact (ih h).imp_right fun ⟨c, hc, hd⟩ => ⟨c, List.mem_cons_of_mem _ hc, hd⟩

theorem isPlainName_snake (name : String) : IsPlainName (NameCase.snake.convert name) := by
  intro c hc
  rw [NameCase.convert, String.toList_ofList, NameCase.convertChars] at hc
  obtain h | ⟨word, hword, hc⟩ := mem_intercalate hc
  · rw [List.mem_singleton.1 h]
    decide
  · obtain ⟨word, hmem, rfl⟩ := List.mem_map.1 hword
    obtain rfl | ⟨d, hd, hc⟩ := mem_lowerWord hc
    · decide
    · exact endsName_of_outside (outside_of_mem_lowerForm ((mem_nameWords hmem).2 d hd).2 hc)

/-! ### Names up to case -/

/-- The lower case form of a Latin-1 letter. Other characters stay as they are. -/
def foldLatin (c : Char) : Char :=
  if Outside upperLatinRanges c.toNat then c else Char.ofNat (c.toNat + 0x20)

/-- The upper case form of a Latin-1 letter that has one in it. -/
def raiseLatin (c : Char) : Char :=
  if Outside lowerLatinRanges c.toNat then c else Char.ofNat (c.toNat - 0x20)

theorem raiseLatin_foldLatin {c : Char} (h : Outside lowerLatinRanges c.toNat) :
    raiseLatin (foldLatin c) = c := by
  rw [foldLatin]
  split
  case isTrue => rw [raiseLatin, if_pos h]
  case isFalse hupper =>
    have hcodes : ∀ n < 0x100, ¬Outside upperLatinRanges n →
        raiseLatin (Char.ofNat (n + 0x20)) = Char.ofNat n := by decide +kernel
    rw [hcodes _ (lt_of_not_outside hupper (by decide)) hupper, Char.ofNat_toNat]

/-- A name with the letters of Latin-1 in lower case. -/
def foldName (name : String) : String := String.ofList (name.toList.map foldLatin)

/-- A name without letters that Latin-1 has in upper case as well. -/
def IsRaised (name : String) : Prop := ∀ c ∈ name.toList, Outside lowerLatinRanges c.toNat

instance (name : String) : Decidable (IsRaised name) :=
  inferInstanceAs (Decidable (∀ c ∈ name.toList, Outside lowerLatinRanges c.toNat))

theorem isRaised_shoutingSnake (name : String) : IsRaised (shoutingSnake name) :=
  fun _ hc => (outside_append.1 (outside_of_mem_shoutingSnake hc)).2

theorem IsRaised.append {s t : String} (hs : IsRaised s) (ht : IsRaised t) :
    IsRaised (s ++ t) := by
  intro c hc
  rw [String.toList_append, List.mem_append] at hc
  exact hc.elim (hs c) (ht c)

/-- Such names are told apart without regard to case. -/
theorem IsRaised.foldName_inj {s t : String} (hs : IsRaised s) (ht : IsRaised t) :
    foldName s = foldName t ↔ s = t := by
  have hraise : ∀ s : String, IsRaised s →
      (foldName s).toList.map raiseLatin = s.toList := fun s hs => by
    rw [foldName, String.toList_ofList, List.map_map]
    exact (List.map_congr_left fun c hc => raiseLatin_foldLatin (hs c hc)).trans (List.map_id _)
  refine ⟨fun h => ?_, fun h => h ▸ rfl⟩
  rw [← String.toList_inj, ← hraise s hs, ← hraise t ht, h]

end RegAtlas.Text
