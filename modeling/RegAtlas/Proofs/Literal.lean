import Mathlib.Data.List.Forall2
import Mathlib.Data.Nat.Digits.Defs
import Mathlib.Tactic.IntervalCases
import RegAtlas.Literal
import RegAtlas.Proofs.Text.NameCase

/-!
# The grammar of literals

Which texts denote a number, told from their significant characters alone: numerals in their radix,
and the three forms of a literal that hold one. Every literal denotes a number below the bound, and
such a number is read back from its digits in decimal, or behind a lead in hexadecimal or binary, in
either case and behind any number of zeros.
-/

namespace RegAtlas.Literal

/-! ### Digits and numerals -/

/-- The character is the digit, a letter in either case. -/
def IsDigit (c : Char) (d : Nat) : Prop :=
  d < 16 ∧ (c = Nat.digitChar d ∨ c = (Nat.digitChar d).toUpper)

instance (c : Char) (d : Nat) : Decidable (IsDigit c d) := inferInstanceAs (Decidable (_ ∧ _))

/-- At least one digit of the radix, the highest first. -/
def Numeral (radix : Nat) (cs : List Char) (n : Nat) : Prop :=
  ∃ ds : List Nat, ds ≠ [] ∧ List.Forall₂ IsDigit cs ds ∧ (∀ d ∈ ds, d < radix) ∧
    Nat.ofDigits radix ds.reverse = n

theorem toNat_lt_of_digitValue? {c : Char} {d : Nat} (h : digitValue? c = some d) :
    c.toNat < 0x80 := by
  unfold digitValue? at h
  have hle (x : Char) (hx : c ≤ x) : c.toNat ≤ x.toNat := UInt32.le_iff_toNat_le.1 hx
  split_ifs at h with hdigit hlower hupper
  · exact (hle '9' hdigit.2).trans_lt (by decide)
  · exact (hle 'f' hlower.2).trans_lt (by decide)
  · exact (hle 'F' hupper.2).trans_lt (by decide)

theorem digitValue?_eq_some_iff {c : Char} {d : Nat} : digitValue? c = some d ↔ IsDigit c d := by
  constructor
  · intro h
    have hascii : ∀ c : Char, c.toNat < 0x80 → ∀ d ∈ digitValue? c, IsDigit c d :=
      Text.forall_ascii (by decide)
    exact hascii c (toNat_lt_of_digitValue? h) d h
  · rintro ⟨hd, hc⟩
    interval_cases d <;> rcases hc with rfl | rfl <;> decide

theorem radixDigit?_eq_some_iff {radix d : Nat} {c : Char} :
    radixDigit? radix c = some d ↔ IsDigit c d ∧ d < radix := by
  rw [radixDigit?, Option.filter_eq_some_iff, digitValue?_eq_some_iff, decide_eq_true_iff]

/-- Digits behind a value already read. -/
theorem digitsFrom?_eq_some_iff {radix value n : Nat} {cs : List Char} :
    digitsFrom? radix value cs = some n ↔ ∃ ds, List.Forall₂ IsDigit cs ds ∧
      (∀ d ∈ ds, d < radix) ∧ Nat.ofDigits radix ds.reverse + radix ^ ds.length * value = n := by
  induction cs generalizing value with
  | nil => simp [digitsFrom?]
  | cons c cs ih =>
    simp only [digitsFrom?, Option.bind_eq_some_iff, radixDigit?_eq_some_iff, ih,
      List.forall₂_cons_left_iff]
    have hvalue (d : Nat) (ds : List Nat) :
        Nat.ofDigits radix (d :: ds).reverse + radix ^ (d :: ds).length * value =
          Nat.ofDigits radix ds.reverse + radix ^ ds.length * (value * radix + d) := by
      simp only [List.reverse_cons, Nat.ofDigits_append, Nat.ofDigits_singleton,
        List.length_reverse, List.length_cons]
      ring
    constructor
    · rintro ⟨d, ⟨hc, hd⟩, ds, hcs, hds, rfl⟩
      exact ⟨d :: ds, ⟨d, ds, hc, hcs, rfl⟩, List.forall_mem_cons.2 ⟨hd, hds⟩, hvalue d ds⟩
    · rintro ⟨_, ⟨d, ds, hc, hcs, rfl⟩, hds, rfl⟩
      obtain ⟨hd, hds⟩ := List.forall_mem_cons.1 hds
      exact ⟨d, ⟨hc, hd⟩, ds, hcs, hds, (hvalue d ds).symm⟩

theorem digits?_eq_some_iff {radix n : Nat} {cs : List Char} :
    digits? radix cs = some n ↔ Numeral radix cs n ∧ n < bound := by
  cases cs with
  | nil => simp [digits?, Numeral]
  | cons c cs =>
    have hread : digits? radix (c :: cs) = (digitsFrom? radix 0 (c :: cs)).filter (· < bound) := rfl
    rw [hread, Option.filter_eq_some_iff, digitsFrom?_eq_some_iff, decide_eq_true_iff, Numeral]
    refine and_congr_left fun _ => exists_congr fun ds => ?_
    constructor
    · rintro ⟨hcs, hds, hn⟩
      refine ⟨?_, hcs, hds, by simpa using hn⟩
      rintro rfl
      cases hcs
    · rintro ⟨-, hcs, hds, hn⟩
      exact ⟨hcs, hds, by simpa using hn⟩

/-- A numeral, behind a plus sign or not. -/
def Signed (radix : Nat) (cs : List Char) (n : Nat) : Prop :=
  Numeral radix cs n ∨ ∃ digits, cs = '+' :: digits ∧ Numeral radix digits n

theorem Numeral.forall_isDigit {radix n : Nat} {cs : List Char} (h : Numeral radix cs n) :
    ∀ c ∈ cs, ∃ d < radix, IsDigit c d := by
  obtain ⟨ds, -, hcs, hds, -⟩ := h
  induction hcs with
  | nil => simp
  | cons hc _ ih =>
    obtain ⟨hd, hds⟩ := List.forall_mem_cons.1 hds
    exact List.forall_mem_cons.2 ⟨⟨_, hd, hc⟩, ih hds⟩

theorem Numeral.notMem {radix n : Nat} {c : Char} {cs : List Char} (h : Numeral radix cs n)
    (hc : ∀ d < 16, ¬ IsDigit c d) : c ∉ cs := by
  intro hmem
  obtain ⟨d, -, hd⟩ := h.forall_isDigit c hmem
  exact hc d hd.1 hd

theorem signed?_eq_some_iff {radix n : Nat} {cs : List Char} :
    signed? radix cs = some n ↔ Signed radix cs n ∧ n < bound := by
  unfold signed?
  split
  case h_1 digits =>
    rw [digits?_eq_some_iff, Signed]
    refine and_congr_left fun _ => ⟨fun h => .inr ⟨digits, rfl, h⟩, ?_⟩
    rintro (h | ⟨_, ⟨rfl⟩, h⟩)
    · exact absurd List.mem_cons_self (h.notMem (by decide))
    · exact h
  case h_2 hplus =>
    rw [digits?_eq_some_iff, Signed]
    refine and_congr_left fun _ => ⟨.inl, ?_⟩
    rintro (h | ⟨digits, rfl, -⟩)
    · exact h
    · exact absurd rfl (hplus digits)

/-! ### The forms of a literal -/

/-- The letters behind an apostrophe with the radices that they stand for. -/
def sizedLetters : List (Char × Nat) :=
  [('h', 16), ('H', 16), ('d', 10), ('D', 10), ('b', 2), ('B', 2), ('o', 8), ('O', 8)]

/-- The letters behind a leading zero with the radices that they stand for. -/
def leadLetters : List (Char × Nat) := [('x', 16), ('X', 16), ('b', 2), ('B', 2)]

/-- The significant characters of a literal and the number that it denotes. -/
inductive Spells : List Char → Nat → Prop
  /-- A size that does not matter, an apostrophe, and a letter for the radix. -/
  | sized {size rest : List Char} {letter : Char} {radix n : Nat} (hfirst : '\'' ∉ size)
      (hsize : ∀ c ∈ size, c.isDigit) (hletter : (letter, radix) ∈ sizedLetters)
      (hrest : Signed radix rest n) : Spells (size ++ '\'' :: letter :: rest) n
  /-- A zero and a letter for the radix. -/
  | led {rest : List Char} {letter : Char} {radix n : Nat} (hplain : '\'' ∉ rest)
      (hletter : (letter, radix) ∈ leadLetters) (hrest : Signed radix rest n) :
      Spells ('0' :: letter :: rest) n
  /-- Decimal digits without any of this. -/
  | decimal {cs : List Char} {n : Nat} (hplain : '\'' ∉ cs)
      (hlead : ∀ letter ∈ leadLetters.map Prod.fst, ¬ ['0', letter] <+: cs)
      (hcs : Signed 10 cs n) : Spells cs n

theorem letterRadix?_eq_some_iff {c : Char} {radix : Nat} :
    letterRadix? c = some radix ↔ (c, radix) ∈ sizedLetters := by
  have hascii : ∀ c : Char, c.toNat < 0x80 → ∀ radix ∈ letterRadix? c,
      (c, radix) ∈ sizedLetters := Text.forall_ascii (by decide)
  have hletters : ∀ x ∈ sizedLetters, letterRadix? x.1 = some x.2 := by decide
  constructor
  · intro h
    by_cases hc : c.toNat < 0x80
    · exact hascii c hc radix h
    · -- Other characters have no lower case form here.
      have hlower : c.toLower = c := by
        unfold Char.toLower
        rw [dif_neg]
        rintro ⟨-, hle⟩
        have := UInt32.le_iff_toNat_le.1 hle
        exact hc (this.trans_lt (by decide))
      rw [letterRadix?, hlower] at h
      split at h
      case h_5 => cases h
      all_goals exact absurd (by decide) hc
  · exact hletters (c, radix)

theorem sized?_eq_some_iff {cs : List Char} {n : Nat} : sized? cs = some n ↔
    ∃ letter rest radix, cs = letter :: rest ∧ (letter, radix) ∈ sizedLetters ∧
      Signed radix rest n ∧ n < bound := by
  cases cs with
  | nil => simp [sized?]
  | cons letter rest =>
    simp only [sized?, Option.bind_eq_some_iff, letterRadix?_eq_some_iff, signed?_eq_some_iff]
    constructor
    · rintro ⟨radix, hletter, hrest⟩
      exact ⟨letter, rest, radix, rfl, hletter, hrest⟩
    · rintro ⟨_, _, radix, ⟨rfl, rfl⟩, hletter, hrest⟩
      exact ⟨radix, hletter, hrest⟩

/-- A literal with an apostrophe is cut at the first one. -/
theorem spells_append_iff {size rest : List Char} {n : Nat} (hfirst : '\'' ∉ size) :
    Spells (size ++ '\'' :: rest) n ↔ (∀ c ∈ size, c.isDigit) ∧ ∃ letter digits radix,
      rest = letter :: digits ∧ (letter, radix) ∈ sizedLetters ∧ Signed radix digits n := by
  constructor
  · intro h
    generalize hs : size ++ '\'' :: rest = s at h
    cases h with
    | @sized size' digits letter radix _ hfirst' hsize hletter hrest =>
      have hcut := congrArg (Text.splitOnce? '\'') hs
      rw [Text.splitOnce?_append_cons hfirst, Text.splitOnce?_append_cons hfirst'] at hcut
      obtain ⟨rfl, rfl⟩ := Prod.mk.inj (Option.some.inj hcut)
      exact ⟨hsize, letter, digits, radix, rfl, hletter, hrest⟩
    | @led digits letter _ _ hplain hletter hrest =>
      have hmem : '\'' ∈ '0' :: letter :: digits := by simp [← hs]
      have hne : ∀ x ∈ leadLetters, '\'' ≠ x.1 := by decide
      simp only [List.mem_cons, hne _ hletter, hplain] at hmem
      exact absurd hmem (by decide)
    | decimal hplain _ _ => exact absurd (by simp [← hs]) hplain
  · rintro ⟨hsize, letter, digits, radix, rfl, hletter, hrest⟩
    exact .sized hfirst hsize hletter hrest

/-- A literal with a lead is read in the radix of its letter. -/
theorem spells_led_iff {rest : List Char} {letter : Char} {radix n : Nat}
    (hletter : (letter, radix) ∈ leadLetters) (hplain : '\'' ∉ '0' :: letter :: rest) :
    Spells ('0' :: letter :: rest) n ↔ Signed radix rest n := by
  constructor
  · intro h
    generalize hs : '0' :: letter :: rest = s at h
    cases h with
    | sized _ _ _ _ => exact absurd (by simp [hs]) hplain
    | @led _ _ radix' _ _ hletter' hrest =>
      obtain ⟨rfl, rfl⟩ := List.cons.inj (List.cons.inj hs).2
      have hunique : ∀ x ∈ leadLetters, ∀ y ∈ leadLetters, x.1 = y.1 → x.2 = y.2 := by decide
      obtain rfl : radix = radix' := hunique _ hletter _ hletter' rfl
      exact hrest
    | decimal _ hlead _ =>
      refine absurd ?_ (hlead letter (List.mem_map_of_mem hletter))
      exact ⟨rest, hs⟩
  · intro hrest
    have hrest' : '\'' ∉ rest := fun hmem => hplain (by simp [hmem])
    exact .led hrest' hletter hrest

/-- A literal with neither is decimal. -/
theorem spells_decimal_iff {cs : List Char} {n : Nat} (hplain : '\'' ∉ cs)
    (hlead : ∀ letter ∈ leadLetters.map Prod.fst, ¬ ['0', letter] <+: cs) :
    Spells cs n ↔ Signed 10 cs n := by
  constructor
  · intro h
    cases h with
    | sized _ _ _ _ => exact absurd (by simp) hplain
    | @led rest letter _ _ _ hletter _ =>
      exact absurd ⟨rest, rfl⟩ (hlead letter (List.mem_map_of_mem hletter))
    | decimal _ _ hcs => exact hcs
  · exact .decimal hplain hlead

theorem plain?_eq_some_iff {cs : List Char} {n : Nat} (hplain : '\'' ∉ cs) :
    plain? cs = some n ↔ Spells cs n ∧ n < bound := by
  unfold plain?
  split
  case h_1 =>
    have hx : ('x', 16) ∈ leadLetters := by decide
    rw [signed?_eq_some_iff, spells_led_iff hx hplain]
  case h_2 =>
    have hX : ('X', 16) ∈ leadLetters := by decide
    rw [signed?_eq_some_iff, spells_led_iff hX hplain]
  case h_3 =>
    have hb : ('b', 2) ∈ leadLetters := by decide
    rw [signed?_eq_some_iff, spells_led_iff hb hplain]
  case h_4 =>
    have hB : ('B', 2) ∈ leadLetters := by decide
    rw [signed?_eq_some_iff, spells_led_iff hB hplain]
  case h_5 hx hX hb hB =>
    rw [signed?_eq_some_iff, spells_decimal_iff hplain]
    rintro letter hletter ⟨rest, rfl⟩
    obtain rfl | rfl | rfl | rfl : letter = 'x' ∨ letter = 'X' ∨ letter = 'b' ∨ letter = 'B' := by
      simpa [leadLetters] using hletter
    · exact hx rest rfl
    · exact hX rest rfl
    · exact hb rest rfl
    · exact hB rest rfl

theorem parseChars?_eq_some_iff {cs : List Char} {n : Nat} :
    parseChars? cs = some n ↔ Spells (significant cs) n ∧ n < bound := by
  unfold parseChars?
  generalize significant cs = s
  dsimp only
  by_cases hquote : '\'' ∈ s
  · obtain ⟨size, rest, rfl, hfirst⟩ := List.eq_append_cons_of_mem hquote
    rw [Text.splitOnce?_append_cons hfirst, spells_append_iff hfirst]
    by_cases hsize : ∀ c ∈ size, c.isDigit
    · have hall : size.all Char.isDigit = true := List.all_eq_true.2 hsize
      simp only [hall, if_true, sized?_eq_some_iff]
      grind
    · have hall : ¬ size.all Char.isDigit = true := mt List.all_eq_true.1 hsize
      simp [hall, hsize]
  · rw [Text.splitOnce?_eq_none hquote]
    exact plain?_eq_some_iff hquote

theorem parse?_eq_some_iff {text : String} {n : Nat} :
    parse? text = some n ↔ Spells (significant text.toList) n ∧ n < bound :=
  parseChars?_eq_some_iff

theorem lt_bound_of_parse? {text : String} {n : Nat} (h : parse? text = some n) : n < bound :=
  (parse?_eq_some_iff.1 h).2

/-! ### Printed numerals -/

section

variable {radix n : Nat} {cs : List Char}

theorem Numeral.concat {c : Char} {d : Nat} (h : Numeral radix cs n) (hc : IsDigit c d)
    (hd : d < radix) : Numeral radix (cs ++ [c]) (n * radix + d) := by
  obtain ⟨ds, hne, hcs, hds, rfl⟩ := h
  refine ⟨ds ++ [d], by simp, ?_, ?_, ?_⟩
  · exact List.rel_append hcs (.cons hc .nil)
  · intro e he
    rcases List.mem_append.1 he with he | he
    · exact hds e he
    · rwa [List.mem_singleton.1 he]
  · simp [Nat.ofDigits_cons]
    ring

theorem isDigit_digitChar {d : Nat} (h : d < 16) : IsDigit (Nat.digitChar d) d := ⟨h, .inl rfl⟩

/-- A printed number is a numeral. -/
theorem numeral_toDigits (hradix : 1 < radix) (hhex : radix ≤ 16) (n : Nat) :
    Numeral radix (Nat.toDigits radix n) n := by
  induction n using Nat.strongRecOn with
  | ind n ih =>
    rcases Nat.lt_or_ge n radix with hlt | hge
    · rw [Nat.toDigits_of_lt_base hlt]
      refine ⟨[n], by simp, .cons (isDigit_digitChar (by omega)) .nil, ?_, by simp⟩
      simpa using hlt
    · rw [Nat.toDigits_of_base_le hradix hge]
      have hlast : n % radix < radix := Nat.mod_lt _ (by omega)
      have hdiv : n / radix < n := Nat.div_lt_self (by omega) hradix
      have hnumeral := (ih _ hdiv).concat (isDigit_digitChar (by omega)) hlast
      rwa [Nat.div_add_mod'] at hnumeral

/-- Zeros at the left end do not count. -/
theorem Numeral.padded (h : Numeral radix cs n) (hradix : 0 < radix) (k : Nat) :
    Numeral radix (List.replicate k '0' ++ cs) n := by
  induction k with
  | zero => exact h
  | succ k ih =>
    obtain ⟨ds, hne, hcs, hds, hn⟩ := ih
    refine ⟨0 :: ds, by simp, .cons (by decide) hcs, List.forall_mem_cons.2 ⟨hradix, hds⟩, ?_⟩
    simpa [Nat.ofDigits_append] using hn

theorem Numeral.map_toUpper (h : Numeral radix cs n) : Numeral radix (cs.map Char.toUpper) n := by
  have hupper : ∀ d < 16, (Nat.digitChar d).toUpper.toUpper = (Nat.digitChar d).toUpper := by decide
  obtain ⟨ds, hne, hcs, hds, hn⟩ := h
  refine ⟨ds, hne, ?_, hds, hn⟩
  rw [List.forall₂_map_left_iff]
  refine hcs.imp ?_
  rintro c d ⟨hd, rfl | rfl⟩
  · exact ⟨hd, .inr rfl⟩
  · exact ⟨hd, .inr (hupper d hd)⟩

theorem numeral_digits (hradix : 1 < radix) (hhex : radix ≤ 16) (width n : Nat) :
    Numeral radix (Text.digits radix width n).toList n := by
  rw [Text.digits, Text.toList_padStart, String.toList_ofList]
  exact (numeral_toDigits hradix hhex n).padded (by omega) _

theorem numeral_hexUpper (width n : Nat) : Numeral 16 (Text.hexUpper width n).toList n := by
  rw [Text.hexUpper, Text.toList_padStart, String.toList_ofList]
  exact (numeral_toDigits (by decide) (by decide) n).map_toUpper.padded (by decide) _

/-- A numeral of so many digits denotes a number below that power of the radix. -/
theorem Numeral.lt_pow (h : Numeral radix cs n) (hradix : 1 < radix) : n < radix ^ cs.length := by
  obtain ⟨ds, -, hcs, hds, rfl⟩ := h
  rw [hcs.length_eq, ← List.length_reverse]
  exact Nat.ofDigits_lt_base_pow_length hradix (by simpa using hds)

/-- A number below a power of the radix is printed in so many digits. -/
theorem length_digits {width : Nat} (hradix : 1 < radix) (hpos : 0 < width)
    (h : n < radix ^ width) : (Text.digits radix width n).length = width := by
  have hle := (Nat.length_toDigits_le_iff hradix hpos).2 h
  rw [Text.digits, Text.length_padStart, String.length_ofList]
  omega

theorem length_hexUpper {width : Nat} (hpos : 0 < width) (h : n < 16 ^ width) :
    (Text.hexUpper width n).length = width := by
  have hle := (Nat.length_toDigits_le_iff (by decide) hpos).2 h
  rw [Text.hexUpper, Text.length_padStart, String.length_ofList, List.length_map]
  omega

/-- Whole nibbles of hexadecimal digits hold as much as their bits. -/
theorem sixteen_pow_div_four {width : Nat} (h : 4 ∣ width) : 16 ^ (width / 4) = 2 ^ width := by
  rw [show 16 = 2 ^ 4 from rfl, ← Nat.pow_mul, Nat.mul_div_cancel' h]

/-- A text without white space and underscores is significant as a whole. -/
theorem significant_eq_self (h : ∀ c ∈ cs, Text.isBlank c = false ∧ c ≠ '_') :
    significant cs = cs := by
  rw [significant, Text.trimChars_of_forall_not_blank fun c hc => (h c hc).1, List.filter_eq_self]
  exact fun c hc => bne_iff_ne.2 (h c hc).2

theorem Numeral.forall_significant (h : Numeral radix cs n) :
    ∀ c ∈ cs, Text.isBlank c = false ∧ c ≠ '_' := by
  have hdigits : ∀ d < 16, ∀ c ∈ [Nat.digitChar d, (Nat.digitChar d).toUpper],
      Text.isBlank c = false ∧ c ≠ '_' := by decide
  intro c hc
  obtain ⟨d, -, hd, hchar⟩ := h.forall_isDigit c hc
  exact hdigits d hd c (by simpa using hchar)

/-- A numeral with a lead is read as its number. -/
theorem parse?_of_numeral {letter : Char} {text : String} (hletter : (letter, radix) ∈ leadLetters)
    (htext : text.toList = '0' :: letter :: cs) (h : Numeral radix cs n) (hn : n < bound) :
    parse? text = some n := by
  have hzero : Text.isBlank '0' = false ∧ '0' ≠ '_' := by decide
  have hletters : ∀ x ∈ leadLetters, Text.isBlank x.1 = false ∧ x.1 ≠ '_' := by decide
  have hself : significant ('0' :: letter :: cs) = '0' :: letter :: cs := by
    apply significant_eq_self
    simp only [List.forall_mem_cons]
    exact ⟨hzero, hletters (letter, radix) hletter, h.forall_significant⟩
  rw [parse?_eq_some_iff, htext, hself]
  exact ⟨.led (h.notMem (by decide)) hletter (.inl h), hn⟩

/-- A number below the bound is denoted by its digits. -/
theorem parse?_repr {n : Nat} (h : n < bound) : parse? n.repr = some n := by
  have hdigits := numeral_toDigits (by decide : 1 < 10) (by decide) n
  rw [parse?_eq_some_iff, Nat.toList_repr, significant_eq_self hdigits.forall_significant]
  refine ⟨.decimal (hdigits.notMem (by decide)) ?_ (.inl hdigits), h⟩
  intro letter hletter hlead
  obtain ⟨d, hd, hdigit⟩ := hdigits.forall_isDigit letter (hlead.subset (by simp))
  have hnone : ∀ letter ∈ leadLetters.map Prod.fst, ∀ d < 10, ¬ IsDigit letter d := by decide
  exact hnone letter hletter d hd hdigit

/-- A number below the bound is read back from its hexadecimal digits in capitals. -/
theorem parse?_hexUpper {n : Nat} (h : n < bound) (width : Nat) :
    parse? ("0x" ++ Text.hexUpper width n) = some n := by
  have hx : ('x', 16) ∈ leadLetters := by decide
  exact parse?_of_numeral hx (by simp) (numeral_hexUpper width n) h

end

/-! ### Reading literals -/

theorem Spells.ne_nil {cs : List Char} {n : Nat} (h : Spells cs n) : cs ≠ [] := by
  cases h with
  | sized _ _ _ _ => simp
  | led _ _ _ => simp
  | decimal _ _ hcs =>
    rintro rfl
    rcases hcs with ⟨ds, hne, hds, -⟩ | ⟨_, h, -⟩
    · cases hds
      exact hne rfl
    · cases h

/-- A text is read as a number if and only if its significant characters spell it, and a number is
read back from the texts that are printed for it. -/
theorem parse?_exact :
    (∀ (text : String) (n : Nat), parse? text = some n ↔
      let s := (Text.trim text).toList.filter (· != '_')
      s ≠ [] ∧ n < 2 ^ 64 ∧ Spells s n) ∧
    ∀ n < 2 ^ 64, parse? (toString n) = some n ∧ ∀ width,
      parse? ("0x" ++ Text.digits 16 width n) = some n ∧
      parse? ("0x" ++ Text.hexUpper width n) = some n ∧
      parse? ("0b" ++ Text.digits 2 width n) = some n := by
  constructor
  · intro text n
    have hs : (Text.trim text).toList.filter (· != '_') = significant text.toList := by
      rw [Text.trim, String.toList_ofList, significant]
    rw [parse?_eq_some_iff, hs]
    constructor
    · rintro ⟨hspells, hn⟩
      exact ⟨hspells.ne_nil, hn, hspells⟩
    · rintro ⟨-, hn, hspells⟩
      exact ⟨hspells, hn⟩
  · intro n hn
    have hx : ('x', 16) ∈ leadLetters := by decide
    have hb : ('b', 2) ∈ leadLetters := by decide
    refine ⟨parse?_repr hn, fun width => ⟨?_, ?_, ?_⟩⟩
    · exact parse?_of_numeral hx (by simp) (numeral_digits (by decide) (by decide) width n) hn
    · exact parse?_hexUpper hn width
    · exact parse?_of_numeral hb (by simp) (numeral_digits (by decide) (by decide) width n) hn

/-- The largest number, and a literal of 32 bits. -/
theorem parse?_exact_largest : (0xFFFFFFFFFFFFFFFF < 2 ^ 64) ∧
    parse? ("0x" ++ Text.digits 16 4 0xFFFFFFFFFFFFFFFF) = some 0xFFFFFFFFFFFFFFFF ∧
    Spells ((Text.trim " 32'hDEAD_BEEF\n").toList.filter (· != '_')) 0xDEADBEEF :=
  ⟨by decide, ((parse?_exact.2 _ (by decide)).2 4).1, ((parse?_exact.1 _ _).1 (by decide)).2.2⟩

example : parse? "x'h10" = none := by decide

end RegAtlas.Literal
