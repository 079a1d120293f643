import Mathlib.Data.List.Basic
import RegAtlas.Proofs.Text.Cut
import RegAtlas.Text.NameCase

/-!
# Converting a name twice

The conversion to words joined by underscores gives the same name when it is done again. The
conversion to capitalized words does so exactly if the cutting finds the capitals of the result
again, which it does not where a word of one letter ends in a capital that the next word goes on
with. All this is about names of ASCII characters.
-/

namespace RegAtlas.Text

/-! ### ASCII characters -/

def IsAscii (cs : List Char) : Prop := ∀ c ∈ cs, c.toNat < 0x80

instance (cs : List Char) : Decidable (IsAscii cs) :=
  inferInstanceAs (Decidable (∀ c ∈ cs, c.toNat < 0x80))

@[simp] theorem isAscii_cons {c : Char} {cs : List Char} :
    IsAscii (c :: cs) ↔ c.toNat < 0x80 ∧ IsAscii cs := List.forall_mem_cons

/-- What holds of each code point holds of each character. -/
theorem forall_ascii {p : Char → Prop} (h : ∀ n < 0x80, p (Char.ofNat n)) (c : Char)
    (hc : c.toNat < 0x80) : p c := Char.ofNat_toNat c ▸ h c.toNat hc

/-- The mappings of a character to upper and to lower case, and when they change nothing. -/
structure AsciiCases (c : Char) : Prop where
  upper : upperForm c = [c.toUpper] ∧ isLower c.toUpper = false
  lower : lowerForm c = [c.toLower] ∧ isUpper c.toLower = false
  ascii : c.toUpper.toNat < 0x80 ∧ c.toLower.toNat < 0x80
  alphanumeric : isAlphanumeric c → isAlphanumeric c.toUpper ∧ isAlphanumeric c.toLower
  upper_eq : c.toUpper = c ↔ isLower c = false
  lower_eq : c.toLower = c ↔ isUpper c = false
  apart : isLower c → isUpper c = false

theorem asciiCases (c : Char) (hc : c.toNat < 0x80) : AsciiCases c := by
  revert c
  apply forall_ascii
  intro n hn
  constructor <;> revert n <;> decide

theorem lowerWord_eq_map {cs : List Char} (h : IsAscii cs) :
    lowerWord cs = cs.map Char.toLower := by
  induction cs with
  | nil => rfl
  | cons c cs ih =>
    obtain ⟨hc, hcs⟩ := isAscii_cons.1 h
    rw [lowerWord, (asciiCases c hc).lower.1, ih hcs]
    · rfl
    · -- The sigma is no ASCII character.
      rintro rfl -
      exact absurd hc (by decide)

/-- A text without capitals is its own lower case form. -/
theorem lowerWord_eq_self_iff {cs : List Char} (h : IsAscii cs) :
    lowerWord cs = cs ↔ ∀ c ∈ cs, isUpper c = false := by
  rw [lowerWord_eq_map h]
  simpa using (List.map_inj_left (l := cs) (f := Char.toLower) (g := id)).trans
    (forall₂_congr fun c hc => (asciiCases c (h c hc)).lower_eq)

theorem capitalizeWord_cons {c : Char} {cs : List Char} (h : IsAscii (c :: cs)) :
    capitalizeWord (c :: cs) = c.toUpper :: cs.map Char.toLower := by
  obtain ⟨hc, hcs⟩ := isAscii_cons.1 h
  rw [capitalizeWord, (asciiCases c hc).upper.1, lowerWord_eq_map hcs]
  rfl

theorem length_capitalizeWord {cs : List Char} (h : IsAscii cs) :
    (capitalizeWord cs).length = cs.length := by
  cases cs with
  | nil => rfl
  | cons c cs => simp [capitalizeWord_cons h]

/-! ### Capitalized words -/

/-- A word with a capital or a digit at its beginning and no capital behind it is left as it is. -/
theorem capitalizeWord_eq_self_iff {c : Char} {cs : List Char} (h : IsAscii (c :: cs)) :
    capitalizeWord (c :: cs) = c :: cs ↔ isLower c = false ∧ ∀ d ∈ cs, isUpper d = false := by
  obtain ⟨hc, hcs⟩ := isAscii_cons.1 h
  rw [capitalizeWord_cons h, List.cons.injEq, (asciiCases c hc).upper_eq, ← lowerWord_eq_map hcs,
    lowerWord_eq_self_iff hcs]

theorem capitalizeWord_concat_iff {word : List Char} {c : Char} (hne : word ≠ [])
    (h : IsAscii (word ++ [c])) : capitalizeWord (word ++ [c]) = word ++ [c] ↔
      capitalizeWord word = word ∧ isUpper c = false := by
  obtain ⟨d, word, rfl⟩ := List.exists_cons_of_ne_nil hne
  have hword : IsAscii (d :: word) := fun x hx => h x (List.mem_append_left _ hx)
  rw [capitalizeWord_eq_self_iff hword, and_assoc]
  refine (capitalizeWord_eq_self_iff h).trans (and_congr_right' ?_)
  exact List.forall_mem_append.trans (and_congr_right' List.forall_mem_singleton)

/-- A word and a text behind it are left as they are if each of them is. -/
theorem capitalizeWord_append_iff {word tail tail' : List Char} (h : IsAscii word) :
    capitalizeWord word ++ tail = word ++ tail' ↔ capitalizeWord word = word ∧ tail = tail' :=
  ⟨fun heq => List.append_inj heq (length_capitalizeWord h), fun ⟨hword, htail⟩ => by
    rw [hword, htail]⟩

/-! ### Cutting at capitals -/

/-- Every capital begins a word when the last letter before the text has the case: that letter is in
lower case, or it is a capital and a letter in lower case follows the new one. -/
def CapitalsBegin (last : CaseRun) : List Char → Prop
  | [] => True
  | c :: cs => (isUpper c → last = .lower ∨ last = .upper ∧ ∃ d ∈ cs.head?, isLower d) ∧
    CapitalsBegin (last.next c) cs

/-- The text begins a word with a character that is not in lower case, and so does every capital
behind it. -/
def CapitalsApart : List Char → Prop
  | [] => True
  | c :: cs => isLower c = false ∧ CapitalsBegin (CaseRun.start.next c) cs

instance decidableCapitalsBegin : ∀ (last : CaseRun) (cs : List Char),
    Decidable (CapitalsBegin last cs)
  | _, [] => instDecidableTrue
  | last, c :: cs =>
    have := decidableCapitalsBegin (last.next c) cs
    inferInstanceAs (Decidable ((isUpper c → last = .lower ∨
      last = .upper ∧ ∃ d ∈ cs.head?, isLower d) ∧ CapitalsBegin (last.next c) cs))

instance decidableCapitalsApart : ∀ cs : List Char, Decidable (CapitalsApart cs)
  | [] => instDecidableTrue
  | c :: cs => inferInstanceAs (Decidable (isLower c = false ∧ CapitalsBegin (.next .start c) cs))

theorem CaseRun.next_of_isUpper {c : Char} (hc : c.toNat < 0x80) (h : isUpper c) (run : CaseRun) :
    run.next c = .upper := by
  have hlower : isLower c = false := by
    by_contra hlower
    exact absurd h (by simp [(asciiCases c hc).apart (by simpa using hlower)])
  simp [next, hlower, h]

theorem CaseRun.next_of_isLower {c : Char} (h : isLower c) (run : CaseRun) :
    run.next c = .lower := by
  simp [next, h]

theorem CaseRun.next_start_eq_lower_iff {c : Char} : CaseRun.start.next c = .lower ↔ isLower c := by
  rw [next]
  split
  case isTrue h => simp [h]
  case isFalse h => split <;> simp [h]

/-- Behind a letter in lower case, a capital begins a word. -/
theorem capitalsApart_cons_iff {c : Char} {cs : List Char} (hc : c.toNat < 0x80) (h : isUpper c) :
    CapitalsApart (c :: cs) ↔ CapitalsBegin .lower (c :: cs) := by
  have hlower : isLower c = false := by
    by_contra hlower
    simp [(asciiCases c hc).apart (by simpa using hlower)] at h
  simp [CapitalsApart, CapitalsBegin, hlower, CaseRun.next_of_isUpper hc h]

/-- The case of a run is that of the last letter, and no capital goes on after a letter in lower
case; or the case is forgotten where a word was opened before a letter in lower case. -/
def RunsAs (run last : CaseRun) (cs : List Char) : Prop :=
  run = last ∧ (run = .lower → ∀ d ∈ cs.head?, isUpper d = false) ∨
    run = .start ∧ ∃ d ∈ cs.head?, isLower d

theorem RunsAs.next {run last : CaseRun} {c : Char} {cs : List Char}
    (h : RunsAs run last (c :: cs)) : run.next c = last.next c := by
  obtain ⟨rfl, -⟩ | ⟨rfl, d, hd, hlower⟩ := h
  · rfl
  · obtain rfl : c = d := by simpa using hd
    rw [CaseRun.next_of_isLower hlower, CaseRun.next_of_isLower hlower]

theorem RunsAs.of_isUpper {run last : CaseRun} {c : Char} {cs : List Char} (hc : c.toNat < 0x80)
    (h : RunsAs run last (c :: cs)) (hupper : isUpper c) : run = last ∧ run ≠ .lower := by
  obtain ⟨rfl, hrun⟩ | ⟨-, d, hd, hlower⟩ := h
  · refine ⟨rfl, fun heq => ?_⟩
    simp [hrun heq c rfl] at hupper
  · obtain rfl : c = d := by simpa using hd
    simp [(asciiCases c hc).apart hlower] at hupper

/-- A character inside a word is left as it is if it is no capital. -/
theorem RunsAs.begins_iff {run last : CaseRun} {c : Char} {cs : List Char} (hc : c.toNat < 0x80)
    (h : RunsAs run last (c :: cs))
    (hinside : ¬ (run = .upper ∧ isUpper c ∧ ∃ d ∈ cs.head?, isLower d)) :
    (isUpper c → last = .lower ∨ last = .upper ∧ ∃ d ∈ cs.head?, isLower d) ↔
      isUpper c = false := by
  refine ⟨fun hbegins => ?_, fun hlower hupper => by simp [hlower] at hupper⟩
  by_contra hupper
  rw [Bool.not_eq_false] at hupper
  obtain ⟨rfl, hrun⟩ := h.of_isUpper hc hupper
  obtain hrun' | ⟨hrun', hnext⟩ := hbegins hupper
  · exact hrun hrun'
  · exact hinside ⟨hrun', hupper, hnext⟩

theorem capitalizeWord_reverse_concat_iff {word : List Char} {c : Char} (hc : c.toNat < 0x80)
    (hword : IsAscii word) (hne : word ≠ []) :
    capitalizeWord (c :: word).reverse = (c :: word).reverse ↔
      capitalizeWord word.reverse = word.reverse ∧ isUpper c = false := by
  rw [List.reverse_cons]
  refine capitalizeWord_concat_iff (by simpa using hne) fun x hx => ?_
  simp only [List.mem_append, List.mem_reverse, List.mem_singleton] at hx
  exact hx.elim (hword x) fun heq => heq ▸ hc

/-- Cutting and capitalizing leaves a text as it is exactly if its capitals begin words; and so it
does behind an open word that is left as it is. -/
theorem flatMap_splitCaseAux (cs : List Char) (h : IsAscii cs) (hne : cs ≠ []) :
    ((splitCaseAux .start [] cs).flatMap capitalizeWord = cs ↔ CapitalsApart cs) ∧
    ∀ run last word, IsAscii word → word ≠ [] → RunsAs run last cs →
      ((splitCaseAux run word cs).flatMap capitalizeWord = word.reverse ++ cs ↔
        capitalizeWord word.reverse = word.reverse ∧ CapitalsBegin last cs) := by
  induction cs with
  | nil => exact absurd rfl hne
  | cons c cs ih =>
    obtain ⟨hc, hcs⟩ := isAscii_cons.1 h
    have hone : IsAscii [c] := by simpa [IsAscii] using hc
    have hsingle : capitalizeWord [c] = [c] ↔ isLower c = false := by
      simpa using capitalizeWord_eq_self_iff hone
    cases cs with
    | nil =>
      constructor
      · simpa [splitCaseAux, CapitalsApart, CapitalsBegin] using hsingle
      · intro run last word hword hne hstate
        rw [CapitalsBegin, hstate.begins_iff hc (by simp)]
        simpa [splitCaseAux, CapitalsBegin] using capitalizeWord_reverse_concat_iff hc hword hne
    | cons d cs =>
      obtain ⟨hfresh, hopen⟩ := ih hcs (by simp)
      obtain ⟨hd, -⟩ := isAscii_cons.1 hcs
      constructor
      · rw [splitCaseAux, CapitalsApart, ← hsingle]
        split
        case isTrue hcut =>
          -- The text begins with a letter in lower case.
          have hlower : isLower c := by
            simp only [Bool.and_eq_true, decide_eq_true_eq] at hcut
            exact CaseRun.next_start_eq_lower_iff.1 hcut.1
          have hchanged : capitalizeWord [c] ≠ [c] := by simp [hsingle, hlower]
          rw [List.flatMap_cons]
          refine ⟨fun heq => absurd ?_ hchanged, fun heq => absurd heq.1 hchanged⟩
          exact ((capitalizeWord_append_iff hone).1 heq).1
        case isFalse hcut =>
          rw [if_neg (by simp)]
          refine hopen _ _ [c] hone (by simp) (.inl ⟨rfl, fun hlower e he => ?_⟩)
          obtain rfl : d = e := by simpa using he
          simpa [hlower] using hcut
      · intro run last word hword hne hstate
        have hreverse : IsAscii word.reverse := fun x hx => hword x (List.mem_reverse.1 hx)
        have hword' : IsAscii (c :: word) := isAscii_cons.2 ⟨hc, hword⟩
        have hreverse' : IsAscii (c :: word).reverse := fun x hx => hword' x (List.mem_reverse.1 hx)
        have happend : word.reverse ++ c :: d :: cs = (c :: word).reverse ++ d :: cs := by simp
        rw [splitCaseAux, CapitalsBegin]
        simp only [Bool.and_eq_true, decide_eq_true_eq]
        split
        case isTrue hcut =>
          -- A word ends with the character, before a capital.
          have hinside : ¬ (run = .upper ∧ isUpper c ∧ ∃ e ∈ (d :: cs).head?, isLower e) := by
            rintro ⟨-, -, e, he, hlower⟩
            obtain rfl : d = e := by simpa using he
            simp [(asciiCases d hd).apart hlower] at hcut
          rw [hstate.begins_iff hc hinside, List.flatMap_cons, ← hstate.next, hcut.1,
            ← capitalsApart_cons_iff hd hcut.2, ← hfresh, ← and_assoc,
            ← capitalizeWord_reverse_concat_iff hc hword hne, happend]
          exact capitalizeWord_append_iff hreverse'
        case isFalse hcut =>
          split
          case isTrue hbegins =>
            -- A word begins with the character.
            obtain ⟨⟨hrun, hupper⟩, hlower⟩ := hbegins
            obtain ⟨rfl, -⟩ := hstate.of_isUpper hc hupper
            have hword : capitalizeWord [c] = [c] := by
              rw [hsingle]
              by_contra hlower
              simp [(asciiCases c hc).apart (by simpa using hlower)] at hupper
            have hnext := hopen .start .upper [c] hone (by simp) (.inr ⟨rfl, d, rfl, hlower⟩)
            rw [List.reverse_singleton, and_iff_right hword] at hnext
            rw [List.flatMap_cons, CaseRun.next_of_isUpper hc hupper,
              and_iff_right fun _ => .inr ⟨hrun, d, rfl, hlower⟩, ← hnext]
            exact capitalizeWord_append_iff hreverse
          case isFalse hinside =>
            have hstate' : RunsAs (run.next c) (last.next c) (d :: cs) := by
              refine .inl ⟨hstate.next, fun hlower e he => ?_⟩
              obtain rfl : d = e := by simpa using he
              simpa [hlower] using hcut
            have hinside' : ¬ (run = .upper ∧ isUpper c ∧ ∃ e ∈ (d :: cs).head?, isLower e) := by
              simpa [and_assoc] using hinside
            rw [hstate.begins_iff hc hinside', happend,
              hopen _ _ (c :: word) hword' (by simp) hstate',
              capitalizeWord_reverse_concat_iff hc hword hne, and_assoc]

theorem splitCase_flatMap_iff {cs : List Char} (h : IsAscii cs) :
    (splitCase cs).flatMap capitalizeWord = cs ↔ CapitalsApart cs := by
  cases cs with
  | nil => simp [splitCase, splitCaseAux, CapitalsApart]
  | cons c cs => exact (flatMap_splitCaseAux (c :: cs) h (by simp)).1

/-- A piece without capitals is one word. -/
theorem splitCaseAux_of_no_capital {cs : List Char} (h : ∀ c ∈ cs, isUpper c = false)
    (hne : cs ≠ []) (run : CaseRun) (word : List Char) :
    splitCaseAux run word cs = [word.reverse ++ cs] := by
  induction cs generalizing run word with
  | nil => exact absurd rfl hne
  | cons c cs ih =>
    rw [List.forall_mem_cons] at h
    cases cs with
    | nil => simp [splitCaseAux]
    | cons d cs =>
      have hd : isUpper d = false := h.2 d List.mem_cons_self
      rw [splitCaseAux, if_neg (by simp [hd]), if_neg (by simp [h.1]), ih h.2 (by simp)]
      simp

/-! ### Words -/

theorem flatten_splitCaseAux {cs : List Char} (hne : cs ≠ []) (run : CaseRun) (word : List Char) :
    (splitCaseAux run word cs).flatten = word.reverse ++ cs := by
  induction cs generalizing run word with
  | nil => exact absurd rfl hne
  | cons c cs ih =>
    cases cs with
    | nil => simp [splitCaseAux]
    | cons d cs =>
      rw [splitCaseAux]
      split
      · simp [ih]
      · split <;> simp [ih]

theorem ne_nil_of_mem_splitCaseAux {run : CaseRun} {word w cs : List Char}
    (h : w ∈ splitCaseAux run word cs) (hrun : run = .upper → word ≠ []) : w ≠ [] := by
  induction cs generalizing run word with
  | nil => simp [splitCaseAux] at h
  | cons c cs ih =>
    cases cs with
    | nil => simp_all [splitCaseAux]
    | cons d cs =>
      rw [splitCaseAux] at h
      split at h
      · obtain rfl | h := List.mem_cons.1 h
        · simp
        · exact ih h (by simp)
      · split at h
        case isTrue hbegins =>
          obtain rfl | h := List.mem_cons.1 h
          · simpa using hrun (by simp_all)
          · exact ih h (by simp)
        case isFalse => exact ih h (by simp)

theorem mem_of_mem_splitChars {sep : Char → Bool} {part cs : List Char}
    (h : part ∈ splitChars sep cs) : ∀ c ∈ part, c ∈ cs := by
  induction cs generalizing part with
  | nil => simp_all [splitChars]
  | cons d cs ih =>
    rw [splitChars] at h
    split at h
    · obtain rfl | h := List.mem_cons.1 h
      · simp
      · exact fun c hc => List.mem_cons_of_mem d (ih h c hc)
    · cases hsplit : splitChars sep cs with
      | nil => exact absurd hsplit (splitChars_ne_nil sep cs)
      | cons first parts =>
        simp only [hsplit, List.mem_cons] at h ih ⊢
        obtain rfl | h := h
        · intro c hc
          exact (List.mem_cons.1 hc).imp_right (ih (.inl rfl) c)
        · exact fun c hc => .inr (ih (.inr h) c hc)

/-- Words are not empty and hold letters and digits of the name. -/
theorem mem_nameWords {name w : List Char} (h : w ∈ nameWords name) :
    w ≠ [] ∧ ∀ c ∈ w, c ∈ name ∧ isAlphanumeric c := by
  obtain ⟨piece, hpiece, hw⟩ := List.mem_flatMap.1 h
  have hne : piece ≠ [] := by
    rintro rfl
    simp [splitCase, splitCaseAux] at hw
  refine ⟨ne_nil_of_mem_splitCaseAux hw (by simp), fun c hc => ?_⟩
  have hmem : c ∈ piece := by
    have hflatten := flatten_splitCaseAux hne .start []
    rw [List.reverse_nil, List.nil_append] at hflatten
    exact hflatten ▸ List.mem_flatten.2 ⟨w, hw, hc⟩
  exact ⟨mem_of_mem_splitChars hpiece c hmem, by simpa using forall_mem_splitChars hpiece c hmem⟩

theorem nameWords_of_alphanumeric {piece : List Char} (h : ∀ c ∈ piece, isAlphanumeric c) :
    nameWords piece = splitCase piece := by
  rw [nameWords, splitChars_eq_singleton (by simpa using h), List.flatMap_singleton]

/-- Words without capitals are found again between underscores. -/
theorem nameWords_intercalate {ws : List (List Char)} (h : ∀ w ∈ ws, w ≠ [] ∧
    ∀ c ∈ w, isAlphanumeric c ∧ isUpper c = false) : nameWords (['_'].intercalate ws) = ws := by
  by_cases hne : ws = []
  · subst hne
    rfl
  · have hparts : ∀ w ∈ ws, ∀ c ∈ w, (! isAlphanumeric c) = false := fun w hw c hc => by
      simp [((h w hw).2 c hc).1]
    have hwords : ∀ w ∈ ws, splitCase w = [w] := fun w hw =>
      splitCaseAux_of_no_capital (fun c hc => ((h w hw).2 c hc).2) (h w hw).1 .start []
    rw [nameWords, splitChars_intercalate (by decide) hparts hne, List.flatMap_congr hwords,
      List.flatMap_singleton']

/-! ### Converting twice -/

namespace NameCase

theorem snake_convertChars {name : List Char} (h : IsAscii name) :
    snake.convertChars (snake.convertChars name) = snake.convertChars name := by
  have hwords : ∀ w ∈ (nameWords name).map lowerWord, w ≠ [] ∧ IsAscii w ∧
      ∀ c ∈ w, isAlphanumeric c ∧ isUpper c = false := by
    intro w hw
    obtain ⟨word, hword, rfl⟩ := List.mem_map.1 hw
    obtain ⟨hne, hchars⟩ := mem_nameWords hword
    have hascii : IsAscii word := fun c hc => h c (hchars c hc).1
    rw [lowerWord_eq_map hascii]
    refine ⟨by simpa using hne, ?_, ?_⟩
    · intro _ hc'
      obtain ⟨c, hc, rfl⟩ := List.mem_map.1 hc'
      exact (asciiCases c (hascii c hc)).ascii.2
    · intro _ hc'
      obtain ⟨c, hc, rfl⟩ := List.mem_map.1 hc'
      have hcases := asciiCases c (hascii c hc)
      exact ⟨(hcases.alphanumeric (hchars c hc).2).2, hcases.lower.2⟩
  have hkept : ∀ w ∈ (nameWords name).map lowerWord, lowerWord w = w := fun w hw =>
    (lowerWord_eq_self_iff (hwords w hw).2.1).2 fun c hc => ((hwords w hw).2.2 c hc).2
  rw [convertChars, convertChars,
    nameWords_intercalate fun w hw => ⟨(hwords w hw).1, (hwords w hw).2.2⟩,
    List.map_congr_left hkept, List.map_id']

/-- Capitalized words hold letters and digits alone. -/
theorem mem_upperCamel_convertChars {name : List Char} (h : IsAscii name) {c : Char}
    (hc : c ∈ upperCamel.convertChars name) : c.toNat < 0x80 ∧ isAlphanumeric c := by
  obtain ⟨word, hword, hc⟩ := List.mem_flatMap.1 hc
  obtain ⟨hne, hchars⟩ := mem_nameWords hword
  obtain ⟨d, word, rfl⟩ := List.exists_cons_of_ne_nil hne
  have hcases : ∀ x ∈ d :: word, AsciiCases x ∧ isAlphanumeric x := fun x hx =>
    ⟨asciiCases x (h x (hchars x hx).1), (hchars x hx).2⟩
  rw [capitalizeWord_cons fun x hx => h x (hchars x hx).1] at hc
  obtain rfl | hc := List.mem_cons.1 hc
  · obtain ⟨hd, hword⟩ := hcases d List.mem_cons_self
    exact ⟨hd.ascii.1, (hd.alphanumeric hword).1⟩
  · obtain ⟨x, hx, rfl⟩ := List.mem_map.1 hc
    obtain ⟨hx, hword⟩ := hcases x (List.mem_cons_of_mem d hx)
    exact ⟨hx.ascii.2, (hx.alphanumeric hword).2⟩

theorem upperCamel_convertChars_iff {name : List Char} (h : IsAscii name) :
    upperCamel.convertChars (upperCamel.convertChars name) = upperCamel.convertChars name ↔
      CapitalsApart (upperCamel.convertChars name) := by
  have hchars := fun c => mem_upperCamel_convertChars h (c := c)
  rw [convertChars, nameWords_of_alphanumeric fun c hc => (hchars c hc).2]
  exact splitCase_flatMap_iff fun c hc => (hchars c hc).1

/-- Converting a name again gives the same name, unless words were capitalized and a capital of the
result begins no word. -/
theorem convert_convert_iff (target : NameCase) {name : String} (h : IsAscii name.toList) :
    target.convert (target.convert name) = target.convert name ↔
      target = .snake ∨ CapitalsApart (target.convert name).toList := by
  simp only [convert, String.toList_ofList, String.ofList_inj]
  cases target with
  | snake => simp [snake_convertChars h]
  | upperCamel => simpa using upperCamel_convertChars_iff h

end NameCase

end RegAtlas.Text
