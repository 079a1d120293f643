import Mathlib.Data.List.TakeDrop
import Mathlib.Data.List.TakeWhile
import RegAtlas.Text.Basic

/-!
# Texts and their cuts

When trimming leaves nothing and when it leaves everything, and what splitting does at a separator.
-/

namespace RegAtlas.Text

/-! ### Deciding statements about characters -/

section

-- The characters that there are in a list are tried, not all the characters that there could be.

variable (p : Char → Prop) [DecidablePred p]

instance decidableForallMem (cs : List Char) : Decidable (∀ c ∈ cs, p c) := List.decidableBAll p cs

instance decidableExistsMem (cs : List Char) : Decidable (∃ c ∈ cs, p c) :=
  List.decidableBEx p cs

instance decidableForallMemOption (o : Option Char) : Decidable (∀ c ∈ o, p c) :=
  Option.decidableForallMem o

end

variable {cs : List Char} {c : Char}

/-! ### White space -/

/-- The code points of white space. -/
def blankCodes : List Nat :=
  List.range' 0x9 5 ++ List.range' 0x2000 11 ++
    [0x20, 0x85, 0xA0, 0x1680, 0x2028, 0x2029, 0x202F, 0x205F, 0x3000]

theorem toNat_mem_blankCodes (h : isBlank c) : c.toNat ∈ blankCodes := by
  simp only [isBlank, Bool.or_eq_true, Bool.and_eq_true, decide_eq_true_eq, beq_iff_eq] at h
  simp only [blankCodes, List.mem_append, List.mem_range'_1, List.mem_cons, List.not_mem_nil]
  omega

/-- What can be said of the code points of white space. -/
theorem of_isBlank {p : Char → Prop} (hcodes : ∀ n ∈ blankCodes, p (Char.ofNat n))
    (h : isBlank c) : p c := by
  have hcode := hcodes _ (toNat_mem_blankCodes h)
  rwa [Char.ofNat_toNat] at hcode

theorem isWordChar_of_isBlank (h : isBlank c) : isWordChar c = false :=
  of_isBlank (p := fun c => isWordChar c = false) (by decide +kernel) h

theorem isDigit_of_isBlank (h : isBlank c) : c.isDigit = false :=
  of_isBlank (p := fun c => c.isDigit = false) (by decide +kernel) h

/-! ### Trimming -/

section

variable {p : Char → Bool}

theorem dropEndWhile_eq_nil_iff : dropEndWhile p cs = [] ↔ ∀ c ∈ cs, p c := by
  simp [dropEndWhile, List.dropWhile_eq_nil_iff]

theorem dropEndWhile_append_of_pos {ds : List Char} (h : ∀ d ∈ ds, p d) :
    dropEndWhile p (cs ++ ds) = dropEndWhile p cs := by
  rw [dropEndWhile, List.reverse_append, List.dropWhile_append_of_pos (by simpa using h)]
  rfl

theorem dropEndWhile_append_eq_iff {ds : List Char} :
    dropEndWhile p (cs ++ ds) = dropEndWhile p cs ↔ ∀ d ∈ ds, p d := by
  refine ⟨fun h => ?_, dropEndWhile_append_of_pos⟩
  by_contra hnot
  have hrest : ds.reverse.dropWhile p ≠ [] := by
    simpa [List.dropWhile_eq_nil_iff] using hnot
  have hlength := congrArg List.length h
  rw [dropEndWhile, dropEndWhile, List.reverse_append, List.dropWhile_append,
    if_neg (by simpa using hrest)] at hlength
  have hle := (List.dropWhile_sublist p (l := cs.reverse)).length_le
  have hpos := List.length_pos_iff.2 hrest
  simp only [List.length_reverse, List.length_append] at hlength hle
  omega

theorem dropWhile_eq_self_iff : cs.dropWhile p = cs ↔ ∀ c ∈ cs.head?, p c = false := by
  cases cs <;> simp [List.dropWhile_eq_self_iff]

theorem dropEndWhile_eq_self_iff : dropEndWhile p cs = cs ↔ ∀ c ∈ cs.getLast?, p c = false := by
  rw [dropEndWhile, List.reverse_eq_iff, dropWhile_eq_self_iff, List.head?_reverse]

end

theorem trimChars_eq_nil_iff : trimChars cs = [] ↔ ∀ c ∈ cs, isBlank c := by
  rw [trimChars, trimEndChars, dropEndWhile_eq_nil_iff, trimStartChars]
  constructor
  · intro h
    refine List.dropWhile_eq_nil_iff.1 ?_
    cases hdrop : cs.dropWhile isBlank with
    | nil => rfl
    | cons d ds =>
      have hfirst := List.head?_dropWhile_not isBlank cs
      have hblank : isBlank d := h d (by simp [hdrop])
      simp [hdrop, hblank] at hfirst
  · exact fun h c hc => h c ((List.dropWhile_sublist isBlank).mem hc)

theorem mem_of_mem_trimChars {c : Char} (h : c ∈ trimChars cs) : c ∈ cs := by
  rw [trimChars, trimEndChars, dropEndWhile, List.mem_reverse] at h
  have hstart := (List.dropWhile_sublist isBlank).mem h
  exact (List.dropWhile_sublist isBlank).mem (List.mem_reverse.1 hstart)

theorem trim_isEmpty_iff {s : String} : (trim s).isEmpty ↔ ∀ c ∈ s.toList, isBlank c := by
  rw [trim, String.isEmpty_iff, String.ofList_eq_empty_iff, trimChars_eq_nil_iff]

/-- Nothing is trimmed from a text without white space at its ends. -/
theorem trimChars_eq_self_iff : trimChars cs = cs ↔
    (∀ c ∈ cs.head?, isBlank c = false) ∧ ∀ c ∈ cs.getLast?, isBlank c = false := by
  constructor
  · intro h
    have hstart : cs.dropWhile isBlank = cs := by
      refine (List.dropWhile_sublist isBlank).eq_of_length_le ?_
      calc cs.length = (dropEndWhile isBlank (cs.dropWhile isBlank)).length := by
            rw [← trimStartChars, ← trimEndChars, ← trimChars, h]
        _ ≤ (cs.dropWhile isBlank).length := by
            have := (List.dropWhile_sublist (l := (cs.dropWhile isBlank).reverse) isBlank).length_le
            simpa [dropEndWhile] using this
    have hend : dropEndWhile isBlank cs = cs := by
      rwa [trimChars, trimEndChars, trimStartChars, hstart] at h
    exact ⟨dropWhile_eq_self_iff.1 hstart, dropEndWhile_eq_self_iff.1 hend⟩
  · rintro ⟨hhead, hlast⟩
    rw [trimChars, trimEndChars, trimStartChars, dropWhile_eq_self_iff.2 hhead,
      dropEndWhile_eq_self_iff.2 hlast]

theorem trimChars_of_forall_not_blank (h : ∀ c ∈ cs, isBlank c = false) : trimChars cs = cs :=
  trimChars_eq_self_iff.2 ⟨fun c hc => h c (List.mem_of_mem_head? hc),
    fun c hc => h c (List.mem_of_getLast? hc)⟩

theorem trim_eq_self_iff {s : String} : trim s = s ↔ trimChars s.toList = s.toList := by
  rw [trim, ← String.toList_inj, String.toList_ofList]

theorem trimChars_cons_of_isBlank (hc : isBlank c) (cs : List Char) :
    trimChars (c :: cs) = trimChars cs := by
  rw [trimChars, trimStartChars, List.dropWhile_cons_of_pos hc]
  rfl

/-- What is put behind a text is trimmed away if and only if it is white space. -/
theorem trimChars_append_eq_iff {ds : List Char} :
    trimChars (cs ++ ds) = trimChars cs ↔ ∀ d ∈ ds, isBlank d := by
  induction cs with
  | nil => exact trimChars_eq_nil_iff
  | cons c cs ih =>
    cases hc : isBlank c with
    | true => rw [List.cons_append, trimChars_cons_of_isBlank hc, trimChars_cons_of_isBlank hc, ih]
    | false =>
      have hstart (rest : List Char) :
          trimChars (c :: rest) = dropEndWhile isBlank (c :: rest) := by
        rw [trimChars, trimStartChars, List.dropWhile_cons_of_neg (by simp [hc]), trimEndChars]
      rw [List.cons_append, hstart, hstart, ← List.cons_append, dropEndWhile_append_eq_iff]

theorem trimStartChars_eq_append (cs : List Char) :
    ∃ ds, (∀ d ∈ ds, isBlank d) ∧ trimStartChars cs = trimChars cs ++ ds := by
  refine ⟨((trimStartChars cs).reverse.takeWhile isBlank).reverse, fun d hd => ?_, ?_⟩
  · exact List.mem_takeWhile_imp (List.mem_reverse.1 hd)
  · rw [trimChars, trimEndChars, dropEndWhile, ← List.reverse_append,
      List.takeWhile_append_dropWhile, List.reverse_reverse]

theorem trimChars_trimStartChars (cs : List Char) :
    trimChars (trimStartChars cs) = trimChars cs := by
  have hself : trimStartChars (trimStartChars cs) = trimStartChars cs :=
    dropWhile_eq_self_iff.2 fun c hc => by
      have hfirst := List.head?_dropWhile_not isBlank cs
      rwa [← trimStartChars, hc] at hfirst
  rw [trimChars, hself, trimChars]

theorem trimChars_trimChars (cs : List Char) : trimChars (trimChars cs) = trimChars cs := by
  obtain ⟨ds, hds, heq⟩ := trimStartChars_eq_append cs
  rw [← trimChars_append_eq_iff.2 hds, ← heq, trimChars_trimStartChars]

theorem trimChars_concat_of_isBlank (hc : isBlank c) (hcs : cs ≠ []) (h : trimChars cs = cs) :
    trimChars (cs ++ [c]) = cs := by
  obtain ⟨hhead, hlast⟩ := trimChars_eq_self_iff.1 h
  have hhead' : ∀ d ∈ (cs ++ [c]).head?, isBlank d = false := by
    obtain ⟨d, ds, rfl⟩ := List.exists_cons_of_ne_nil hcs
    exact hhead
  rw [trimChars, trimStartChars, dropWhile_eq_self_iff.2 hhead', trimEndChars,
    dropEndWhile_append_of_pos (by simpa using hc), dropEndWhile_eq_self_iff.2 hlast]

theorem trimChars_concat (hc : isBlank c = false) (hcs : cs ≠ []) (h : trimChars cs = cs) :
    trimChars (cs ++ [c]) = cs ++ [c] := by
  obtain ⟨d, ds, rfl⟩ := List.exists_cons_of_ne_nil hcs
  refine trimChars_eq_self_iff.2 ⟨(trimChars_eq_self_iff.1 h).1, ?_⟩
  rw [List.getLast?_concat]
  simpa using hc

theorem stripStart?_append (lead rest : List Char) :
    stripStart? lead (lead ++ rest) = some rest := by
  simp [stripStart?, List.isPrefixOf_iff_prefix]

/-- A text is cut at the first separator. -/
theorem splitOnce?_append_cons {sep : Char} (h : sep ∉ cs) (ds : List Char) :
    splitOnce? sep (cs ++ sep :: ds) = some (cs, ds) := by
  have hcs : ∀ c ∈ cs, (c != sep) = true := fun c hc => bne_iff_ne.2 (ne_of_mem_of_not_mem hc h)
  rw [splitOnce?, List.span_eq_takeWhile_dropWhile, List.takeWhile_append_of_pos hcs,
    List.dropWhile_append_of_pos hcs]
  simp

theorem splitOnce?_eq_none {sep : Char} (h : sep ∉ cs) : splitOnce? sep cs = none := by
  have hcs : ∀ c ∈ cs, (c != sep) = true := fun c hc => bne_iff_ne.2 (ne_of_mem_of_not_mem hc h)
  rw [splitOnce?, List.span_eq_takeWhile_dropWhile, List.dropWhile_eq_nil_iff.2 hcs]

theorem toList_padStart (fill : Char) (width : Nat) (s : String) :
    (padStart fill width s).toList = List.replicate (width - s.length) fill ++ s.toList := by
  rw [padStart, String.toList_append, String.toList_ofList]

theorem length_padStart (fill : Char) (width : Nat) (s : String) :
    (padStart fill width s).length = max width s.length := by
  rw [← String.length_toList, toList_padStart, List.length_append, List.length_replicate,
    String.length_toList]
  omega

/-! ### Splitting -/

section

variable {sep : Char → Bool} {ds : List Char}

theorem splitChars_ne_nil (sep : Char → Bool) (cs : List Char) : splitChars sep cs ≠ [] := by
  cases cs with
  | nil => simp [splitChars]
  | cons c cs =>
    rw [splitChars]
    split_ifs
    · simp
    · split <;> simp

theorem splitChars_append_cons (hc : sep c) (cs ds : List Char) :
    splitChars sep (cs ++ c :: ds) = splitChars sep cs ++ splitChars sep ds := by
  induction cs with
  | nil => simp [splitChars, hc]
  | cons d cs ih =>
    rw [List.cons_append, splitChars, ih, splitChars]
    split_ifs
    · rfl
    · cases h : splitChars sep cs with
      | nil => exact absurd h (splitChars_ne_nil sep cs)
      | cons part parts => rfl

theorem splitChars_eq_singleton (h : ∀ c ∈ cs, sep c = false) : splitChars sep cs = [cs] := by
  induction cs with
  | nil => rfl
  | cons c cs ih =>
    rw [List.forall_mem_cons] at h
    rw [splitChars, ih h.2, h.1]
    rfl

/-- Parts are found again between separators. -/
theorem splitChars_intercalate (hc : sep c) {ws : List (List Char)}
    (h : ∀ w ∈ ws, ∀ d ∈ w, sep d = false) (hne : ws ≠ []) :
    splitChars sep ([c].intercalate ws) = ws := by
  induction ws with
  | nil => exact absurd rfl hne
  | cons w ws ih =>
    rw [List.forall_mem_cons] at h
    cases ws with
    | nil => simpa using splitChars_eq_singleton h.1
    | cons w' ws =>
      have hcut : [c].intercalate (w :: w' :: ws) = w ++ c :: [c].intercalate (w' :: ws) := by
        simp [List.intercalate]
      rw [hcut, splitChars_append_cons hc, splitChars_eq_singleton h.1, ih h.2 (by simp)]
      rfl

/-- The words before and after white space. -/
theorem wordsChars_append_cons (hc : isBlank c) (cs ds : List Char) :
    wordsChars (cs ++ c :: ds) = wordsChars cs ++ wordsChars ds := by
  rw [wordsChars, splitChars_append_cons hc, List.filter_append]
  rfl

theorem forall_mem_splitChars {part : List Char} (h : part ∈ splitChars sep cs) :
    ∀ c ∈ part, sep c = false := by
  induction cs generalizing part with
  | nil => simp_all [splitChars]
  | cons d cs ih =>
    rw [splitChars] at h
    split_ifs at h with hd
    · rcases List.mem_cons.1 h with rfl | h
      · simp
      · exact ih h
    · cases hsplit : splitChars sep cs with
      | nil => exact absurd hsplit (splitChars_ne_nil sep cs)
      | cons first parts =>
        rw [hsplit] at h ih
        rcases List.mem_cons.1 h with rfl | h
        · rw [List.forall_mem_cons]
          exact ⟨by simpa using hd, ih (by simp)⟩
        · exact ih (List.mem_cons_of_mem _ h)

theorem mem_wordsChars {word : List Char} (h : word ∈ wordsChars cs) :
    word ≠ [] ∧ ∀ c ∈ word, isBlank c = false := by
  obtain ⟨hsplit, hne⟩ := List.mem_filter.1 h
  exact ⟨by simpa using hne, forall_mem_splitChars hsplit⟩

end

/-! ### Words with single blanks between them -/

section

variable {ws : List (List Char)} (h : ∀ w ∈ ws, w ≠ [] ∧ ∀ c ∈ w, isBlank c = false)
include h

theorem head?_intercalate : ∀ c ∈ ([' '].intercalate ws).head?, isBlank c = false := by
  match ws with
  | [] => simp
  | [w] => simpa using fun c hc => (h w (by simp)).2 c (List.mem_of_mem_head? hc)
  | w :: w' :: ws =>
    obtain ⟨hne, hblank⟩ := h w (by simp)
    obtain ⟨d, ds, rfl⟩ := List.exists_cons_of_ne_nil hne
    simpa [List.intercalate_cons_cons] using hblank d (by simp)

theorem getLast?_intercalate : ∀ c ∈ ([' '].intercalate ws).getLast?, isBlank c = false := by
  induction ws with
  | nil => simp
  | cons w ws ih =>
    cases ws with
    | nil => simpa using fun c hc => (h w (by simp)).2 c (List.mem_of_getLast? hc)
    | cons w' ws =>
      rw [List.forall_mem_cons] at h
      have hne : [' '].intercalate (w' :: ws) ≠ [] := by
        obtain ⟨d, ds, hw'⟩ := List.exists_cons_of_ne_nil (h.2 w' (by simp)).1
        cases ws <;> simp [hw', List.intercalate_cons_cons]
      have hrest := ih h.2
      rw [List.getLast?_eq_some_getLast hne] at hrest
      rwa [List.intercalate_cons_cons, List.getLast?_append, List.getLast?_eq_some_getLast hne]

/-- Words are found again between single blanks. -/
theorem wordsChars_intercalate : wordsChars ([' '].intercalate ws) = ws := by
  by_cases hne : ws = []
  · subst hne
    rfl
  · rw [wordsChars, splitChars_intercalate (by decide) (fun w hw => (h w hw).2) hne,
      List.filter_eq_self]
    exact fun w hw => by simpa using (h w hw).1

end

/-- A text in which single blanks stand between words is trimmed. -/
theorem trimChars_of_intercalate_words {s : String} (h : " ".intercalate (words s) = s) :
    trimChars s.toList = s.toList := by
  have hwords : s.toList = [' '].intercalate (wordsChars s.toList) := by
    calc s.toList = (" ".intercalate (words s)).toList := by rw [h]
      _ = [' '].intercalate (wordsChars s.toList) := by
        simp [String.toList_intercalate, words, Function.comp_def]
  have hmem : ∀ w ∈ wordsChars s.toList, w ≠ [] ∧ ∀ c ∈ w, isBlank c = false := fun w =>
    mem_wordsChars
  rw [trimChars_eq_self_iff, hwords]
  exact ⟨head?_intercalate hmem, getLast?_intercalate hmem⟩

/-! ### Lines -/

/-- The text of lines that are ended by line feeds. -/
def unlines (ls : List String) : String :=
  String.ofList (ls.flatMap fun line => line.toList ++ ['\n'])

theorem splitChars_flatMap_concat {sep : Char → Bool} (hc : sep c) {parts : List (List Char)}
    (h : ∀ part ∈ parts, ∀ d ∈ part, sep d = false) :
    splitChars sep (parts.flatMap (· ++ [c])) = parts ++ [[]] := by
  induction parts with
  | nil => rfl
  | cons part parts ih =>
    rw [List.forall_mem_cons] at h
    rw [List.flatMap_cons, List.append_assoc, List.singleton_append, splitChars_append_cons hc,
      splitChars_eq_singleton h.1, ih h.2]
    rfl

theorem chompReturn_eq_self (h : cs.getLast? ≠ some '\r') : chompReturn cs = cs := by
  rw [chompReturn]
  split
  next rest hrest => simp [← List.head?_reverse, hrest] at h
  · rfl

/-- Lines without a line feed that do not end in a carriage return are the lines of their text. -/
theorem lines_unlines {ls : List String}
    (h : ∀ line ∈ ls, '\n' ∉ line.toList ∧ line.toList.getLast? ≠ some '\r') :
    lines (unlines ls) = ls := by
  have hsplit : splitChars (· == '\n') (unlines ls).toList = ls.map String.toList ++ [[]] := by
    have hparts : ∀ part ∈ ls.map String.toList, ∀ d ∈ part, (d == '\n') = false := by
      simp only [List.forall_mem_map, beq_eq_false_iff_ne]
      exact fun line hline d hd heq => (h line hline).1 (heq ▸ hd)
    rw [unlines, String.toList_ofList, ← splitChars_flatMap_concat (c := '\n') rfl hparts,
      List.flatMap_map]
  have hchomp : (ls.map String.toList).map chompReturn = ls.map String.toList := by
    rw [List.map_map]
    exact List.map_congr_left fun line hline => chompReturn_eq_self (h line hline).2
  rw [lines, linesChars, hsplit]
  simp [hchomp]

end RegAtlas.Text
