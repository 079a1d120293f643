import Mathlib.Data.List.Basic
import RegAtlas.Output.Latex

/-!
# Escaped text

Escaped text as a code. Ten characters are written as escape sequences, all others as they are. No
sequence begins another one, so that each backslash of an escaped text begins one of them, and the
text can be read back in one way only.
-/

namespace RegAtlas.Latex

/-! ### Escape sequences -/

/-- The characters with a meaning of their own, with what is written for them. -/
def escapes : List (Char × List Char) :=
  [('_', "\\_".toList), ('&', "\\&".toList), ('%', "\\%".toList), ('#', "\\#".toList),
    ('$', "\\$".toList), ('\x7b', "\\\x7b".toList), ('\x7d', "\\\x7d".toList),
    ('\\', "\\textbackslash\x7b\x7d".toList), ('~', "\\textasciitilde\x7b\x7d".toList),
    ('^', "\\textasciicircum\x7b\x7d".toList)]

/-- The commands of escape sequences. Two braces follow each of them. -/
def escapeCommands : List (List Char) :=
  ["\\textbackslash".toList, "\\textasciitilde".toList, "\\textasciicircum".toList]

section

variable {c : Char} {cs : List Char} {e e' : Char × List Char}

theorem escapeChar_of_mem (h : e ∈ escapes) : escapeChar e.1 = e.2 := by
  revert e
  decide

/-- The characters of the table have an escape sequence, all others stand for themselves. -/
theorem escapeChar_cases (c : Char) :
    (c, escapeChar c) ∈ escapes ∨ c ∉ escapes.map Prod.fst ∧ escapeChar c = [c] := by
  by_cases h : c ∈ escapes.map Prod.fst
  · obtain ⟨e, he, rfl⟩ := List.mem_map.1 h
    rw [escapeChar_of_mem he]
    exact .inl he
  · refine .inr ⟨h, ?_⟩
    simp only [escapes, List.map_cons, List.map_nil, List.mem_cons, not_or] at h
    simp [escapeChar, h]

theorem escapeChars_cons (c : Char) (cs : List Char) :
    escapeChars (c :: cs) = escapeChar c ++ escapeChars cs := List.flatMap_cons

/-- No escape sequence begins another one. -/
theorem eq_of_begins (he : e ∈ escapes) (he' : e' ∈ escapes) (h : e.2 <+: cs) (h' : e'.2 <+: cs) :
    e = e' := by
  have hapart : ∀ e ∈ escapes, ∀ e' ∈ escapes, e.2 <+: e'.2 → e = e' := by decide
  rcases List.prefix_or_prefix_of_prefix h h' with hbegins | hbegins
  · exact hapart e he e' he' hbegins
  · exact (hapart e' he' e he hbegins).symm

theorem existsUnique_escape (h : ∃ e ∈ escapes, e.2 <+: cs) :
    ∃! e, e ∈ escapes ∧ e.2 <+: cs := by
  obtain ⟨e, he, hbegins⟩ := h
  exact ⟨e, ⟨he, hbegins⟩, fun e' h' => eq_of_begins h'.1 he h'.2 hbegins⟩

theorem exists_eq_cons (h : e ∈ escapes) : ∃ cs, e.2 = '\\' :: cs := by
  have hhead : ∀ e ∈ escapes, e.2.head? = some '\\' := by decide
  obtain ⟨cs, hcs⟩ := List.head?_eq_some_iff.1 (hhead e h)
  exact ⟨cs, hcs⟩

end

/-! ### Reading escaped text -/

/-- The text that was escaped. There is none if a character with a meaning of its own does not
belong to an escape sequence. -/
def unescapeChars? : List Char → Option (List Char)
  | [] => some []
  | c :: cs =>
    match escapes.find? fun e => e.2.isPrefixOf (c :: cs) with
    | some e => (unescapeChars? (cs.drop (e.2.length - 1))).map (e.1 :: ·)
    | none =>
      if c ∈ escapes.map Prod.fst then none else (unescapeChars? cs).map (c :: ·)
termination_by cs => cs.length
decreasing_by all_goals simp; try omega

def unescape? (s : String) : Option String := (unescapeChars? s.toList).map String.ofList

section

variable {c : Char} {cs ds : List Char} {e : Char × List Char}

theorem unescapeChars?_sequence (h : e ∈ escapes) (cs : List Char) :
    unescapeChars? (e.2 ++ cs) = (unescapeChars? cs).map (e.1 :: ·) := by
  obtain ⟨tail, htail⟩ := exists_eq_cons h
  have hfind : (escapes.find? fun e' => e'.2.isPrefixOf (e.2 ++ cs)) = some e := by
    cases hfind : escapes.find? fun e' => e'.2.isPrefixOf (e.2 ++ cs) with
    | none => simpa using List.find?_eq_none.1 hfind e h
    | some e' =>
      have hbegins : e'.2 <+: e.2 ++ cs := by simpa using List.find?_some hfind
      rw [eq_of_begins (List.mem_of_find?_eq_some hfind) h hbegins (List.prefix_append _ _)]
  rw [htail, List.cons_append] at hfind ⊢
  rw [unescapeChars?, hfind]
  simp [htail]

theorem unescapeChars?_literal (h : c ∉ escapes.map Prod.fst) (cs : List Char) :
    unescapeChars? (c :: cs) = (unescapeChars? cs).map (c :: ·) := by
  have hbackslash : '\\' ∈ escapes.map Prod.fst := by decide
  have hfind : (escapes.find? fun e => e.2.isPrefixOf (c :: cs)) = none := by
    refine List.find?_eq_none.2 fun e he hbegins => ?_
    obtain ⟨tail, htail⟩ := exists_eq_cons he
    rw [List.isPrefixOf_iff_prefix, htail, List.cons_prefix_cons] at hbegins
    exact h (hbegins.1 ▸ hbackslash)
  rw [unescapeChars?, hfind]
  exact if_neg h

theorem unescapeChars?_escapeChars (cs : List Char) :
    unescapeChars? (escapeChars cs) = some cs := by
  induction cs with
  | nil => simp [escapeChars, unescapeChars?]
  | cons c cs ih =>
    rw [escapeChars_cons]
    rcases escapeChar_cases c with hmem | ⟨hne, heq⟩
    · rw [unescapeChars?_sequence hmem, ih]
      rfl
    · rw [heq, List.singleton_append, unescapeChars?_literal hne, ih]
      rfl

/-- Nothing but the escaped form of a text is read as that text. -/
theorem eq_escapeChars_of_unescapeChars? (h : unescapeChars? ds = some cs) :
    ds = escapeChars cs := by
  fun_induction unescapeChars? ds generalizing cs with
  | case1 =>
    cases h
    rfl
  | case2 c ds e hfind ih =>
    obtain ⟨cs, hcs, rfl⟩ := Option.map_eq_some_iff.1 h
    have hbegins : e.2 <+: c :: ds := by simpa using List.find?_some hfind
    have he := List.mem_of_find?_eq_some hfind
    obtain ⟨tail, htail⟩ := exists_eq_cons he
    obtain ⟨rest, hrest⟩ := hbegins
    have hdrop : ds.drop (e.2.length - 1) = rest := by
      rw [htail, List.cons_append, List.cons.injEq] at hrest
      rw [htail, ← hrest.2]
      simp
    rw [escapeChars_cons, escapeChar_of_mem he, ← ih hcs, hdrop, hrest]
  | case3 => cases h
  | case4 c ds hfind hliteral ih =>
    obtain ⟨cs, hcs, rfl⟩ := Option.map_eq_some_iff.1 h
    rcases escapeChar_cases c with hmem | ⟨-, heq⟩
    · exact absurd (List.mem_map_of_mem hmem) hliteral
    · rw [escapeChars_cons, heq, ← ih hcs, List.singleton_append]

end

/-- Reading accepts escaped text and nothing else. -/
theorem unescape?_eq_some_iff {s t : String} : unescape? t = some s ↔ t = escape s := by
  rw [unescape?, Option.map_eq_some_iff]
  constructor
  · rintro ⟨cs, hcs, rfl⟩
    rw [escape, String.toList_ofList, ← eq_escapeChars_of_unescapeChars? hcs,
      String.ofList_toList]
  · rintro rfl
    exact ⟨s.toList, by rw [escape, String.toList_ofList, unescapeChars?_escapeChars],
      String.ofList_toList⟩

/-! ### Places in escaped text -/

/-- A character with a meaning of its own stands in a text only as a part of an escape sequence. -/
structure Placed (before : List Char) (c : Char) (after : List Char) : Prop where
  marked : c ∈ ['&', '%', '#', '$', '_'] → ['\\'] <:+ before
  unwritten : c ≠ '~' ∧ c ≠ '^'
  begins : c = '\\' → ∃! e, e ∈ escapes ∧ e.2 <+: c :: after
  opening : c = '\x7b' → ['\\'] <:+ before ∨
    ∃ command ∈ escapeCommands, command <:+ before ∧ ['\x7d'] <+: after
  closing : c = '\x7d' → ['\\'] <:+ before ∨
    ∃ command ∈ escapeCommands, command ++ ['\x7b'] <:+ before

section

variable {before after cs : List Char} {c : Char} {e : Char × List Char}

/-- What stands around a text does not change the places in it. -/
theorem Placed.within (h : Placed before c after) (front behind : List Char) :
    Placed (front ++ before) c (after ++ behind) where
  marked hc := (h.marked hc).trans (List.suffix_append _ _)
  unwritten := h.unwritten
  begins hc := by
    obtain ⟨e, ⟨he, hbegins⟩, -⟩ := h.begins hc
    exact existsUnique_escape ⟨e, he, hbegins.trans (List.prefix_append (c :: after) behind)⟩
  opening hc := (h.opening hc).imp (·.trans (List.suffix_append _ _))
    fun ⟨command, hcommand, hbefore, hafter⟩ => ⟨command, hcommand,
      hbefore.trans (List.suffix_append _ _), hafter.trans (List.prefix_append _ _)⟩
  closing hc := (h.closing hc).imp (·.trans (List.suffix_append _ _))
    fun ⟨command, hcommand, hbefore⟩ => ⟨command, hcommand,
      hbefore.trans (List.suffix_append _ _)⟩

theorem placed_literal (h : c ∉ escapes.map Prod.fst) : Placed before c after := by
  simp only [escapes, List.map_cons, List.map_nil, List.mem_cons, not_or] at h
  constructor <;> simp [h]

theorem placed_in_sequence (he : e ∈ escapes) (h : e.2 = before ++ c :: after) :
    Placed before c after := by
  -- The sequences are cut at each of their characters in turn.
  have hcuts : ∀ e ∈ escapes, ∀ k ∈ List.range e.2.length, ∀ c ∈ e.2[k]?,
      (c ∈ ['&', '%', '#', '$', '_'] → ['\\'] <:+ e.2.take k) ∧ (c ≠ '~' ∧ c ≠ '^') ∧
      (c = '\\' → ∃ e' ∈ escapes, e'.2 <+: c :: e.2.drop (k + 1)) ∧
      (c = '\x7b' → ['\\'] <:+ e.2.take k ∨
        ∃ command ∈ escapeCommands, command <:+ e.2.take k ∧ ['\x7d'] <+: e.2.drop (k + 1)) ∧
      (c = '\x7d' → ['\\'] <:+ e.2.take k ∨
        ∃ command ∈ escapeCommands, command ++ ['\x7b'] <:+ e.2.take k) := by decide
  have hcut := hcuts e he before.length (by simp [h]) c (by simp [h])
  have hbefore : e.2.take before.length = before := by simp [h]
  have hafter : e.2.drop (before.length + 1) = after := by simp [h]
  rw [hbefore, hafter] at hcut
  obtain ⟨hmarked, hunwritten, hbegins, hopening, hclosing⟩ := hcut
  exact ⟨hmarked, hunwritten, fun hc => existsUnique_escape (hbegins hc), hopening, hclosing⟩

theorem placed_escapeChar {x : Char} (h : escapeChar x = before ++ c :: after) :
    Placed before c after := by
  rcases escapeChar_cases x with hmem | ⟨hne, heq⟩
  · exact placed_in_sequence hmem h
  · rw [heq, List.singleton_eq_append_iff] at h
    obtain ⟨-, hx⟩ | ⟨-, hx⟩ := h
    · obtain ⟨rfl, -⟩ := List.cons.inj hx
      exact placed_literal hne
    · cases hx

theorem placed_escapeChars (h : escapeChars cs = before ++ c :: after) :
    Placed before c after := by
  induction cs generalizing before with
  | nil => simp [escapeChars] at h
  | cons x cs ih =>
    rw [escapeChars_cons, List.append_eq_append_iff] at h
    obtain ⟨front, rfl, hrest⟩ | ⟨piece, hpiece, hrest⟩ := h
    · simpa using (ih hrest).within (escapeChar x) []
    · cases piece with
      | nil =>
        have hplaced : Placed [] c after := ih hrest.symm
        simpa using hplaced.within before []
      | cons d piece =>
        obtain ⟨rfl, rfl⟩ := List.cons.inj hrest
        exact (placed_escapeChar hpiece).within [] _

end

/-- Escaped text is safe, and it can be read in one way only. Every character with a meaning of its
own belongs to an escape sequence, each backslash begins one of the ten sequences, and reading gives
a text back from its escaped form and from nothing else. Two texts are never written alike. -/
theorem escape_exact (s : String) :
    (∀ before c after, (escape s).toList = before ++ c :: after → Placed before c after) ∧
    (∀ t, unescape? t = some s ↔ t = escape s) ∧
    ∀ s', escape s' = escape s ↔ s' = s := by
  refine ⟨fun before c after h => ?_, fun t => unescape?_eq_some_iff, fun s' => ⟨fun h => ?_, ?_⟩⟩
  · rw [escape, String.toList_ofList] at h
    exact placed_escapeChars h
  · have hread : unescape? (escape s') = some s := unescape?_eq_some_iff.2 h
    exact Option.some.inj ((unescape?_eq_some_iff.2 rfl).symm.trans hread)
  · rintro rfl
    rfl

theorem escape_exact_indexedName :
    escape "tx_\x7b0\x7d" = "tx\\_\\\x7b0\\\x7d" ∧
    Placed "tx\\".toList '_' "\\\x7b0\\\x7d".toList ∧
    unescape? "tx\\_\\\x7b0\\\x7d" = some "tx_\x7b0\x7d" ∧
    escape "tx_\x7b1\x7d" ≠ escape "tx_\x7b0\x7d" := by
  obtain ⟨hplaces, hread, hsame⟩ := escape_exact "tx_\x7b0\x7d"
  have hescape : escape "tx_\x7b0\x7d" = "tx\\_\\\x7b0\\\x7d" := by decide
  refine ⟨hescape, hplaces _ _ _ (by rw [hescape]; decide), (hread _).2 hescape.symm, ?_⟩
  exact fun heq => absurd ((hsame _).1 heq) (by decide)

end RegAtlas.Latex
