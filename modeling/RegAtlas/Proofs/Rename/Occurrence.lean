import RegAtlas.Proofs.Rename.Mention

/-!
# Mentions as places of a text

Which of the occurrences of a name are its mentions, place by place. The mentions cut a text into
parts, and replacing the name joins the same parts by its replacement.
-/

namespace RegAtlas.Mention

open Text (isBlank)

/-- The name stands in the text between two parts of it, behind white space, and ends the text or
precedes a blank, a full stop, a comma or an opening bracket. -/
structure IsMention (name text before after : List Char) : Prop where
  occurs : text = before ++ name ++ after
  behind : ∃ c, before.getLast? = some c ∧ isBlank c
  ends : ∀ c, after.head? = some c → c ∈ [' ', '.', ',', '[', '(', '\x7b']

/-- A mention in a text that follows a character. -/
@[mk_iff]
structure IsMentionFrom (name : List Char) (last : Option Char) (text before after : List Char) :
    Prop where
  occurs : text = before ++ name ++ after
  behind : (before.getLast?.or last).any isBlank
  ends : endsWord after.head?

theorem isMention_iff {name text before after : List Char} :
    IsMention name text before after ↔ IsMentionFrom name none text before after := by
  have hbehind : (∃ c, before.getLast? = some c ∧ isBlank c) ↔
      (before.getLast?.or none).any isBlank := by
    cases before.getLast? <;> simp
  have hends : (∀ c, after.head? = some c → c ∈ [' ', '.', ',', '[', '(', '\x7b']) ↔
      endsWord after.head? := by
    cases after.head? <;> simp [endsWord, or_assoc]
  exact ⟨fun h => ⟨h.occurs, hbehind.1 h.behind, hends.1 h.ends⟩,
    fun h => ⟨h.occurs, hbehind.2 h.behind, hends.2 h.ends⟩⟩

/-! ### Parts between mentions -/

/-- The parts of a text that follows a character, cut at the mentions of a name. -/
def partsFrom (name : List Char) (last : Option Char) : List Char → List (List Char)
  | [] => [[]]
  | c :: cs =>
    if mentionsHead name last (c :: cs) then
      [] :: partsFrom name name.getLast? (cs.drop (name.length - 1))
    else (partsFrom name (some c) cs).modifyHead (c :: ·)
termination_by cs => cs.length
decreasing_by all_goals simp; try omega

/-- Two neighbouring parts meet between the characters, where the name joins all parts. -/
def IsJoint (name : List Char) (parts : List (List Char)) (before after : List Char) : Prop :=
  ∃ left right, parts = left ++ right ∧ left ≠ [] ∧ right ≠ [] ∧
    before = name.intercalate left ∧ after = name.intercalate right

section

variable {name old new w before after : List Char} {parts : List (List Char)} {last : Option Char}
  {cs : List Char} {c : Char}

theorem partsFrom_ne_nil : partsFrom name last cs ≠ [] := by
  fun_induction partsFrom name last cs with
  | case1 => simp
  | case2 => simp
  | case3 last c cs _ ih => simpa [List.modifyHead_eq_nil_iff] using ih

theorem intercalate_nil_cons (h : parts ≠ []) :
    w.intercalate ([] :: parts) = w ++ w.intercalate parts := by
  cases parts with
  | nil => exact absurd rfl h
  | cons part parts => rw [List.intercalate_cons_cons, List.nil_append]

theorem intercalate_modifyHead (h : parts ≠ []) :
    w.intercalate (parts.modifyHead (c :: ·)) = c :: w.intercalate parts := by
  cases parts with
  | nil => exact absurd rfl h
  | cons part parts =>
    cases parts with
    | nil => simp
    | cons next parts => simp [List.intercalate_cons_cons]

/-- What begins with a mention is the name and what stands behind it. -/
theorem eq_append_drop (hne : name ≠ []) (h : mentionsHead name last (c :: cs)) :
    c :: cs = name ++ cs.drop (name.length - 1) := by
  obtain ⟨after, heq, -⟩ := mentionsHead_iff.1 h
  obtain ⟨d, tail, rfl⟩ := List.exists_cons_of_ne_nil hne
  obtain ⟨rfl, rfl⟩ := List.cons.inj heq
  simp

/-- The name joins the parts to the text. -/
theorem intercalate_partsFrom (hne : name ≠ []) :
    name.intercalate (partsFrom name last cs) = cs := by
  fun_induction partsFrom name last cs with
  | case1 => simp
  | case2 last c cs hmention ih =>
    rw [intercalate_nil_cons partsFrom_ne_nil, ih, ← eq_append_drop hne hmention]
  | case3 last c cs _ ih => rw [intercalate_modifyHead partsFrom_ne_nil, ih]

/-- The replacement of the name joins them to the text with the mentions replaced. -/
theorem substituteFrom_eq_intercalate :
    substituteFrom [(old, new)] last cs = new.intercalate (partsFrom old last cs) := by
  fun_induction partsFrom old last cs with
  | case1 => simp [substituteFrom]
  | case2 last c cs hmention ih =>
    rw [substituteFrom_of_mentionsHead hmention, ih, intercalate_nil_cons partsFrom_ne_nil]
  | case3 last c cs hmention ih =>
    rw [substituteFrom_of_not_mentionsHead (by simpa using hmention), ih,
      intercalate_modifyHead partsFrom_ne_nil]

/-! ### Mentions are joints -/

theorem not_isJoint_singleton (part : List Char) : ¬IsJoint name [part] before after := by
  rintro ⟨left, right, heq, hleft, hright, -⟩
  rcases List.append_eq_singleton_iff.1 heq.symm with ⟨h, -⟩ | ⟨-, h⟩
  · exact hleft h
  · exact hright h

theorem isJoint_nil_cons (h : parts ≠ []) : IsJoint name ([] :: parts) before after ↔
    before = [] ∧ after = name.intercalate parts ∨
      ∃ before', before = name ++ before' ∧ IsJoint name parts before' after := by
  constructor
  · rintro ⟨left, right, heq, hleft, hright, rfl, rfl⟩
    obtain ⟨part, left, rfl⟩ := List.exists_cons_of_ne_nil hleft
    obtain ⟨rfl, rfl⟩ := List.cons.inj heq
    by_cases hnil : left = []
    · subst hnil
      exact .inl ⟨by simp, rfl⟩
    · exact .inr ⟨_, intercalate_nil_cons hnil, left, right, rfl, hnil, hright, rfl, rfl⟩
  · rintro (⟨rfl, rfl⟩ | ⟨_, rfl, left, right, rfl, hleft, hright, rfl, rfl⟩)
    · exact ⟨[[]], parts, rfl, by simp, h, by simp, rfl⟩
    · exact ⟨[] :: left, right, rfl, by simp, hright, (intercalate_nil_cons hleft).symm, rfl⟩

theorem isJoint_modifyHead : IsJoint name (parts.modifyHead (c :: ·)) before after ↔
    ∃ before', before = c :: before' ∧ IsJoint name parts before' after := by
  constructor
  · rintro ⟨left, right, heq, hleft, hright, rfl, rfl⟩
    obtain ⟨part, left, rfl⟩ := List.exists_cons_of_ne_nil hleft
    cases parts with
    | nil => simp at heq
    | cons first parts =>
      obtain ⟨rfl, rfl⟩ := List.cons.inj heq
      have hjoin := intercalate_modifyHead (w := name) (c := c) (List.cons_ne_nil first left)
      exact ⟨_, hjoin, first :: left, right, rfl, by simp, hright, rfl, rfl⟩
  · rintro ⟨_, rfl, left, right, rfl, hleft, hright, rfl, rfl⟩
    obtain ⟨first, left, rfl⟩ := List.exists_cons_of_ne_nil hleft
    exact ⟨(c :: first) :: left, right, rfl, by simp, hright,
      (intercalate_modifyHead (List.cons_ne_nil first left)).symm, rfl⟩

/-- No mention begins inside of an occurrence of the name, which holds no white space. -/
theorem exists_eq_append (hshown : ∀ c ∈ name, isBlank c = false) (hne : before ≠ [])
    (h : IsMentionFrom name last (name ++ cs) before after) :
    ∃ before', before = name ++ before' := by
  have hoccurs := h.occurs
  rw [List.append_assoc, List.append_eq_append_iff] at hoccurs
  obtain ⟨before', rfl, -⟩ | ⟨tail, hname, -⟩ := hoccurs
  · exact ⟨before', rfl⟩
  · have hlast := List.getLast?_eq_some_getLast hne
    have hmem : before.getLast hne ∈ name := hname ▸ List.mem_append_left _ (List.getLast_mem hne)
    have hbehind := h.behind
    simp [hlast, hshown _ hmem] at hbehind

/-- Behind an occurrence of the name, a text follows the last character of the name. -/
theorem isMentionFrom_append_iff (hne : name ≠ []) :
    IsMentionFrom name last (name ++ cs) (name ++ before) after ↔
      IsMentionFrom name name.getLast? cs before after := by
  have hlast : (name ++ before).getLast?.or last = before.getLast?.or name.getLast? := by
    rw [List.getLast?_append, Option.or_assoc, List.getLast?_eq_some_getLast hne, Option.some_or]
  simp only [isMentionFrom_iff, hlast, List.append_assoc, List.append_cancel_left_eq]

/-- The mentions of a name are the places where the parts of the text meet. -/
theorem isMentionFrom_iff_isJoint (hne : name ≠ []) (hshown : ∀ c ∈ name, isBlank c = false) :
    IsMentionFrom name last cs before after ↔
      IsJoint name (partsFrom name last cs) before after := by
  fun_induction partsFrom name last cs generalizing before with
  | case1 last =>
    refine iff_of_false (fun h => ?_) (not_isJoint_singleton [])
    simpa [hne] using h.occurs
  | case2 last c cs hmention =>
    rename_i ih
    rw [isJoint_nil_cons partsFrom_ne_nil, intercalate_partsFrom hne, eq_append_drop hne hmention]
    constructor
    · intro h
      by_cases hbefore : before = []
      · subst hbefore
        exact .inl ⟨rfl, (List.append_cancel_left h.occurs).symm⟩
      · obtain ⟨before', rfl⟩ := exists_eq_append hshown hbefore h
        exact .inr ⟨before', rfl, ih.1 ((isMentionFrom_append_iff hne).1 h)⟩
    · rintro (⟨rfl, rfl⟩ | ⟨before', rfl, h⟩)
      · obtain ⟨after, heq, hlast, hends⟩ := mentionsHead_iff.1 hmention
        rw [eq_append_drop hne hmention] at heq
        obtain rfl := List.append_cancel_left heq
        exact ⟨rfl, hlast, hends⟩
      · exact (isMentionFrom_append_iff hne).2 (ih.2 h)
  | case3 last c cs hmention =>
    rename_i ih
    rw [isJoint_modifyHead]
    constructor
    · rintro ⟨hoccurs, hbehind, hends⟩
      cases before with
      | nil => exact absurd (mentionsHead_iff.2 ⟨after, hoccurs, hbehind, hends⟩) hmention
      | cons d before =>
        obtain ⟨rfl, rfl⟩ := List.cons.inj hoccurs
        exact ⟨before, rfl, ih.1 ⟨rfl, by simpa [List.getLast?_cons] using hbehind, hends⟩⟩
    · rintro ⟨before', rfl, h⟩
      obtain ⟨rfl, hbehind, hends⟩ := ih.2 h
      exact ⟨rfl, by simpa [List.getLast?_cons] using hbehind, hends⟩

end

/-- Replacing a name replaces its mentions, all of them and nothing else. It gives no text exactly
if there is no mention. Otherwise the text is cut at its mentions, and the same parts are joined by
the replacement. -/
theorem replace?_exact {old new text : String} (hold : old ≠ "") (hnew : new ≠ "")
    (holdShown : ∀ c ∈ old.toList, isBlank c = false)
    (hnewShown : ∀ c ∈ new.toList, isBlank c = false) :
    (replace? old new text = none ↔
      ¬∃ before after, IsMention old.toList text.toList before after) ∧
    ∃ parts : List (List Char), text.toList = old.toList.intercalate parts ∧
      (∀ before after, IsMention old.toList text.toList before after ↔
        IsJoint old.toList parts before after) ∧
      ∀ done, replace? old new text = some done → done.toList = new.toList.intercalate parts := by
  have hne : old.toList ≠ [] := by simpa using hold
  have hreplaces : Replaces old.toList new.toList :=
    ⟨hne, holdShown, hnewShown, .inl (by simpa using hnew)⟩
  refine ⟨?_, partsFrom old.toList none text.toList, (intercalate_partsFrom hne).symm, ?_, ?_⟩
  · simp only [replace?_eq_none_iff hreplaces, mentions_iff, mentionsFrom_iff, isMention_iff,
      isMentionFrom_iff]
  · intro before after
    rw [isMention_iff, isMentionFrom_iff_isJoint hne holdShown]
  · intro done hdone
    rw [replace?_eq hreplaces] at hdone
    split at hdone
    · obtain rfl := Option.some.inj hdone
      rw [substitute, String.toList_ofList]
      exact substituteFrom_eq_intercalate
    · cases hdone

/-- At its beginning and inside of another name the name is not mentioned. -/
theorem replace?_exact_twice : "MODE" ≠ "" ∧ "Mode" ≠ "" ∧
    (∀ c ∈ "MODE".toList, isBlank c = false) ∧ (∀ c ∈ "Mode".toList, isBlank c = false) ∧
    ∃ parts, "MODE and TX_MODE, see MODE.ENA or MODE".toList = "MODE".toList.intercalate parts ∧
      "MODE and TX_MODE, see Mode.ENA or Mode".toList = "Mode".toList.intercalate parts := by
  have hold : ∀ c ∈ "MODE".toList, isBlank c = false := by decide
  have hnew : ∀ c ∈ "Mode".toList, isBlank c = false := by decide
  have hdone : replace? "MODE" "Mode" "MODE and TX_MODE, see MODE.ENA or MODE" =
      some "MODE and TX_MODE, see Mode.ENA or Mode" := by decide +kernel
  obtain ⟨-, parts, htext, -, hreplaced⟩ := replace?_exact (by decide) (by decide) hold hnew
  exact ⟨by decide, by decide, hold, hnew, parts, htext, hreplaced _ hdone⟩

end RegAtlas.Mention
