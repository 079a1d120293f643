import Mathlib.Tactic.MkIffOfInductiveProp
import RegAtlas.Entity.Line
import RegAtlas.Proofs.Text.Cut

/-!
# Forms of lines

Which texts are comments, rules, first lines and code. No line with a colon has another form than
code, unless it begins with dashes.
-/

namespace RegAtlas.Entity.Line

/-! ### What the parts of a form consume -/

section

variable {c : Char} {p : Char → Bool} {letters cs rest : List Char}

theorem mem_of_dropKeyword? (hc : ∀ letter ∈ letters, sameLetter letter c = false)
    (h : dropKeyword? letters cs = some rest) (hmem : c ∈ cs) : c ∈ rest := by
  fun_induction dropKeyword? letters cs with
  | case1 cs => exact Option.some.inj h ▸ hmem
  | case2 => cases h
  | case3 letter letters d cs hsame ih =>
    rw [List.forall_mem_cons] at hc
    rcases List.mem_cons.1 hmem with rfl | hmem
    · simp [hc.1] at hsame
    · exact ih hc.2 h hmem
  | case4 => cases h

theorem mem_skip (hc : p c = false) (hmem : c ∈ cs) : c ∈ skip p cs := by
  induction cs with
  | nil => cases hmem
  | cons d cs ih =>
    rw [skip, List.dropWhile_cons]
    split_ifs with hd
    · rcases List.mem_cons.1 hmem with rfl | hmem
      · simp [hc] at hd
      · exact ih hmem
    · exact hmem

theorem mem_of_skipSome? (hc : p c = false) (h : skipSome? p cs = some rest) (hmem : c ∈ cs) :
    c ∈ rest := by
  cases cs with
  | nil => cases hmem
  | cons d cs =>
    rw [skipSome?] at h
    split_ifs at h with hd
    rcases List.mem_cons.1 hmem with rfl | hmem
    · simp [hc] at hd
    · exact Option.some.inj h ▸ mem_skip hc hmem

end

/-! ### Code -/

section

theorem isBlank_colon : Text.isBlank ':' = false := by decide

variable {cs : List Char} (h : ':' ∈ cs)
include h

theorem isEntityStart_of_colon : isEntityStart cs = false := by
  rw [Bool.eq_false_iff]
  intro hstart
  simp only [isEntityStart, beq_iff_eq, Option.bind_eq_bind, Option.bind_eq_some_iff] at hstart
  obtain ⟨cs₁, h₁, cs₂, h₂, cs₃, h₃, cs₄, h₄, h₅⟩ := hstart
  have h := mem_of_dropKeyword? (by decide) h₁ h
  have h := mem_of_skipSome? isBlank_colon h₂ h
  have h := mem_of_skipSome? (by decide) h₃ h
  have h := mem_of_skipSome? isBlank_colon h₄ h
  exact absurd (mem_of_dropKeyword? (by decide) h₅ h) List.not_mem_nil

theorem isListStart_of_colon {keyword : List Char}
    (hkeyword : ∀ letter ∈ keyword, sameLetter letter ':' = false) :
    isListStart keyword cs = false := by
  rw [isListStart]
  split
  · rfl
  next rest hrest =>
    have h := mem_skip isBlank_colon (mem_of_dropKeyword? hkeyword hrest h)
    split
    next rest' hparen =>
      rw [hparen] at h
      have h := mem_skip isBlank_colon (List.mem_of_ne_of_mem (by decide) h)
      simpa using List.ne_nil_of_mem h
    · rfl

theorem isSemicolon_of_colon : isSemicolon cs = false := by
  rw [isSemicolon, beq_eq_false_iff_ne]
  intro hskip
  have h := mem_skip isBlank_colon h
  rw [hskip] at h
  exact absurd h (by decide)

theorem isEntityEnd_of_colon : isEntityEnd cs = false := by
  rw [isEntityEnd]
  split
  · rfl
  next rest hrest =>
    simp only [Option.bind_eq_bind, Option.bind_eq_some_iff] at hrest
    obtain ⟨cs₁, h₁, cs₂, h₂, h₃⟩ := hrest
    have h := mem_of_dropKeyword? (by decide) h₁ h
    have h := mem_of_skipSome? isBlank_colon h₂ h
    have h := mem_of_dropKeyword? (by decide) h₃ h
    rw [isSemicolon_of_colon h, Bool.false_or, Option.any_eq_false]
    intro cs₄ h₄
    obtain ⟨cs₅, h₅, h₆⟩ := Option.bind_eq_some_iff.1 h₄
    have h := mem_of_skipSome? isBlank_colon h₅ h
    have h := mem_of_skipSome? (by decide) h₆ h
    simp [isSemicolon_of_colon h]

theorem isListEnd_of_colon : isListEnd cs = false := by
  unfold isListEnd
  split
  · exact isSemicolon_of_colon (List.mem_of_ne_of_mem (by decide) h)
  · rfl

end

/-- A line with a colon is code if it does not begin with two dashes. -/
theorem classify_code {line : String} (hcolon : ':' ∈ line.toList)
    (hdashes : ¬ ['-', '-'] <+: line.toList) : classify line = .code line := by
  have hcomment : ['-', '-'].isPrefixOf line.toList = false := by
    rwa [Bool.eq_false_iff, ne_eq, List.isPrefixOf_iff_prefix]
  have hrule : ['-', '-', '-', '-'].isPrefixOf line.toList = false := by
    rw [Bool.eq_false_iff, ne_eq, List.isPrefixOf_iff_prefix]
    exact fun h => hdashes (.trans (by decide) h)
  have hgeneric : isListStart ['g', 'e', 'n', 'e', 'r', 'i', 'c'] line.toList = false :=
    isListStart_of_colon hcolon (by decide)
  have hport : isListStart ['p', 'o', 'r', 't'] line.toList = false :=
    isListStart_of_colon hcolon (by decide)
  simp [classify, isEntityStart_of_colon hcolon, hgeneric, hport, isEntityEnd_of_colon hcolon,
    hrule, hcomment, isListEnd_of_colon hcolon]

/-! ### Dashes -/

/-- A line that begins with a dash is a rule, a comment or code. -/
theorem classify_dash {line : String} {cs : List Char} (h : line.toList = '-' :: cs) :
    classify line = if ['-', '-', '-'].isPrefixOf cs then .rule
      else if ['-'].isPrefixOf cs then .comment (commentText ('-' :: cs)) else .code line := by
  rw [classify, h]
  rfl

/-- A text that can stand in a comment line. -/
@[mk_iff]
structure IsCommentText (text : String) : Prop where
  nonempty : text ≠ ""
  trimmed : Text.trim text = text
  noDash : text.toList.getLast? ≠ some '-'

instance (text : String) : Decidable (IsCommentText text) :=
  decidable_of_iff' _ (isCommentText_iff text)

/-- The comment line of a text. -/
def ofComment (text : String) : String := "-- " ++ text

/-- A rule of dashes. -/
def ofRule (dashes : Nat) : String := String.ofList (List.replicate dashes '-')

theorem toList_ofComment (text : String) :
    (ofComment text).toList = '-' :: '-' :: ' ' :: text.toList := by
  rw [ofComment, String.toList_append]
  rfl

theorem commentText_of_isCommentText {text : String} (h : IsCommentText text) :
    commentText ('-' :: '-' :: ' ' :: text.toList) = text := by
  have hne : text.toList ≠ [] := by simpa using h.nonempty
  have hdashes : Text.dropEndWhile (· == '-') (' ' :: text.toList) = ' ' :: text.toList := by
    refine Text.dropEndWhile_eq_self_iff.2 fun c hc => ?_
    rw [beq_eq_false_iff_ne]
    rintro rfl
    exact h.noDash (by rwa [List.getLast?_cons_of_ne_nil hne] at hc)
  have htrim : Text.trimChars (' ' :: text.toList) = text.toList :=
    (Text.trimChars_cons_of_isBlank (by decide) _).trans (Text.trim_eq_self_iff.1 h.trimmed)
  rw [commentText]
  simp [hdashes, htrim]

theorem classify_ofComment {text : String} (h : IsCommentText text) :
    classify (ofComment text) = .comment text := by
  rw [classify_dash (toList_ofComment text), commentText_of_isCommentText h]
  rfl

theorem classify_ofRule {dashes : Nat} (h : 4 ≤ dashes) : classify (ofRule dashes) = .rule := by
  obtain ⟨n, rfl⟩ := Nat.exists_eq_add_of_le' h
  have hlist : (ofRule (n + 4)).toList = '-' :: List.replicate (n + 3) '-' := by
    simp [ofRule, List.replicate_succ]
  rw [classify_dash hlist]
  simp [List.replicate_succ]

/-! ### The first line of an entity -/

theorem classify_entityStart {name : String} (hne : name ≠ "")
    (hname : ∀ c ∈ name.toList, Text.isWordChar c) :
    classify ("entity " ++ name ++ " is") = .entityStart := by
  obtain ⟨c, cs, hcons⟩ := List.exists_cons_of_ne_nil (show name.toList ≠ [] by simpa using hne)
  have hlist : ("entity " ++ name ++ " is").toList =
      'e' :: 'n' :: 't' :: 'i' :: 't' :: 'y' :: ' ' :: c :: (cs ++ [' ', 'i', 's']) := by
    simp [hcons]
  rw [hcons, List.forall_mem_cons] at hname
  have hblank : Text.isBlank c = false := by
    by_contra h
    simp [Text.isWordChar_of_isBlank (by simpa using h)] at hname
  have hword : skip Text.isWordChar (cs ++ [' ', 'i', 's']) = [' ', 'i', 's'] := by
    rw [skip, List.dropWhile_append_of_pos hname.2]
    rfl
  have hstart : isEntityStart ("entity " ++ name ++ " is").toList := by
    have hkeyword : dropKeyword? ['e', 'n', 't', 'i', 't', 'y']
        ('e' :: 'n' :: 't' :: 'i' :: 't' :: 'y' :: ' ' :: c :: (cs ++ [' ', 'i', 's'])) =
        some (' ' :: c :: (cs ++ [' ', 'i', 's'])) := rfl
    have hspace : skipSome? Text.isBlank (' ' :: c :: (cs ++ [' ', 'i', 's'])) =
        some (c :: (cs ++ [' ', 'i', 's'])) := by
      simp [skipSome?, skip, hblank, show Text.isBlank ' ' by decide]
    have hskip : skipSome? Text.isWordChar (c :: (cs ++ [' ', 'i', 's'])) =
        some [' ', 'i', 's'] := by
      rw [skipSome?, if_pos hname.1, hword]
    rw [hlist, isEntityStart]
    simp only [hkeyword, hspace, hskip, Option.bind_eq_bind, Option.bind_some]
    rfl
  rw [classify, if_pos hstart]

/-! ### Trimmed lines -/

/-- A trimmed line and its form. -/
structure Spells (line : String) (form : Line) : Prop where
  nonempty : line ≠ ""
  trimmed : Text.trim line = line
  classified : classify line = form

theorem spells_ofComment {text : String} (h : IsCommentText text) :
    Spells (ofComment text) (.comment text) where
  nonempty := by rw [ne_eq, ← String.toList_inj, toList_ofComment]; simp
  trimmed := by
    have hne : text.toList ≠ [] := by simpa using h.nonempty
    have hlast := (Text.trimChars_eq_self_iff.1 (Text.trim_eq_self_iff.1 h.trimmed)).2
    rw [Text.trim_eq_self_iff, toList_ofComment, Text.trimChars_eq_self_iff,
      List.getLast?_cons_cons, List.getLast?_cons_cons, List.getLast?_cons_of_ne_nil hne]
    exact ⟨by simp [show Text.isBlank '-' = false by decide], hlast⟩
  classified := classify_ofComment h

theorem spells_ofRule {dashes : Nat} (h : 4 ≤ dashes) : Spells (ofRule dashes) .rule where
  nonempty := by
    rw [ofRule, ne_eq, String.ofList_eq_empty_iff, List.replicate_eq_nil_iff]
    omega
  trimmed := by
    rw [Text.trim_eq_self_iff, ofRule, String.toList_ofList]
    refine Text.trimChars_of_forall_not_blank fun c hc => ?_
    rw [List.eq_of_mem_replicate hc]
    decide
  classified := classify_ofRule h

theorem spells_entityStart {name : String} (hne : name ≠ "")
    (hname : ∀ c ∈ name.toList, Text.isWordChar c) :
    Spells ("entity " ++ name ++ " is") .entityStart where
  nonempty := by rw [ne_eq, ← String.toList_inj]; simp
  trimmed := by
    have hlist : ("entity " ++ name ++ " is").toList =
        'e' :: ('n' :: 't' :: 'i' :: 't' :: 'y' :: ' ' :: name.toList ++ [' ', 'i']) ++ ['s'] := by
      simp
    rw [Text.trim_eq_self_iff, Text.trimChars_eq_self_iff, hlist, List.getLast?_concat]
    simp [show Text.isBlank 'e' = false by decide, show Text.isBlank 's' = false by decide]
  classified := classify_entityStart hne hname

theorem spells_genericStart : Spells "generic (" .genericStart := ⟨by decide, by decide, by decide⟩

theorem spells_portStart : Spells "port (" .portStart := ⟨by decide, by decide, by decide⟩

theorem spells_listEnd : Spells ");" .listEnd := ⟨by decide, by decide, by decide⟩

theorem spells_entityEnd : Spells "end entity;" .entityEnd := ⟨by decide, by decide, by decide⟩

end RegAtlas.Entity.Line
