import RegAtlas.Proofs.LineWriter.Record
import RegAtlas.Proofs.Text.Cut

/-!
# Reading the lines of a writer

What a reader of the written lines finds that takes them one after another and does not care for
indentation. A reader passes over commentary: the lines that comments take up are empty or begin
with the comment character.
-/

namespace RegAtlas

namespace LineWriter

open Text (trimStart trimStartChars trimEnd)

section

variable (w : LineWriter) (text : String)

/-- The lines written so far, without indentation. -/
def shown : List String := w.lines.toList.map trimStart

@[simp] theorem shown_setLevel (n : Nat) : { w with level := n }.shown = w.shown := rfl

@[simp] theorem style_setLevel (n : Nat) : { w with level := n }.style = w.style := rfl

theorem trimStart_repeated_append {c : Char} (hc : Text.isBlank c) (n : Nat) (text : String) :
    trimStart (repeated c n ++ text) = trimStart text := by
  have hblank : ∀ d ∈ List.replicate n c, Text.isBlank d = true := fun d hd => by
    rwa [List.eq_of_mem_replicate hd]
  rw [trimStart, trimStart, repeated, String.toList_append, String.toList_ofList, trimStartChars,
    List.dropWhile_append_of_pos hblank, trimStartChars]

@[simp] theorem shown_line : (w.line text).shown = w.shown ++ [trimStart text] := by
  rw [line]
  split
  case isTrue hempty =>
    rw [String.isEmpty_iff] at hempty
    simp [shown, blank, push, hempty]
  case isFalse =>
    have hblank : Text.isBlank (if w.style.useSpaces then ' ' else '\t') := by
      split <;> decide
    simp [shown, push, trimStart_repeated_append hblank]

@[simp] theorem style_line : (w.line text).style = w.style := by
  rw [line]
  split <;> rfl

@[simp] theorem shown_blank : w.blank.shown = w.shown ++ [trimStart ""] := by
  simp [shown, blank, push]

@[simp] theorem style_blank : w.blank.style = w.style := rfl

@[simp] theorem shown_writeLines (texts : List String) :
    (w.writeLines texts).shown = w.shown ++ texts.map trimStart := by
  rw [writeLines]
  induction texts generalizing w with
  | nil => simp
  | cons text texts ih => simp [ih]

@[simp] theorem style_writeLines (texts : List String) : (w.writeLines texts).style = w.style := by
  rw [writeLines]
  induction texts generalizing w with
  | nil => rfl
  | cons text texts ih => simp [ih]

theorem trimStart_indented (style : Style) (level : Nat) (text : String) :
    trimStart (indented style level text) = trimStart text := by
  rw [indented]
  split
  case isTrue hempty => rw [String.isEmpty_iff.1 hempty]
  case isFalse => exact trimStart_repeated_append (by split <;> decide) level text

/-- Lines that are appended are shown, at whatever indentation. -/
theorem shown_append (level : Nat) (texts : List String) :
    { w with lines := w.lines ++ (texts.map (indented w.style level)).toArray }.shown =
      w.shown ++ texts.map trimStart := by
  simp [shown, trimStart_indented, Function.comp_def]

end

/-! ### Lines behind others -/

/-- These lines are shown first. -/
def BeginsWith (w : LineWriter) (before : List String) : Prop := before <+: w.shown

namespace BeginsWith

variable {w : LineWriter} {before : List String}

theorem self (w : LineWriter) : w.BeginsWith w.shown := List.prefix_refl _

theorem line (h : w.BeginsWith before) (text : String) : (w.line text).BeginsWith before := by
  rw [BeginsWith, shown_line]
  exact h.trans (List.prefix_append _ _)

theorem blank (h : w.BeginsWith before) : w.blank.BeginsWith before := by
  rw [BeginsWith, shown_blank]
  exact h.trans (List.prefix_append _ _)

theorem foldl {α : Type} {write : LineWriter → α → LineWriter}
    (hwrite : ∀ v a, v.BeginsWith before → (write v a).BeginsWith before)
    (h : w.BeginsWith before) (as : List α) : (as.foldl write w).BeginsWith before := by
  induction as generalizing w with
  | nil => exact h
  | cons a as ih => exact ih (hwrite w a h)

theorem writeLines (h : w.BeginsWith before) (texts : List String) :
    (w.writeLines texts).BeginsWith before := h.foldl (fun _ text hv => hv.line text) texts

/-- What opens and closes a construct goes behind the other lines like its body. -/
theorem scope (h : w.BeginsWith before) (opener closer : String) {body : LineWriter → LineWriter}
    (hbody : ∀ v, v.BeginsWith before → (body v).BeginsWith before) :
    (w.scope opener closer body).BeginsWith before :=
  line (w := (body (w.openScope opener)).dedent) (hbody (w.openScope opener) (h.line opener)) closer

end BeginsWith

/-! ### Commentary -/

/-- A line that is empty or begins with the mark of a comment. -/
def IsCommentary (mark : Char) (line : String) : Prop :=
  line = "" ∨ line.toList.head? = some mark

instance (mark : Char) (line : String) : Decidable (IsCommentary mark line) :=
  inferInstanceAs (Decidable (_ ∨ _))

variable {mark : Char} {text : String}

/-- A text that begins with a shown character has nothing to trim there. -/
theorem trimStart_of_head? {c : Char} (h : text.toList.head? = some c)
    (hc : Text.isBlank c = false) : trimStart text = text := by
  obtain ⟨rest, hrest⟩ := List.head?_eq_some_iff.1 h
  rw [trimStart, hrest, trimStartChars, List.dropWhile_cons_of_neg (by simp [hc]), ← hrest,
    String.ofList_toList]

theorem isCommentary_trimStart (hmark : Text.isBlank mark = false) (h : IsCommentary mark text) :
    IsCommentary mark (trimStart text) := by
  obtain rfl | hhead := h
  · exact .inl (by decide)
  · rw [trimStart_of_head? hhead hmark]
    exact .inr hhead

theorem isCommentary_trimEnd (hmark : Text.isBlank mark = false)
    (h : text.toList.head? = some mark) : IsCommentary mark (trimEnd text) := by
  obtain ⟨rest, hrest⟩ := List.head?_eq_some_iff.1 h
  refine .inr ?_
  -- What is dropped at the end stops at the mark at the latest.
  have hdrop : ∃ kept, (rest.reverse ++ [mark]).dropWhile Text.isBlank = kept ++ [mark] := by
    induction rest.reverse with
    | nil => exact ⟨[], by simp [hmark]⟩
    | cons c cs ih =>
      rw [List.cons_append, List.dropWhile_cons]
      split
      · exact ih
      · exact ⟨c :: cs, rfl⟩
  obtain ⟨kept, hkept⟩ := hdrop
  rw [trimEnd, hrest, Text.trimEndChars, Text.dropEndWhile, List.reverse_cons, hkept,
    String.toList_ofList, List.reverse_concat, List.head?_cons]

theorem isCommentary_repeated (mark : Char) (n : Nat) : IsCommentary mark (repeated mark n) := by
  cases n with
  | zero => exact .inl rfl
  | succ n => exact .inr (by simp [repeated, List.replicate_succ])

variable {w : LineWriter}

theorem head?_marker_append (w : LineWriter) (text : String) :
    (w.marker ++ text).toList.head? = some w.style.commentChar := by
  simp [marker, repeated, List.replicate_succ]

/-- The lines of a comment block are commentary. -/
theorem isCommentary_of_mem_block (hmark : Text.isBlank w.style.commentChar = false) {c : Comment}
    (h : text ∈ c.block w) : IsCommentary w.style.commentChar text := by
  have hmarked : ∀ t, IsCommentary w.style.commentChar (w.marker ++ t) := fun t =>
    .inr (head?_marker_append w t)
  have hbody : ∀ t ∈ c.body w.marker (w.style.maxLineLength - w.commentLevel),
      IsCommentary w.style.commentChar t := by
    intro t ht
    rw [Comment.body, List.mem_append] at ht
    obtain ht | ht := ht
    · split at ht
      · obtain rfl | ht := List.mem_cons.1 ht
        · simpa [String.append_assoc] using hmarked (" " ++ _)
        · rw [List.mem_singleton.1 ht]
          simpa using hmarked ""
      · simp at ht
    · split at ht
      · obtain ⟨l, -, rfl⟩ := List.mem_map.1 ht
        simpa [String.append_assoc] using hmarked (" " ++ l)
      · rw [List.mem_singleton.1 ht, String.append_assoc]
        exact isCommentary_trimEnd hmark (head?_marker_append w _)
  have hrule : ∀ t ∈ (if c.framed then
      [repeated w.style.commentChar (w.style.maxLineLength - w.commentLevel)] else []),
      IsCommentary w.style.commentChar t := by
    intro t ht
    split at ht
    · rw [List.mem_singleton.1 ht]
      exact isCommentary_repeated _ _
    · simp at ht
  simp only [Comment.block, List.mem_append] at h
  obtain (h | h) | h := h
  · exact hrule _ h
  · exact hbody _ h
  · exact hrule _ h

theorem isCommentary_of_mem_commentedLines (hmark : Text.isBlank w.style.commentChar = false)
    {source : String} (h : text ∈ w.commentedLines source) :
    IsCommentary w.style.commentChar text := by
  obtain ⟨l, -, rfl⟩ := List.mem_map.1 h
  rw [String.append_assoc]
  exact isCommentary_trimEnd hmark (head?_marker_append w _)

end LineWriter

/-! ### Readers -/

open LineWriter Text

/-- A reader of lines without indentation. Between commentary it is in a state that depends on what
it has found so far. -/
structure LineReader (σ β : Type) where
  start : σ
  step : σ → String → σ
  state : List β → σ
  /-- The character of comments. -/
  mark : Char
  mark_not_blank : isBlank mark = false
  passes : ∀ found line, IsCommentary mark line → step (state found) line = state found

namespace LineReader

variable {σ β : Type} (R : LineReader σ β)

/-- The reader finds this in the lines written so far, and these lines wait to be written. -/
structure Finds (w : LineWriter) (waiting : List String) (found : List β) : Prop where
  mark_eq : w.style.commentChar = R.mark
  waiting_eq : w.deferred = waiting
  read_eq : w.shown.foldl R.step R.start = R.state found

theorem foldl_commentary {lines : List String} (h : ∀ l ∈ lines, IsCommentary R.mark l)
    (found : List β) : (lines.map trimStart).foldl R.step (R.state found) = R.state found := by
  induction lines with
  | nil => rfl
  | cons l lines ih =>
    obtain ⟨hl, hlines⟩ := List.forall_mem_cons.1 h
    have hpass := R.passes found _ (isCommentary_trimStart R.mark_not_blank hl)
    rw [List.map_cons, List.foldl_cons, hpass, ih hlines]

namespace Finds

variable {R} {w : LineWriter} {waiting : List String} {found found' : List β}

/-- Lines go on what was found by what the reader does with them. -/
theorem append {level : Nat} {texts : List String} (h : R.Finds w waiting found)
    (hread : (texts.map trimStart).foldl R.step (R.state found) = R.state found') :
    R.Finds { w with lines := w.lines ++ (texts.map (indented w.style level)).toArray } waiting
      found' where
  mark_eq := h.mark_eq
  waiting_eq := h.waiting_eq
  read_eq := by rw [w.shown_append, List.foldl_append, h.read_eq, hread]

theorem line (text : String) (h : R.Finds w waiting found)
    (hstep : R.step (R.state found) (trimStart text) = R.state found') :
    R.Finds (w.line text) waiting found' where
  mark_eq := (w.style_line text).symm ▸ h.mark_eq
  waiting_eq := by rw [line_eq]; exact h.waiting_eq
  read_eq := by rw [w.shown_line, List.foldl_append, h.read_eq]; exact hstep

theorem blank (h : R.Finds w waiting found) : R.Finds w.blank waiting found :=
  h.line "" (R.passes found _ (.inl (by decide)))

theorem mark_not_blank (h : R.Finds w waiting found) : isBlank w.style.commentChar = false :=
  h.mark_eq ▸ R.mark_not_blank

theorem comment (h : R.Finds w waiting found) (c : Comment) :
    R.Finds (w.comment c) waiting found := by
  rw [comment_eq]
  exact h.append (R.foldl_commentary
    (fun l hl => h.mark_eq ▸ isCommentary_of_mem_block h.mark_not_blank hl) found)

theorem commentLines (h : R.Finds w waiting found) (text : String) :
    R.Finds (w.commentLines text) waiting found := by
  rw [commentLines_eq]
  exact h.append (R.foldl_commentary
    (fun l hl => h.mark_eq ▸ isCommentary_of_mem_commentedLines h.mark_not_blank hl) found)

theorem setLevel (h : R.Finds w waiting found) (level : Nat) :
    R.Finds { w with level } waiting found := ⟨h.mark_eq, h.waiting_eq, h.read_eq⟩

theorem indent (h : R.Finds w waiting found) : R.Finds w.indent waiting found :=
  ⟨h.mark_eq, h.waiting_eq, h.read_eq⟩

theorem dedent (h : R.Finds w waiting found) : R.Finds w.dedent waiting found := h.setLevel _

theorem defer (h : R.Finds w waiting found) (text : String) :
    R.Finds (w.defer text) (waiting ++ [text]) found :=
  ⟨h.mark_eq, congrArg (· ++ [text]) h.waiting_eq, h.read_eq⟩

/-- The waiting lines are read like any others once they are written. -/
theorem flushAll (h : R.Finds w waiting found)
    (hread : (waiting.map trimStart).foldl R.step (R.state found) = R.state found') :
    R.Finds w.flushAll [] found' where
  mark_eq := by rw [LineWriter.flushAll, flush_eq]; exact h.mark_eq
  waiting_eq := by simp [LineWriter.flushAll, flush_eq]
  read_eq := by
    have hlines := h.waiting_eq ▸ hread
    rw [LineWriter.flushAll, flush_eq, List.take_length]
    exact ((w.shown_append w.level w.deferred).symm ▸ List.foldl_append).trans
      (h.read_eq.symm ▸ hlines)

/-- A loop finds what its rounds find, one after another. -/
theorem foldl {α : Type} (write : LineWriter → α → LineWriter) (names : α → List β) (as : List α)
    (hwrite : ∀ w found, R.Finds w waiting found → ∀ a ∈ as,
      R.Finds (write w a) waiting (found ++ names a))
    (h : R.Finds w waiting found) :
    R.Finds (as.foldl write w) waiting (found ++ as.flatMap names) := by
  induction as generalizing w found with
  | nil => simpa using h
  | cons a as ih =>
    have hfirst := hwrite w found h a List.mem_cons_self
    have hrest := ih (fun w found hw b hb => hwrite w found hw b (List.mem_cons_of_mem _ hb)) hfirst
    rwa [List.append_assoc, ← List.flatMap_cons] at hrest

theorem writeLines {α : Type} (render : α → String) (names : α → List β) (as : List α)
    (hstep : ∀ found, ∀ a ∈ as,
      R.step (R.state found) (trimStart (render a)) = R.state (found ++ names a))
    (h : R.Finds w waiting found) :
    R.Finds (w.writeLines (as.map render)) waiting (found ++ as.flatMap names) := by
  rw [LineWriter.writeLines, List.foldl_map]
  exact h.foldl (fun w a => w.line (render a)) names as fun w found hw a ha =>
    hw.line (render a) (hstep found a ha)

end Finds

/-! ### Reading line by line -/

/-- Collects what can be read off single lines, which is nothing from commentary. -/
def collect {mark : Char} (hmark : isBlank mark = false) (read : String → Option β)
    (hread : ∀ line, IsCommentary mark line → read line = none) : LineReader (List β) β where
  start := []
  step found line := found ++ (read line).toList
  state found := found
  mark := mark
  mark_not_blank := hmark
  passes found line h := by rw [hread line h, Option.toList_none, List.append_nil]

section

variable {mark : Char} {hmark : isBlank mark = false} {read : String → Option β}
  {hread : ∀ line, IsCommentary mark line → read line = none}

/-- A line of which nothing can be read goes unnoticed. -/
theorem collect_step_none {line : String} (h : read line = none) (found : List β) :
    (collect hmark read hread).step ((collect hmark read hread).state found) line =
      (collect hmark read hread).state found := by
  simp [collect, h]

theorem collect_step_some {line : String} {b : β} (h : read line = some b) (found : List β) :
    (collect hmark read hread).step ((collect hmark read hread).state found) line =
      (collect hmark read hread).state (found ++ [b]) := by
  simp [collect, h]

theorem foldl_collect (lines : List String) (found : List β) :
    lines.foldl (collect hmark read hread).step found = found ++ lines.filterMap read := by
  induction lines generalizing found with
  | nil => simp
  | cons line lines ih =>
    rw [List.foldl_cons, ih]
    cases hline : read line <;> simp [collect, hline]

/-- What such a reader finds is read off the lines one by one. -/
theorem filterMap_shown_of_finds {w : LineWriter} {waiting : List String} {found : List β}
    (h : (collect hmark read hread).Finds w waiting found) : w.shown.filterMap read = found :=
  (foldl_collect w.shown []).symm.trans h.read_eq

/-- Such a reader can begin anywhere. -/
theorem finds_filterMap_shown {w : LineWriter} (h : w.style.commentChar = mark) :
    (collect hmark read hread).Finds w w.deferred (w.shown.filterMap read) :=
  ⟨h, rfl, foldl_collect w.shown []⟩

end

end LineReader

end RegAtlas
