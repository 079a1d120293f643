import RegAtlas.Proofs.LineWriter.Record
import RegAtlas.Proofs.Text.Wrap

/-!
# The width of comment blocks

A filled comment block stays within the line length however deep it is written, as long as its words
leave room for the indentation and the mark. The limit of a line counts the bytes of its words and
of the mark, the width of a line its characters, which are no more than the bytes.
-/

namespace RegAtlas.LineWriter

open Text

/-! ### Characters and bytes -/

theorem length_le_utf8ByteSize (s : String) : s.length ≤ s.utf8ByteSize := by
  obtain ⟨cs, rfl⟩ : ∃ cs, s = String.ofList cs := ⟨s.toList, s.ofList_toList.symm⟩
  induction cs with
  | nil => simp
  | cons c cs ih =>
    have hpos := c.utf8Size_pos
    rw [String.ofList_cons, String.length_append, String.utf8ByteSize_append,
      String.length_singleton, String.utf8ByteSize_singleton]
    omega

@[simp] theorem length_repeated (c : Char) (n : Nat) : (repeated c n).length = n := by
  simp [repeated]

theorem repeated_ne_empty {c : Char} {n : Nat} (h : 0 < n) : repeated c n ≠ "" := by
  intro hempty
  have hlength := congrArg String.length hempty
  rw [length_repeated, String.length_empty] at hlength
  omega

/-! ### Lines of a block -/

/-- The characters before the text of a line. -/
def indentation (style : Style) (level : Nat) : String :=
  repeated (if style.useSpaces then ' ' else '\t') level

theorem indented_of_ne_empty {text : String} (h : text ≠ "") (style : Style) (level : Nat) :
    indented style level text = indentation style level ++ text := by
  rw [indented, if_neg (mt String.isEmpty_iff.1 h), indentation]

/-- What stands before the words of a comment line. -/
def commentLead (w : LineWriter) : String :=
  indentation w.style w.commentLevel ++ w.marker ++ " "

/-- A rule as it is written. -/
def ruleLine (w : LineWriter) : String :=
  indentation w.style w.commentLevel ++
    repeated w.style.commentChar (w.style.maxLineLength - w.commentLevel)

/-- The bytes of a line that are left for words. -/
def wordRoom (w : LineWriter) : Nat :=
  w.style.maxLineLength - w.commentLevel - w.marker.utf8ByteSize - 1

variable {w : LineWriter}

theorem commentLevel_le (w : LineWriter) : w.commentLevel ≤ w.style.maxLineLength :=
  (Nat.min_le_right _ _).trans (Nat.sub_le _ _)

theorem length_ruleLine (w : LineWriter) : w.ruleLine.length = w.style.maxLineLength := by
  have hle := w.commentLevel_le
  simp only [ruleLine, indentation, String.length_append, length_repeated]
  omega

/-- The mark has two characters and at least as many bytes. -/
theorem length_commentLead_append_le {text : String}
    (hmark : w.commentLevel + w.marker.utf8ByteSize + 1 ≤ w.style.maxLineLength)
    (htext : text.utf8ByteSize ≤ w.wordRoom) :
    (w.commentLead ++ text).length ≤ w.style.maxLineLength := by
  have hmarker := length_le_utf8ByteSize w.marker
  have hlength := length_le_utf8ByteSize text
  have hblank : " ".length = 1 := by decide
  simp only [commentLead, indentation, String.length_append, length_repeated, hblank]
  rw [wordRoom] at htext
  omega

/-- The lines of a filled block without a caption. -/
theorem map_indented_block (w : LineWriter) (text : String) (framed : Bool)
    (hwidth : w.commentLevel < w.style.maxLineLength) :
    (({ text, framed } : Comment).block w).map (indented w.style w.commentLevel) =
      (if framed then [w.ruleLine] else []) ++ (wrap w.wordRoom text).map (w.commentLead ++ ·) ++
        if framed then [w.ruleLine] else [] := by
  have hrule : indented w.style w.commentLevel
      (repeated w.style.commentChar (w.style.maxLineLength - w.commentLevel)) = w.ruleLine :=
    indented_of_ne_empty (repeated_ne_empty (by omega)) _ _
  have hline (l : String) : indented w.style w.commentLevel (w.marker ++ " " ++ l) =
      w.commentLead ++ l := by
    rw [indented_of_ne_empty (by simp [marker, repeated]), commentLead]
    simp only [String.append_assoc]
  have hroom : w.style.maxLineLength - w.commentLevel - (w.marker.utf8ByteSize + 1) = w.wordRoom :=
    (Nat.sub_sub _ _ 1).symm
  cases framed <;> simp [Comment.block, Comment.body, hroom, hrule, hline, Function.comp_def]

/-- A filled block without a caption writes lines within the line length, between two rules of that
length if it is framed. Behind their leads the lines have the words of the text in order. Nothing
else of the writer changes. -/
theorem comment_width {text : String} (framed : Bool)
    (hmark : w.commentLevel + w.marker.utf8ByteSize + 1 ≤ w.style.maxLineLength)
    (hwords : ∀ word ∈ words text, word.utf8ByteSize ≤
      w.style.maxLineLength - w.commentLevel - w.marker.utf8ByteSize - 1) :
    ∃ rules body texts : List String,
      w.comment { text, framed } =
        { w with lines := w.lines ++ (rules ++ body ++ rules).toArray } ∧
      rules = (if framed then [indentation w.style w.commentLevel ++
        repeated w.style.commentChar (w.style.maxLineLength - w.commentLevel)] else []) ∧
      (∀ l ∈ rules, l.length = w.style.maxLineLength) ∧
      (∀ l ∈ body, l.length ≤ w.style.maxLineLength) ∧
      body = texts.map (indentation w.style w.commentLevel ++ w.marker ++ " " ++ ·) ∧
      " ".intercalate texts = " ".intercalate (words text) := by
  refine ⟨if framed then [w.ruleLine] else [], (wrap w.wordRoom text).map (w.commentLead ++ ·),
    wrap w.wordRoom text, ?_, rfl, ?_, ?_, rfl, intercalate_wrap _ _⟩
  · rw [comment_eq, map_indented_block w text framed (by omega)]
  · intro l hl
    split at hl
    · rw [List.mem_singleton.1 hl, length_ruleLine]
    · simp at hl
  · intro l hl
    obtain ⟨text, htext, rfl⟩ := List.mem_map.1 hl
    exact length_commentLead_append_le hmark (utf8ByteSize_le_of_mem_wrap hwords htext)

/-- A writer deeper than its lines are long, with a comment character of two bytes. -/
def deepWriter : LineWriter where
  style := { useSpaces := false, commentChar := '§', maxLineLength := 36 }
  lines := #["code"]
  level := 60
  deferred := ["end"]

/-- The lines of a block with twelve tabs and a mark of four bytes. -/
theorem comment_width_deep :
    deepWriter.commentLevel + deepWriter.marker.utf8ByteSize + 1 ≤ 36 ∧
    (∀ word ∈ words "comments of deep blocks are less indented", word.utf8ByteSize ≤ 19) ∧
    ∃ rules body texts : List String,
      deepWriter.comment { text := "comments of deep blocks are less indented" } =
        { deepWriter with lines := #["code"] ++ (rules ++ body ++ rules).toArray } ∧
      rules = [indentation deepWriter.style 12 ++ repeated '§' 24] ∧
      (∀ l ∈ rules, l.length = 36) ∧ (∀ l ∈ body, l.length ≤ 36) ∧
      body = texts.map (indentation deepWriter.style 12 ++ "§§" ++ " " ++ ·) ∧
      " ".intercalate texts = "comments of deep blocks are less indented" := by
  have hmark : deepWriter.commentLevel + deepWriter.marker.utf8ByteSize + 1 ≤ 36 := by decide
  have hwords : ∀ word ∈ words "comments of deep blocks are less indented",
      word.utf8ByteSize ≤ 19 := by decide +kernel
  have htext : " ".intercalate (words "comments of deep blocks are less indented") =
      "comments of deep blocks are less indented" := by decide +kernel
  obtain ⟨rules, body, texts, hcomment, hrules, hlength, hbody, hlead, hjoined⟩ :=
    comment_width true hmark hwords
  exact ⟨hmark, hwords, rules, body, texts, hcomment, hrules, hlength, hbody, hlead,
    hjoined.trans htext⟩

end RegAtlas.LineWriter
