import RegAtlas.Proofs.LineWriter.Record
import RegAtlas.Proofs.Result

/-!
# Writers that have not stopped

A text is written as long as its indentation fits into 64 bits. Every operation keeps the style and
the indentation apart from the steps, so that it is told from the nesting of a text whether it is
written.
-/

namespace RegAtlas.LineWriter

/-- The writer has not stopped, and these are its style and its indentation. -/
structure Stands (w : LineWriter) (style : Style) (level : Nat) : Prop where
  style_eq : w.style = style
  level_eq : w.level = level
  going : w.stopped = false

namespace Stands

variable {w : LineWriter} {style : Style} {level : Nat}

theorem start (style : Style) : Stands { style } style 0 := ⟨rfl, rfl, rfl⟩

theorem line (h : w.Stands style level) (text : String) : (w.line text).Stands style level := by
  rw [line_eq]
  exact ⟨h.style_eq, h.level_eq, h.going⟩

theorem blank (h : w.Stands style level) : w.blank.Stands style level :=
  ⟨h.style_eq, h.level_eq, h.going⟩

theorem defer (h : w.Stands style level) (text : String) : (w.defer text).Stands style level :=
  ⟨h.style_eq, h.level_eq, h.going⟩

theorem flushAll (h : w.Stands style level) : w.flushAll.Stands style level := by
  rw [LineWriter.flushAll, flush_eq]
  exact ⟨h.style_eq, h.level_eq, h.going⟩

theorem comment (h : w.Stands style level) (c : Comment) : (w.comment c).Stands style level := by
  rw [comment_eq]
  exact ⟨h.style_eq, h.level_eq, h.going⟩

theorem commentLines (h : w.Stands style level) (text : String) :
    (w.commentLines text).Stands style level := by
  rw [commentLines_eq]
  exact ⟨h.style_eq, h.level_eq, h.going⟩

/-- A loop stands where its rounds do. -/
theorem foldl {α : Type} {write : LineWriter → α → LineWriter} {as : List α}
    (hwrite : ∀ v, v.Stands style level → ∀ a ∈ as, (write v a).Stands style level)
    (h : w.Stands style level) : (as.foldl write w).Stands style level := by
  induction as generalizing w with
  | nil => exact h
  | cons a as ih =>
    exact ih (fun v hv b hb => hwrite v hv b (List.mem_cons_of_mem _ hb))
      (hwrite w h a List.mem_cons_self)

theorem writeLines (h : w.Stands style level) (texts : List String) :
    (w.writeLines texts).Stands style level := h.foldl fun _ hv text _ => hv.line text

theorem indent (h : w.Stands style level) (hbound : level + style.indent < Literal.bound) :
    w.indent.Stands style (level + style.indent) := by
  have hgoing : decide (Literal.bound ≤ level + style.indent) = false :=
    decide_eq_false (Nat.not_le.2 hbound)
  obtain ⟨rfl, rfl, hw⟩ := h
  exact ⟨rfl, rfl, by rw [LineWriter.indent, indentBy, hw, hgoing, Bool.false_or]⟩

theorem dedent (h : w.Stands style (level + style.indent)) : w.dedent.Stands style level := by
  obtain ⟨rfl, hlevel, hw⟩ := h
  refine ⟨rfl, ?_, hw⟩
  rw [LineWriter.dedent, dedentBy, hlevel, Nat.add_sub_cancel]

/-- A construct stands where its body does, one step further in. -/
theorem scope (h : w.Stands style level) (opener closer : String)
    (hbound : level + style.indent < Literal.bound) {body : LineWriter → LineWriter}
    (hbody : ∀ v, v.Stands style (level + style.indent) →
      (body v).Stands style (level + style.indent)) :
    (w.scope opener closer body).Stands style level :=
  (hbody _ ((h.line opener).indent hbound)).dedent.line closer

end Stands

theorem gives_text (w : LineWriter) : Gives w.text (w.stopped = false) w.finish where
  ok h := by
    rw [text, checked, h]
    rfl
  error h := by
    rw [text, checked, Bool.of_not_eq_false h]
    exact ⟨_, rfl⟩

end RegAtlas.LineWriter
