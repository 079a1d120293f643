import RegAtlas.Proofs.LineWriter.Record

/-!
# Constructs nest

A run that moves the indentation by constructs only ends at the indentation it began with, and its
records read like a text with brackets: every closer stands behind the body of the construct that
announced it, at the indentation of its opener.
-/

namespace RegAtlas.LineWriter

mutual

/-- The operation moves the indentation by constructs only. -/
def Op.scoped : Op → Bool
  | .indentBy _ | .dedentBy _ | .indent | .dedent => false
  | .scope _ _ body => Op.allScoped body
  | _ => true

def Op.allScoped : List Op → Bool
  | [] => true
  | op :: ops => op.scoped && Op.allScoped ops

end

/-! ### The indentation behind a construct -/

/-- Behind a construct the indentation is again that of its opener, where its body keeps it. -/
theorem level_dedent_of_continues {w v : LineWriter} {opener : String} {rs : List Record}
    {ts : List String} (h : Continues (w.openScope opener) v rs ts)
    (hlevel : v.level = (w.openScope opener).level) : v.dedent.level = w.level := by
  change v.level - v.style.indent = w.level
  rw [hlevel, h.style_eq, level_openScope, style_openScope, Nat.add_sub_cancel]

mutual

theorem Op.level_run (w : LineWriter) : (op : Op) → op.scoped = true → (op.run w).level = w.level
  | .line _, _ => by rw [Op.run, line_eq]
  | .blank, _ | .defer _, _ => rfl
  | .flush _, _ | .flushAll, _ => by simp only [Op.run, LineWriter.flushAll, flush_eq]
  | .comment _, _ => by rw [Op.run, comment_eq]
  | .commentLines _, _ => by rw [Op.run, commentLines_eq]
  | .scope opener closer body, h => by
    have hbody := Op.level_runAll (w.openScope opener) body h
    rw [Op.run, closeScope, line_eq]
    exact level_dedent_of_continues (Op.continues_runAll _ body) hbody

theorem Op.level_runAll (w : LineWriter) : (ops : List Op) → Op.allScoped ops = true →
    (Op.runAll w ops).level = w.level
  | [], _ => rfl
  | op :: ops, h => by
    obtain ⟨hop, hops⟩ := Bool.and_eq_true_iff.1 h
    rw [Op.runAll, Op.level_runAll (op.run w) ops hops, Op.level_run w op hop]

end

/-- What a construct writes around its body. -/
theorem Op.records_scope (w : LineWriter) (opener closer : String) {body : List Op}
    (h : Op.allScoped body = true) : (Op.scope opener closer body).records w =
      ⟨.opener closer, w.level, opener⟩ :: Op.allRecords (w.openScope opener) body ++
        [⟨.closer, w.level, closer⟩] := by
  rw [Op.records, level_dedent_of_continues (Op.continues_runAll _ body)
    (Op.level_runAll _ body h)]

/-! ### Reading records as brackets -/

/-- A construct that is open. -/
structure Construct where
  /-- The indentation of its opener. -/
  level : Nat
  closer : String
  deriving DecidableEq, Repr

/-- Reads a record inside open constructs, the innermost first. Only the innermost one can be
closed, by its own closer at the indentation of its opener. -/
def Record.read (inside : List Construct) (r : Record) : Option (List Construct) :=
  match r.origin, inside with
  | .opener closer, _ => some (⟨r.level, closer⟩ :: inside)
  | .closer, [] => none
  | .closer, innermost :: outer => if innermost = ⟨r.level, r.text⟩ then some outer else none
  | .plain, _ | .deferred, _ => some inside

theorem foldlM_read_map {origin : Origin} (h : origin = .plain ∨ origin = .deferred)
    (inside : List Construct) (level : Nat) (texts : List String) :
    (texts.map (Record.mk origin level)).foldlM Record.read inside = some inside := by
  induction texts with
  | nil => rfl
  | cons text texts ih =>
    have hread : (Record.mk origin level text).read inside = some inside := by
      obtain rfl | rfl := h <;> rfl
    simpa [hread] using ih

-- The constructs around the run stay as they are, so that the body of a construct is read with the
-- construct itself on top.
mutual

theorem Op.foldlM_read_records (w : LineWriter) (inside : List Construct) : (op : Op) →
    op.scoped = true → (op.records w).foldlM Record.read inside = some inside
  | .line _, _ | .blank, _ | .defer _, _ => rfl
  | .flush _, _ | .flushAll, _ => foldlM_read_map (.inr rfl) inside _ _
  | .comment _, _ | .commentLines _, _ => foldlM_read_map (.inl rfl) inside _ _
  | .scope opener closer body, h => by
    have hbody :=
      Op.foldlM_read_allRecords (w.openScope opener) (⟨w.level, closer⟩ :: inside) body h
    have hclose : Record.read (⟨w.level, closer⟩ :: inside) ⟨.closer, w.level, closer⟩ =
        some inside := by simp [Record.read]
    rw [Op.records_scope w opener closer h, List.cons_append, List.foldlM_cons]
    change List.foldlM Record.read (⟨w.level, closer⟩ :: inside) (_ ++ _) = _
    simp [hbody, hclose]

theorem Op.foldlM_read_allRecords (w : LineWriter) (inside : List Construct) : (ops : List Op) →
    Op.allScoped ops = true → (Op.allRecords w ops).foldlM Record.read inside = some inside
  | [], _ => rfl
  | op :: ops, h => by
    obtain ⟨hop, hops⟩ := Bool.and_eq_true_iff.1 h
    rw [Op.allRecords, List.foldlM_append, Op.foldlM_read_records w inside op hop]
    exact Op.foldlM_read_allRecords (op.run w) inside ops hops

end

end RegAtlas.LineWriter
