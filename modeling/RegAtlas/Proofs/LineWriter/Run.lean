import RegAtlas.Proofs.LineWriter.Nesting

/-!
# Runs of writing operations

A run is carried out as long as no step in takes the indentation out of 64 bits; for constructs it
is told from their nesting when that happens. `RunLaws` puts this together with the laws of the
lines, the queue and the constructs.
-/

namespace RegAtlas.LineWriter

/-! ### Steps out of 64 bits -/

/-- How far in an operation steps. -/
def Op.stepIn? (style : Style) : Op → Option Nat
  | .indentBy n => some n
  | .indent => some style.indent
  | _ => none

/-- One of the steps in of a run, those of its constructs included, leaves 64 bits. -/
def Op.StepsOut (w : LineWriter) (ops : List Op) : Prop :=
  ∃ first op rest, Op.flattenAll ops = first ++ op :: rest ∧
    ∃ n ∈ op.stepIn? w.style, Literal.bound ≤ (Op.runAll w first).level + n

/-- The operation has no body. -/
def Op.flat : Op → Bool
  | .scope _ _ _ => false
  | _ => true

mutual

theorem Op.forall_flat_flatten : (op : Op) → ∀ o ∈ op.flatten, o.flat = true
  | .line _ | .blank | .defer _ | .flush _ | .flushAll | .indentBy _ | .dedentBy _ | .indent
  | .dedent | .comment _ | .commentLines _ => by simp [flatten, flat]
  | .scope _ _ body => by
    have hbody := Op.forall_flat_flattenAll body
    simp only [flatten, List.cons_append, List.forall_mem_cons, List.forall_mem_append]
    exact ⟨rfl, rfl, hbody, by simp [flat]⟩

theorem Op.forall_flat_flattenAll : (ops : List Op) → ∀ o ∈ Op.flattenAll ops, o.flat = true
  | [] => by simp [flattenAll]
  | op :: ops =>
    List.forall_mem_append.2 ⟨Op.forall_flat_flatten op, Op.forall_flat_flattenAll ops⟩

end

@[simp] theorem stopped_line (w : LineWriter) (text : String) :
    (w.line text).stopped = w.stopped := by rw [line_eq]

theorem stopped_indentBy (w : LineWriter) (n : Nat) : (w.indentBy n).stopped = true ↔
    w.stopped = true ∨ Literal.bound ≤ w.level + n := by
  simp [indentBy]

theorem Op.stopped_run {op : Op} (h : op.flat = true) (w : LineWriter) :
    (op.run w).stopped = true ↔
      w.stopped = true ∨ ∃ n ∈ op.stepIn? w.style, Literal.bound ≤ w.level + n := by
  cases op with
  | indentBy n => simpa [run, stepIn?] using stopped_indentBy w n
  | indent => simpa [run, stepIn?, LineWriter.indent] using stopped_indentBy w w.style.indent
  | line text => simp [run, stepIn?]
  | flush count => simp [run, stepIn?, flush_eq]
  | flushAll => simp [run, stepIn?, LineWriter.flushAll, flush_eq]
  | comment block => simp [run, stepIn?, comment_eq]
  | commentLines text => simp [run, stepIn?, commentLines_eq]
  | blank | defer _ | dedentBy _ | dedent =>
    simp [run, stepIn?, LineWriter.blank, push, LineWriter.defer, LineWriter.dedentBy,
      LineWriter.dedent]
  | scope opener closer body => simp [flat] at h

/-- Flat operations stop at the first step that leaves 64 bits. -/
theorem Op.stopped_runAll_of_flat {ops : List Op} (h : ∀ op ∈ ops, op.flat = true)
    (w : LineWriter) : (Op.runAll w ops).stopped = true ↔ w.stopped = true ∨
      ∃ first op rest, ops = first ++ op :: rest ∧
        ∃ n ∈ op.stepIn? w.style, Literal.bound ≤ (Op.runAll w first).level + n := by
  induction ops generalizing w with
  | nil => simp [runAll]
  | cons op ops ih =>
    obtain ⟨hop, hops⟩ := List.forall_mem_cons.1 h
    have hstyle : (op.run w).style = w.style := (Op.continues_run w op).style_eq
    rw [runAll, ih hops, Op.stopped_run hop, hstyle, or_assoc]
    refine or_congr_right ⟨?_, ?_⟩
    · rintro (⟨n, hn, hle⟩ | ⟨first, op', rest, rfl, hle⟩)
      · exact ⟨[], op, ops, rfl, n, hn, hle⟩
      · exact ⟨op :: first, op', rest, rfl, hle⟩
    · rintro ⟨first, op', rest, heq, n, hn, hle⟩
      cases first with
      | nil =>
        obtain ⟨rfl, rfl⟩ := List.cons.inj heq
        exact .inl ⟨n, hn, hle⟩
      | cons _ first =>
        obtain ⟨rfl, rfl⟩ := List.cons.inj heq
        exact .inr ⟨first, op', rest, rfl, n, hn, hle⟩

theorem Op.stopped_runAll_iff (w : LineWriter) (ops : List Op) :
    (Op.runAll w ops).stopped = true ↔ w.stopped = true ∨ Op.StepsOut w ops := by
  rw [← Op.runAll_flattenAll]
  exact Op.stopped_runAll_of_flat (Op.forall_flat_flattenAll ops) w

/-! ### Nesting -/

mutual

/-- How deep constructs are nested. -/
def Op.depth : Op → Nat
  | .scope _ _ body => Op.allDepth body + 1
  | _ => 0

def Op.allDepth : List Op → Nat
  | [] => 0
  | op :: ops => max op.depth (Op.allDepth ops)

end

/-- So many steps in leave 64 bits. -/
def Exceeds (w : LineWriter) (depth : Nat) : Prop :=
  0 < depth ∧ Literal.bound ≤ w.level + depth * w.style.indent

theorem exceeds_max {w : LineWriter} {m n : Nat} :
    w.Exceeds (max m n) ↔ w.Exceeds m ∨ w.Exceeds n := by
  have hmono {k l : Nat} (hkl : k ≤ l) : w.Exceeds k → w.Exceeds l := fun ⟨hpos, hle⟩ =>
    ⟨Nat.lt_of_lt_of_le hpos hkl,
      Nat.le_trans hle (Nat.add_le_add_left (Nat.mul_le_mul_right _ hkl) _)⟩
  constructor
  · intro h
    rcases Nat.le_total m n with hmn | hmn
    · exact .inr (Nat.max_eq_right hmn ▸ h)
    · exact .inl (Nat.max_eq_left hmn ▸ h)
  · rintro (h | h)
    · exact hmono (Nat.le_max_left m n) h
    · exact hmono (Nat.le_max_right m n) h

/-- The first step in leaves 64 bits, or the others do that follow it. -/
theorem exceeds_openScope (w : LineWriter) (opener : String) (depth : Nat) :
    w.Exceeds (depth + 1) ↔
      Literal.bound ≤ w.level + w.style.indent ∨ (w.openScope opener).Exceeds depth := by
  have hsum : w.level + (depth + 1) * w.style.indent =
      w.level + w.style.indent + depth * w.style.indent := by
    rw [Nat.add_mul, Nat.one_mul]
    omega
  rw [Exceeds, Exceeds, level_openScope, style_openScope, hsum]
  constructor
  · rintro ⟨-, hle⟩
    by_cases hzero : depth = 0
    · subst hzero
      exact .inl (by simpa using hle)
    · exact .inr ⟨Nat.pos_of_ne_zero hzero, hle⟩
  · rintro (hle | ⟨-, hle⟩)
    · exact ⟨Nat.succ_pos depth, Nat.le_trans hle (Nat.le_add_right _ _)⟩
    · exact ⟨Nat.succ_pos depth, hle⟩

-- The body of a construct begins one step further in, and has one level of nesting less.
mutual

theorem Op.stopped_run_iff_exceeds (w : LineWriter) : (op : Op) → op.scoped = true →
    ((op.run w).stopped = true ↔ w.stopped = true ∨ w.Exceeds op.depth)
  | .line _, _ | .blank, _ | .defer _, _ | .flush _, _ | .flushAll, _ | .comment _, _
  | .commentLines _, _ => by
    rw [Op.stopped_run rfl]
    simp [Op.stepIn?, Op.depth, Exceeds]
  | .scope opener closer body, h => by
    have hopen : (w.openScope opener).stopped = true ↔
        w.stopped = true ∨ Literal.bound ≤ w.level + w.style.indent := by
      rw [openScope, LineWriter.indent, line_eq]
      exact stopped_indentBy _ _
    have hclose (v : LineWriter) : (v.closeScope closer).stopped = v.stopped :=
      stopped_line v.dedent closer
    rw [Op.run, hclose, Op.stopped_runAll_iff_exceeds (w.openScope opener) body h, hopen, Op.depth,
      exceeds_openScope w opener, or_assoc]

theorem Op.stopped_runAll_iff_exceeds (w : LineWriter) : (ops : List Op) →
    Op.allScoped ops = true →
    ((Op.runAll w ops).stopped = true ↔ w.stopped = true ∨ w.Exceeds (Op.allDepth ops))
  | [], _ => by simp [Op.runAll, Op.allDepth, Exceeds]
  | op :: ops, h => by
    obtain ⟨hop, hops⟩ := Bool.and_eq_true_iff.1 h
    have hexceeds (n : Nat) : (op.run w).Exceeds n ↔ w.Exceeds n := by
      rw [Exceeds, Exceeds, Op.level_run w op hop, (Op.continues_run w op).style_eq]
    rw [Op.runAll, Op.stopped_runAll_iff_exceeds (op.run w) ops hops,
      Op.stopped_run_iff_exceeds w op hop, hexceeds, Op.allDepth, exceeds_max, or_assoc]

end

/-! ### A whole run -/

/-- What holds of a run of `ops` that begins at the writer `w`. A moment of the run is a cut of its
operations with constructs opened out, so that the moments inside of constructs are among them. -/
structure RunLaws (w : LineWriter) (ops : List Op) : Prop where
  /-- The operations with constructs opened out are the run. -/
  flattened : Op.runAll w (Op.flattenAll ops) = Op.runAll w ops
  /-- From one moment to a later one no line changes or goes away. -/
  kept : ∀ first middle rest, Op.flattenAll ops = first ++ middle ++ rest →
    (Op.runAll w first).lines.toList <+: (Op.runAll w (first ++ middle)).lines.toList
  /-- At every moment the written lines are the records so far, and the texts queued so far are
  those flushed so far with the waiting ones behind them. -/
  moment : ∀ first rest, Op.flattenAll ops = first ++ rest →
    Continues w (Op.runAll w first) (Op.allRecords w first) (Op.allQueued first)
  /-- A flush writes the oldest of the waiting lines, as many as are asked for and there are. -/
  flush : ∀ first count rest, Op.flattenAll ops = first ++ .flush count :: rest →
    let before := Op.runAll w first
    let behind := Op.runAll w (first ++ [.flush count])
    behind.lines.toList = before.lines.toList ++
        (before.deferred.take count).map (indented before.style before.level) ∧
      behind.lines.size = before.lines.size + min count before.deferred.length ∧
      behind.deferred = before.deferred.drop count
  /-- A flush of everything leaves nothing waiting. -/
  flushAll : ∀ first rest, Op.flattenAll ops = first ++ .flushAll :: rest →
    let before := Op.runAll w first
    let behind := Op.runAll w (first ++ [.flushAll])
    behind.lines.toList = before.lines.toList ++
        before.deferred.map (indented before.style before.level) ∧ behind.deferred = []
  /-- A construct whose body moves the indentation by constructs only writes its opener, all of its
  body and its closer, the closer as far in as the opener. -/
  scope : ∀ first opener closer body rest,
    Op.flattenAll ops = first ++ (Op.scope opener closer body).flatten ++ rest →
    Op.allScoped body = true →
    let before := Op.runAll w first
    let inner := Op.allRecords (before.openScope opener) body
    (Op.runAll w (first ++ (Op.scope opener closer body).flatten)).lines.toList =
      before.lines.toList ++ (indented before.style before.level opener ::
        inner.map (·.shown before.style) ++ [indented before.style before.level closer])
  /-- The written lines are the records, those of constructs included. -/
  recorded : (Op.runAll w ops).lines.toList =
    w.lines.toList ++ (Op.allRecords w ops).map (·.shown w.style)
  /-- The constructs of a run close like brackets. -/
  nested : Op.allScoped ops = true → (Op.allRecords w ops).foldlM Record.read [] = some []
  /-- A run ends at the indentation it began with. -/
  level_eq : Op.allScoped ops = true → (Op.runAll w ops).level = w.level
  /-- A step in that leaves 64 bits stops a run. -/
  stops : w.stopped = true ∨ Op.StepsOut w ops → Op.carryOut w ops = .error .outOfRange
  /-- Without such a step a run is carried out. -/
  carriedOut : ¬(w.stopped = true ∨ Op.StepsOut w ops) → Op.carryOut w ops = .ok (Op.runAll w ops)
  /-- A run that moves the indentation by constructs only is carried out if the indentation fits as
  many times as they are nested, and not otherwise. -/
  carryOut_nested : Op.allScoped ops = true → w.stopped = false → Op.carryOut w ops =
    if 0 < Op.allDepth ops ∧ Literal.bound ≤ w.level + Op.allDepth ops * w.style.indent then
      .error .outOfRange
    else .ok (Op.runAll w ops)

theorem runLaws (w : LineWriter) (ops : List Op) : RunLaws w ops where
  flattened := Op.runAll_flattenAll w ops
  kept first middle rest _ := by
    rw [Op.runAll_append]
    exact Op.lines_prefix _ middle
  moment first rest _ := Op.continues_runAll w first
  flush first count rest _ := by
    simp [Op.runAll_append, Op.runAll, Op.run, flush_eq]
  flushAll first rest _ := by
    simp [Op.runAll_append, Op.runAll, Op.run, LineWriter.flushAll, flush_eq]
  scope first opener closer body rest _ hbody := by
    have h := Op.continues_run (Op.runAll w first) (.scope opener closer body)
    rw [Op.runAll_append, Op.runAll_flatten, h.lines_eq, Op.records_scope _ _ _ hbody]
    simp [Record.shown]
  recorded := (Op.continues_runAll w ops).lines_eq
  nested := Op.foldlM_read_allRecords w [] ops
  level_eq := Op.level_runAll w ops
  stops h := by rw [Op.carryOut, checked, if_pos ((Op.stopped_runAll_iff w ops).2 h)]
  carriedOut h := by rw [Op.carryOut, checked, if_neg (mt (Op.stopped_runAll_iff w ops).1 h)]
  carryOut_nested hscoped hw := by
    rw [Op.carryOut, checked]
    simp only [Op.stopped_runAll_iff_exceeds w ops hscoped, hw, Bool.false_eq_true, false_or,
      Exceeds]

/-- A table with a note and two closing lines, the second of them queued inside of it. -/
def nestedOps : List Op :=
  [.defer "end package;", .scope "table (" ");"
    [.comment ⟨"columns", none, false, true⟩,
      .scope "row (" ")" [.line "cell", .defer "end table;"], .flush 1, .blank], .flushAll]

theorem runLaws_nestedOps :
    (Op.allRecords {} nestedOps).foldlM Record.read [] = some [] ∧
      (Op.runAll {} nestedOps).level = 0 :=
  ⟨(runLaws {} nestedOps).nested (by decide), (runLaws {} nestedOps).level_eq (by decide)⟩

/-- A construct with an empty one inside. -/
def innerEmptyOps : List Op := [.scope "begin" "end" [.scope "" "" []]]

/-- Two steps of half the indentation that 64 bits hold are too many. The run does not get to the
closer of the outer construct. -/
theorem inner_scope_steps_out :
    let w : LineWriter := { style := { indent := Literal.bound / 2 } }
    Op.allScoped innerEmptyOps = true ∧ w.level + w.style.indent < Literal.bound ∧
      Op.carryOut w innerEmptyOps = .error .outOfRange := by
  intro w
  have hexceeds : w.Exceeds (Op.allDepth innerEmptyOps) := ⟨by decide, by decide⟩
  have hstopped := (Op.stopped_runAll_iff_exceeds w innerEmptyOps rfl).2 (.inr hexceeds)
  exact ⟨rfl, by decide, by rw [Op.carryOut, checked, if_pos hstopped]⟩

end RegAtlas.LineWriter
