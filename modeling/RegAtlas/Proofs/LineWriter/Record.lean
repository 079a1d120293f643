import RegAtlas.LineWriter.Script

/-!
# What a run of writing operations leaves behind

The lines of a run are recorded with where they come from: each record has the indentation and the
text of one line, so that the written lines are the records as they are shown. Two laws hold at
every moment of a run. Lines stay as they are once written, and the texts queued so far are those
written by flushes, in their order, followed by those still waiting.

## Main definitions

* `Op.records` — the lines that an operation writes, with their origin.
* `Op.queued` — the texts that an operation queues.
* `Op.flatten` — the operations of a run one after another, constructs opened out.
* `Continues` — what the writer behind a run has in common with the one before it.
-/

namespace RegAtlas.LineWriter

/-! ### Lines with their origin -/

/-- Where a line comes from. The line that opens a construct announces the text that closes it. -/
inductive Origin where
  | plain
  | deferred
  | opener (closer : String)
  | closer
  deriving DecidableEq, Repr

/-- A line that a run writes. -/
structure Record where
  origin : Origin
  /-- The indentation at which it is written. -/
  level : Nat
  text : String
  deriving DecidableEq, Repr

/-- A line behind its indentation. -/
def indented (style : Style) (level : Nat) (text : String) : String :=
  if text.isEmpty then "" else repeated (if style.useSpaces then ' ' else '\t') level ++ text

def Record.shown (style : Style) (r : Record) : String := indented style r.level r.text

/-- The texts that records show of the queue of deferred lines. -/
def flushedTexts (records : List Record) : List String :=
  (records.filter (·.origin = .deferred)).map Record.text

@[simp] theorem flushedTexts_append (rs rs' : List Record) :
    flushedTexts (rs ++ rs') = flushedTexts rs ++ flushedTexts rs' := by
  simp [flushedTexts]

@[simp] theorem flushedTexts_deferred (level : Nat) (texts : List String) :
    flushedTexts (texts.map (⟨.deferred, level, ·⟩)) = texts := by
  induction texts <;> simp_all [flushedTexts]

theorem flushedTexts_of_ne {records : List Record} (h : ∀ r ∈ records, r.origin ≠ .deferred) :
    flushedTexts records = [] := by
  simpa [flushedTexts, List.filter_eq_nil_iff] using h

/-! ### The primitive operations, as what they append -/

variable {w v u : LineWriter}

theorem line_eq (w : LineWriter) (text : String) :
    w.line text = { w with lines := w.lines.push (indented w.style w.level text) } := by
  rw [line, indented]
  split <;> rfl

@[simp] theorem level_openScope (w : LineWriter) (opener : String) :
    (w.openScope opener).level = w.level + w.style.indent := by
  rw [openScope, line_eq]
  rfl

@[simp] theorem style_openScope (w : LineWriter) (opener : String) :
    (w.openScope opener).style = w.style := by
  rw [openScope, line_eq]
  rfl

theorem foldl_line_eq (w : LineWriter) (texts : List String) :
    texts.foldl line w =
      { w with lines := w.lines ++ (texts.map (indented w.style w.level)).toArray } := by
  induction texts generalizing w with
  | nil => simp
  | cons text texts ih => simp [ih, line_eq]

theorem flush_eq (w : LineWriter) (count : Nat) :
    w.flush count = { w with
      lines := w.lines ++ ((w.deferred.take count).map (indented w.style w.level)).toArray
      deferred := w.deferred.drop count } :=
  foldl_line_eq { w with deferred := w.deferred.drop count } _

/-- The lines of a comment block with its rules, without indentation. -/
def Comment.block (c : Comment) (w : LineWriter) : List String :=
  let width := w.style.maxLineLength - w.commentLevel
  let rule := if c.framed then [repeated w.style.commentChar width] else []
  rule ++ c.body w.marker width ++ rule

theorem comment_eq (w : LineWriter) (c : Comment) :
    w.comment c = { w with
      lines := w.lines ++ ((c.block w).map (indented w.style w.commentLevel)).toArray } := by
  cases hframed : c.framed <;>
    simp [comment, Comment.block, rule, foldl_line_eq, line_eq, hframed]

/-- A loop may read from the writer what depends on its style, which no line changes. -/
theorem foldl_line_map {α : Type} (f : LineWriter → α → String)
    (hf : ∀ v v' : LineWriter, v.style = v'.style → f v = f v') (xs : List α) (w : LineWriter) :
    xs.foldl (fun v x => v.line (f v x)) w = (xs.map (f w)).foldl line w := by
  induction xs generalizing w with
  | nil => simp
  | cons x xs ih =>
    have hstyle : (w.line (f w x)).style = w.style := by rw [line_eq]
    rw [List.foldl_cons, List.map_cons, List.foldl_cons, ih, hf _ _ hstyle]

/-- The lines of a text as comment lines, without indentation. -/
def commentedLines (w : LineWriter) (text : String) : List String :=
  (Text.lines text).map fun l => Text.trimEnd (w.marker ++ " " ++ l)

theorem commentLines_eq (w : LineWriter) (text : String) :
    w.commentLines text = { w with
      lines := w.lines ++ ((w.commentedLines text).map (indented w.style w.level)).toArray } := by
  rw [commentLines, foldl_line_map (fun v l => Text.trimEnd (v.marker ++ " " ++ l)),
    foldl_line_eq, commentedLines]
  intro v v' hstyle
  simp only [marker, hstyle]

/-! ### Records of a run -/

mutual

/-- The lines that an operation writes. -/
def Op.records (w : LineWriter) : Op → List Record
  | .line text => [⟨.plain, w.level, text⟩]
  | .blank => [⟨.plain, w.level, ""⟩]
  | .flush count => (w.deferred.take count).map (⟨.deferred, w.level, ·⟩)
  | .flushAll => w.deferred.map (⟨.deferred, w.level, ·⟩)
  | .comment block => (block.block w).map (⟨.plain, w.commentLevel, ·⟩)
  | .commentLines text => (w.commentedLines text).map (⟨.plain, w.level, ·⟩)
  | .scope opener closer body =>
    ⟨.opener closer, w.level, opener⟩ :: Op.allRecords (w.openScope opener) body ++
      [⟨.closer, (Op.runAll (w.openScope opener) body).dedent.level, closer⟩]
  | .defer _ | .indentBy _ | .dedentBy _ | .indent | .dedent => []

/-- The lines that operations write. -/
def Op.allRecords (w : LineWriter) : List Op → List Record
  | [] => []
  | op :: ops => op.records w ++ Op.allRecords (op.run w) ops

end

mutual

/-- The texts that an operation queues. -/
def Op.queued : Op → List String
  | .defer text => [text]
  | .scope _ _ body => Op.allQueued body
  | _ => []

/-- The texts that operations queue. -/
def Op.allQueued : List Op → List String
  | [] => []
  | op :: ops => op.queued ++ Op.allQueued ops

end

/-- The writer `v` behind a run that begins at `w`, writes `records` and queues `queued`. -/
structure Continues (w v : LineWriter) (records : List Record) (queued : List String) : Prop where
  style_eq : v.style = w.style
  lines_eq : v.lines.toList = w.lines.toList ++ records.map (·.shown w.style)
  queue_eq : w.deferred ++ queued = flushedTexts records ++ v.deferred

namespace Continues

variable {rs rs' : List Record} {ts ts' : List String}

theorem refl (w : LineWriter) : Continues w w [] [] where
  style_eq := rfl
  lines_eq := by simp
  queue_eq := by simp [flushedTexts]

/-- A run that only moves the indentation. -/
theorem setLevel (w : LineWriter) (level : Nat) (stopped : Bool) :
    Continues w { w with level, stopped } [] [] where
  style_eq := rfl
  lines_eq := by simp
  queue_eq := by simp [flushedTexts]

/-- Lines that do not come from the queue. -/
theorem plain (w : LineWriter) (level : Nat) (texts : List String) :
    Continues w { w with lines := w.lines ++ (texts.map (indented w.style level)).toArray }
      (texts.map (⟨.plain, level, ·⟩)) [] where
  style_eq := rfl
  lines_eq := by simp [Record.shown, Function.comp_def]
  queue_eq := by
    have hnone : flushedTexts (texts.map (⟨.plain, level, ·⟩)) = [] :=
      flushedTexts_of_ne (List.forall_mem_map.2 fun _ _ => by simp)
    simp [hnone]

/-- One line, that of a construct included. -/
theorem line (w : LineWriter) (origin : Origin) (h : origin ≠ .deferred) (text : String) :
    Continues w (w.line text) [⟨origin, w.level, text⟩] [] where
  style_eq := by rw [line_eq]
  lines_eq := by simp [line_eq, Record.shown]
  queue_eq := by simp [line_eq, flushedTexts_of_ne, h]

theorem flush (w : LineWriter) (count : Nat) :
    Continues w (w.flush count) ((w.deferred.take count).map (⟨.deferred, w.level, ·⟩)) [] where
  style_eq := by rw [flush_eq]
  lines_eq := by simp [flush_eq, Record.shown, Function.comp_def]
  queue_eq := by
    rw [flush_eq, flushedTexts_deferred, List.append_nil, List.take_append_drop]

theorem defer (w : LineWriter) (text : String) : Continues w (w.defer text) [] [text] where
  style_eq := rfl
  lines_eq := by simp [LineWriter.defer]
  queue_eq := by simp [LineWriter.defer, flushedTexts]

theorem trans (h : Continues w v rs ts) (h' : Continues v u rs' ts') :
    Continues w u (rs ++ rs') (ts ++ ts') where
  style_eq := h'.style_eq.trans h.style_eq
  lines_eq := by rw [h'.lines_eq, h.lines_eq, h.style_eq, List.map_append, List.append_assoc]
  queue_eq := by
    calc w.deferred ++ (ts ++ ts')
        = flushedTexts rs ++ (v.deferred ++ ts') := by
          rw [← List.append_assoc, h.queue_eq, List.append_assoc]
      _ = flushedTexts (rs ++ rs') ++ u.deferred := by
          rw [h'.queue_eq, flushedTexts_append, List.append_assoc]

end Continues

-- One case for each operation. A construct is three runs in a row: its opener with a step in, its
-- body, and a step out with its closer.
mutual

theorem Op.continues_run (w : LineWriter) : (op : Op) →
    Continues w (op.run w) (op.records w) op.queued
  | .line text => .line w .plain (by simp) text
  | .blank => .plain w w.level [""]
  | .defer text => .defer w text
  | .flush count => .flush w count
  | .flushAll => by
    have h := Continues.flush w w.deferred.length
    rwa [List.take_length] at h
  | .indentBy _ | .dedentBy _ | .indent | .dedent => .setLevel w _ _
  | .comment block => by
    rw [Op.run, comment_eq]
    exact .plain w w.commentLevel (block.block w)
  | .commentLines text => by
    rw [Op.run, commentLines_eq]
    exact .plain w w.level (w.commentedLines text)
  | .scope opener closer body => by
    have hopen : Continues w (w.openScope opener) [⟨.opener closer, w.level, opener⟩] [] :=
      (Continues.line w (.opener closer) (by simp) opener).trans (.setLevel _ _ _)
    have hbody := Op.continues_runAll (w.openScope opener) body
    have hclose (v : LineWriter) :
        Continues v (v.closeScope closer) [⟨.closer, v.dedent.level, closer⟩] [] :=
      (Continues.setLevel v _ _).trans (.line v.dedent .closer (by simp) closer)
    simpa [Op.run, Op.records, Op.queued] using (hopen.trans hbody).trans (hclose _)

theorem Op.continues_runAll (w : LineWriter) : (ops : List Op) →
    Continues w (Op.runAll w ops) (Op.allRecords w ops) (Op.allQueued ops)
  | [] => .refl w
  | op :: ops => (Op.continues_run w op).trans (Op.continues_runAll (op.run w) ops)

end

/-! ### The moments of a run -/

mutual

/-- An operation as operations without a body, the steps of a construct included. -/
def Op.flatten : Op → List Op
  | .scope opener closer body =>
    .line opener :: .indent :: Op.flattenAll body ++ [.dedent, .line closer]
  | op => [op]

def Op.flattenAll : List Op → List Op
  | [] => []
  | op :: ops => op.flatten ++ Op.flattenAll ops

end

theorem Op.runAll_append (w : LineWriter) (ops ops' : List Op) :
    Op.runAll w (ops ++ ops') = Op.runAll (Op.runAll w ops) ops' := by
  induction ops generalizing w with
  | nil => rfl
  | cons op ops ih => exact ih (op.run w)

mutual

theorem Op.runAll_flatten (w : LineWriter) : (op : Op) → Op.runAll w op.flatten = op.run w
  | .line _ | .blank | .defer _ | .flush _ | .flushAll | .indentBy _ | .dedentBy _ | .indent
  | .dedent | .comment _ | .commentLines _ => rfl
  | .scope opener closer body => by
    have hbody := Op.runAll_flattenAll (w.openScope opener) body
    calc Op.runAll w (Op.scope opener closer body).flatten
        = Op.runAll (Op.runAll (w.openScope opener) (Op.flattenAll body))
            [.dedent, .line closer] := Op.runAll_append (w.openScope opener) _ _
      _ = (Op.scope opener closer body).run w := by rw [hbody]; rfl

theorem Op.runAll_flattenAll (w : LineWriter) : (ops : List Op) →
    Op.runAll w (Op.flattenAll ops) = Op.runAll w ops
  | [] => rfl
  | op :: ops => by
    rw [Op.flattenAll, Op.runAll_append, Op.runAll_flatten w op,
      Op.runAll_flattenAll (op.run w) ops, Op.runAll]

end

/-- Lines stay as they are once written. -/
theorem Op.lines_prefix (w : LineWriter) (ops : List Op) :
    w.lines.toList <+: (Op.runAll w ops).lines.toList :=
  ⟨_, (Op.continues_runAll w ops).lines_eq.symm⟩

end RegAtlas.LineWriter
