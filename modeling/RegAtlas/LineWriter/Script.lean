import RegAtlas.LineWriter

/-!
# Writing operations as data

A sequence of operations on a writer, with nested constructs.
-/

namespace RegAtlas.LineWriter

/-- One operation on a writer. -/
inductive Op where
  | line (text : String)
  | blank
  | defer (text : String)
  | flush (count : Nat)
  | flushAll
  | indentBy (n : Nat)
  | dedentBy (n : Nat)
  | indent
  | dedent
  | comment (block : Comment)
  | commentLines (text : String)
  | scope (opener closer : String) (body : List Op)

mutual

/-- Carries out one operation. -/
def Op.run (w : LineWriter) : Op → LineWriter
  | .line text => w.line text
  | .blank => w.blank
  | .defer text => w.defer text
  | .flush count => w.flush count
  | .flushAll => w.flushAll
  | .indentBy n => w.indentBy n
  | .dedentBy n => w.dedentBy n
  | .indent => w.indent
  | .dedent => w.dedent
  | .comment block => w.comment block
  | .commentLines text => w.commentLines text
  | .scope opener closer body => (Op.runAll (w.openScope opener) body).closeScope closer

/-- Carries out operations in order. -/
def Op.runAll (w : LineWriter) : List Op → LineWriter
  | [] => w
  | op :: ops => Op.runAll (op.run w) ops

end

/-- Carries out operations in order. There is no writer if the program stops at one of them. -/
def Op.carryOut (w : LineWriter) (ops : List Op) : Except Fault LineWriter :=
  (Op.runAll w ops).checked

end RegAtlas.LineWriter
