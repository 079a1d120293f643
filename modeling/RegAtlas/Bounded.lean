import RegAtlas.Fault
import RegAtlas.Literal

/-!
# Numbers in their ranges

Sums, differences and products of 64 bits, places in lists, and the widths to which texts are
padded. A computation with a number out of its range stops.
-/

namespace RegAtlas.Bounded

variable {α : Type}

def add (a b : Nat) : Except Fault Nat :=
  if a + b < Literal.bound then .ok (a + b) else .error .outOfRange

def sub (a b : Nat) : Except Fault Nat := if b ≤ a then .ok (a - b) else .error .outOfRange

def mul (a b : Nat) : Except Fault Nat :=
  if a * b < Literal.bound then .ok (a * b) else .error .outOfRange

/-- A quotient, rounded up. -/
def divCeil (a b : Nat) : Except Fault Nat := if a % b = 0 then .ok (a / b) else add (a / b) 1

/-- A sum, at most the largest number. -/
def addSaturating (a b : Nat) : Nat := min (a + b) (Literal.bound - 1)

def set (xs : List α) (i : Nat) (x : α) : Except Fault (List α) :=
  if i < xs.length then .ok (xs.set i x) else .error .outOfRange

/-- Widths of formatted texts have 16 bits. -/
def widthBound : Nat := 0x10000

/-- A computed number as the width of a formatted text. -/
def formatWidth (n : Nat) : Except Fault Nat :=
  if n < widthBound then .ok n else .error .outOfRange

end RegAtlas.Bounded
