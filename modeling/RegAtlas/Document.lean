/-!
# Documents

Structured data to be printed in a data format.
-/

namespace RegAtlas

/-- A structured value. The entries of a record have an order. -/
inductive Document where
  | null
  | flag (b : Bool)
  | number (n : Nat)
  | text (s : String)
  | list (elements : List Document)
  | record (entries : List (String × Document))
  deriving Inhabited

namespace Document

/-- A text that may be absent. -/
def ofText? : Option String → Document
  | none => null
  | some s => text s

def ofNumber? : Option Nat → Document
  | none => null
  | some n => number n

/-- A digit of a hexadecimal number. -/
def hexDigit (n : Nat) : Char := (Nat.toDigits 16 n).headD '0'

/-- The last digits of a number in hexadecimal, as many as asked for. -/
def hexDigits (count n : Nat) : List Char :=
  (List.range count).reverse.map fun i => hexDigit ((n >>> (4 * i)) % 16)

end Document

end RegAtlas
