import RegAtlas.Text.Basic

/-!
# Numeric literals

Numbers as register descriptions write them: decimal (`4096`), with the lead `0x` or `0b`
(`0x1000`, `0b101`), and sized or unsized with an apostrophe (`32'hDEAD_BEEF`, `'o17`). Underscores
and surrounding white space do not count. A literal denotes a number below `2 ^ 64`.
-/

namespace RegAtlas.Literal

/-- One more than the largest number that a literal denotes. -/
def bound : Nat := 0x10000000000000000

/-- The value of a digit in any radix up to sixteen. -/
def digitValue? (c : Char) : Option Nat :=
  if '0' ≤ c ∧ c ≤ '9' then some (c.toNat - '0'.toNat)
  else if 'a' ≤ c ∧ c ≤ 'f' then some (c.toNat - 'a'.toNat + 10)
  else if 'A' ≤ c ∧ c ≤ 'F' then some (c.toNat - 'A'.toNat + 10)
  else none

/-- The value of a digit below the radix. -/
def radixDigit? (radix : Nat) (c : Char) : Option Nat :=
  (digitValue? c).filter (· < radix)

/-- Reads digits behind a value already read. -/
def digitsFrom? (radix : Nat) (value : Nat) : List Char → Option Nat
  | [] => some value
  | c :: cs => (radixDigit? radix c).bind fun d => digitsFrom? radix (value * radix + d) cs

/-- At least one digit, and a value below the bound. -/
def digits? (radix : Nat) (cs : List Char) : Option Nat :=
  if cs.isEmpty then none else (digitsFrom? radix 0 cs).filter (· < bound)

/-- Digits with an optional plus sign before them. -/
def signed? (radix : Nat) : List Char → Option Nat
  | '+' :: cs => digits? radix cs
  | cs => digits? radix cs

/-- The radix that a letter behind the apostrophe stands for. -/
def letterRadix? (c : Char) : Option Nat :=
  match c.toLower with
  | 'h' => some 16
  | 'd' => some 10
  | 'b' => some 2
  | 'o' => some 8
  | _ => none

/-- The part of a literal behind its apostrophe. -/
def sized? : List Char → Option Nat
  | [] => none
  | c :: cs => (letterRadix? c).bind fun radix => signed? radix cs

/-- A literal without apostrophe. -/
def plain? : List Char → Option Nat
  | '0' :: 'x' :: cs | '0' :: 'X' :: cs => signed? 16 cs
  | '0' :: 'b' :: cs | '0' :: 'B' :: cs => signed? 2 cs
  | cs => signed? 10 cs

/-- The characters of a literal that count. -/
def significant (cs : List Char) : List Char := (Text.trimChars cs).filter (· != '_')

def parseChars? (cs : List Char) : Option Nat :=
  let cs := significant cs
  match Text.splitOnce? '\'' cs with
  | some (size, rest) => if size.all Char.isDigit then sized? rest else none
  | none => plain? cs

/-- Reads a literal. -/
def parse? (text : String) : Option Nat := parseChars? text.toList

/-- A number other than zero is true; otherwise `true` and `false` count in any case. -/
def parseFlag? (text : String) : Option Bool :=
  match parse? text with
  | some n => some (n != 0)
  | none =>
    let word := Text.trim text
    if Text.equalsIgnoringCase word "true" then some true
    else if Text.equalsIgnoringCase word "false" then some false
    else none

end RegAtlas.Literal
