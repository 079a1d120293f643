import RegAtlas.Text.LetterTable
import RegAtlas.Text.CaseTable
import RegAtlas.Text.ShapeTable

/-!
# Character classes and case mappings

The classes are those of the Unicode standard, in version 17 unless said otherwise. ASCII characters
are decided directly, all others by the tables.
-/

namespace RegAtlas.Text

/-- Membership in a table of closed ranges. -/
def inRanges (table : List (Nat × Nat)) (n : Nat) : Bool :=
  table.any fun (first, last) => first ≤ n && n ≤ last

/-- Membership in a table of stepped runs. -/
def inRuns (table : List (Nat × Nat × Nat)) (n : Nat) : Bool :=
  table.any fun (first, last, step) => first ≤ n && n ≤ last && (n - first) % step == 0

/-- Characters that are seen by themselves. The blank is one of them. -/
def isShown (c : Char) : Bool := !inRanges shapelessRanges c.toNat

/-- The property White_Space. -/
def isBlank (c : Char) : Bool :=
  let n := c.toNat
  (0x9 ≤ n && n ≤ 0xD) || n == 0x20 || n == 0x85 || n == 0xA0 || n == 0x1680 ||
    (0x2000 ≤ n && n ≤ 0x200A) || n == 0x2028 || n == 0x2029 || n == 0x202F || n == 0x205F ||
    n == 0x3000

/-- Letters, digits and other numbers. -/
def isAlphanumeric (c : Char) : Bool :=
  if c.toNat < 0x80 then c.isAlphanum
  else inRanges alphabeticRanges c.toNat || inRanges decimalRanges c.toNat ||
    inRanges otherNumberRanges c.toNat

/-- Characters of a word in the sense of regular expressions: letters, marks, decimal digits,
connectors such as the underscore, and the two joiners, all as of version 16 of the standard. -/
def isWordChar (c : Char) : Bool :=
  if c.toNat < 0x80 then c.isAlphanum || c == '_'
  else if inRanges recentRanges c.toNat then false
  else inRanges alphabeticRanges c.toNat || inRanges decimalRanges c.toNat ||
    inRanges markRanges c.toNat || inRanges connectorRanges c.toNat ||
    c.toNat == 0x200C || c.toNat == 0x200D

/-- The property Uppercase. -/
def isUpper (c : Char) : Bool :=
  if c.toNat < 0x80 then c.isUpper else inRuns uppercaseRuns c.toNat

/-- The property Lowercase. -/
def isLower (c : Char) : Bool :=
  if c.toNat < 0x80 then c.isLower else inRuns lowercaseRuns c.toNat

/-- The image of a code point under a table of mapping runs. -/
def mapRuns (table : List (Nat × Nat × Nat × Nat)) (n : Nat) : Nat :=
  match table.find? fun (first, last, step, _) =>
      first ≤ n && n ≤ last && (n - first) % step == 0 with
  | some (first, _, _, image) => image + (n - first)
  | none => n

/-- The upper case form of one character. -/
def upperForm (c : Char) : List Char :=
  if c.toNat < 0x80 then [c.toUpper]
  else match upperExpansions.lookup c.toNat with
    | some codes => codes.map Char.ofNat
    | none => [Char.ofNat (mapRuns upperRuns c.toNat)]

/-- The lower case form of one character, outside the context of a word. -/
def lowerForm (c : Char) : List Char :=
  if c.toNat < 0x80 then [c.toLower]
  else match lowerExpansions.lookup c.toNat with
    | some codes => codes.map Char.ofNat
    | none => [Char.ofNat (mapRuns lowerRuns c.toNat)]

end RegAtlas.Text
