/-!
# Characters of XML

The character classes of the XML recommendation.
-/

namespace RegAtlas.Xml

/-- The two versions of XML differ in the characters that a document may hold. -/
inductive Version where
  | v10
  | v11
  deriving DecidableEq, Inhabited, Repr

def isSpace (c : Char) : Bool := c == ' ' || c == '\t' || c == '\n' || c == '\r'

/-- Membership of a code point in closed ranges. -/
def within (ranges : List (Nat × Nat)) (c : Char) : Bool :=
  ranges.any fun (first, last) => first ≤ c.toNat && c.toNat ≤ last

def isNameStart : Char → Bool :=
  within [(0x3A, 0x3A), (0x41, 0x5A), (0x5F, 0x5F), (0x61, 0x7A), (0xC0, 0xD6), (0xD8, 0xF6),
    (0xF8, 0x2FF), (0x370, 0x37D), (0x37F, 0x1FFF), (0x200C, 0x200D), (0x2070, 0x218F),
    (0x2C00, 0x2FEF), (0x3001, 0xD7FF), (0xF900, 0xFDCF), (0xFDF0, 0xFFFD), (0x10000, 0xEFFFF)]

def isNameChar (c : Char) : Bool :=
  isNameStart c ||
    within [(0x2D, 0x2E), (0x30, 0x39), (0xB7, 0xB7), (0x300, 0x36F), (0x203F, 0x2040)] c

/-- Characters of a name; `first` for its first character. -/
def isNamePart (first : Bool) (c : Char) : Bool := if first then isNameStart c else isNameChar c

/-- Characters that a document can denote. -/
def isChar (v : Version) (c : Char) : Bool :=
  match v with
  | .v10 => isSpace c || within [(0x20, 0xD7FF), (0xE000, 0xFFFD), (0x10000, 0x10FFFF)] c
  | .v11 => within [(0x1, 0xD7FF), (0xE000, 0xFFFD), (0x10000, 0x10FFFF)] c

/-- Characters that a document can hold as they are. -/
def isPlainChar (v : Version) (c : Char) : Bool :=
  isChar v c && (v == .v10 || isSpace c || c == '\x85' ||
    !within [(0x1, 0x1F), (0x7F, 0x9F)] c)

end RegAtlas.Xml
