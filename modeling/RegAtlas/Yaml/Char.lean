/-!
# Characters of YAML

Character classes. Line breaks are brought to one form before a text is read, apart from the two
separators that remain themselves.
-/

namespace RegAtlas.Yaml

/-- A character that a text may hold. -/
def isPrintable (c : Char) : Bool :=
  let n := c.toNat
  c == '\t' || c == '\n' || c == '\r' || n == 0x85 || (0x20 ≤ n && n ≤ 0x7E) ||
    (0xA0 ≤ n && n ≤ 0xFFFD) || 0x10000 ≤ n

def isBlank (c : Char) : Bool := c == ' ' || c == '\t'

/-- A line feed or a separator of lines or paragraphs. -/
def isBreak (c : Char) : Bool := c == '\n' || c.toNat == 0x2028 || c.toNat == 0x2029

/-- White space of both kinds. -/
def isGap (c : Char) : Bool := isBlank c || isBreak c

/-- Whether the text ends here or white space follows. -/
def isSpaced : List Char → Bool
  | [] => true
  | c :: _ => isGap c

/-- A character of an anchor or of the handle of a tag. -/
def isWordChar (c : Char) : Bool := c.isAlphanum || c == '-' || c == '_'

/-- Brackets and commas, which have a meaning in flow style. -/
def isFlowMark (c : Char) : Bool := ",[]\x7b\x7d".toList.contains c

/-- Line breaks in one form: carriage returns, alone or before a line feed, and next line
characters become line feeds. -/
def withLineFeeds : List Char → List Char
  | '\r' :: '\n' :: cs => '\n' :: withLineFeeds cs
  | c :: cs => (if c == '\r' || c.toNat == 0x85 then '\n' else c) :: withLineFeeds cs
  | [] => []

end RegAtlas.Yaml
