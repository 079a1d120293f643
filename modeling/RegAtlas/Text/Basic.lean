import RegAtlas.Text.CharClass

/-!
# Cutting text

Trimming, words and lines. The work is done on lists of characters, the functions on strings wrap
it.
-/

namespace RegAtlas.Text

/-- Drops the longest run of characters with the property from the end. -/
def dropEndWhile (p : Char → Bool) (cs : List Char) : List Char :=
  (cs.reverse.dropWhile p).reverse

def trimStartChars (cs : List Char) : List Char := cs.dropWhile isBlank

def trimEndChars (cs : List Char) : List Char := dropEndWhile isBlank cs

def trimChars (cs : List Char) : List Char := trimEndChars (trimStartChars cs)

/-- Removes white space at both ends. -/
def trim (s : String) : String := String.ofList (trimChars s.toList)

def trimStart (s : String) : String := String.ofList (trimStartChars s.toList)

def trimEnd (s : String) : String := String.ofList (trimEndChars s.toList)

/-- Cuts at every separator, which belongs to no part: always at least one part. -/
def splitChars (sep : Char → Bool) : List Char → List (List Char)
  | [] => [[]]
  | c :: cs =>
    if sep c then [] :: splitChars sep cs
    else match splitChars sep cs with
      | [] => [[c]]
      | part :: parts => (c :: part) :: parts

/-- Maximal runs of characters that are not white space. -/
def wordsChars (cs : List Char) : List (List Char) :=
  (splitChars isBlank cs).filter (! ·.isEmpty)

def words (s : String) : List String := (wordsChars s.toList).map String.ofList

/-- A line ended by a line feed also gives up one carriage return before it. -/
def chompReturn (cs : List Char) : List Char :=
  match cs.reverse with
  | '\r' :: rest => rest.reverse
  | _ => cs

/-- The lines of a text. A line feed ends a line, and nothing after the last one is no line. -/
def linesChars (cs : List Char) : List (List Char) :=
  let parts := splitChars (· == '\n') cs
  let ended := parts.dropLast.map chompReturn
  match parts.getLast? with
  | none | some [] => ended
  | some rest => ended ++ [rest]

def lines (s : String) : List String := (linesChars s.toList).map String.ofList

/-- Equality up to the case of ASCII letters. -/
def equalsIgnoringCase (s t : String) : Bool :=
  s.toList.map Char.toLower == t.toList.map Char.toLower

/-- Removes a leading piece of text, if the text begins with it. -/
def stripStart? (lead cs : List Char) : Option (List Char) :=
  if lead.isPrefixOf cs then some (cs.drop lead.length) else none

/-- The text before and after the first occurrence of a character. -/
def splitOnce? (sep : Char) (cs : List Char) : Option (List Char × List Char) :=
  match cs.span (· != sep) with
  | (_, []) => none
  | (before, _ :: after) => some (before, after)

/-- Pads with blanks at the right end up to a number of characters. -/
def padEnd (width : Nat) (s : String) : String :=
  s ++ String.ofList (List.replicate (width - s.length) ' ')

/-- Pads with a character at the left end up to a number of characters. -/
def padStart (fill : Char) (width : Nat) (s : String) : String :=
  String.ofList (List.replicate (width - s.length) fill) ++ s

/-- The size in bytes of the longest text. -/
def widest (texts : List String) : Nat := (texts.map String.utf8ByteSize).foldl max 0

/-- Digits of a number, padded with zeros at the left end. -/
def digits (radix width n : Nat) : String :=
  padStart '0' width (String.ofList (Nat.toDigits radix n))

/-- Upper case hexadecimal digits. -/
def hexUpper (width n : Nat) : String :=
  padStart '0' width (String.ofList ((Nat.toDigits 16 n).map Char.toUpper))

end RegAtlas.Text
