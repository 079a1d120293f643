import RegAtlas.Text.Basic
import RegAtlas.Text.CharClass

/-!
# Paths

A path is a text in which slashes separate names. Empty names and single dots mean nothing, except
for a dot at the beginning.
-/

namespace RegAtlas

abbrev FilePath : Type := String

namespace FilePath

/-- The texts between the slashes. -/
def pieces (p : FilePath) : List String := (Text.splitChars (· == '/') p.toList).map String.ofList

/-- Whether a piece means nothing. -/
def isVoid (piece : String) : Bool := piece = "" || piece = "."

def isAbsolute (p : FilePath) : Bool := p.toList.head? == some '/'

/-- A path as seen from a directory. An absolute path remains. -/
def join (base p : FilePath) : FilePath :=
  if p.isAbsolute || base.isEmpty then p
  else if base.toList.getLast? == some '/' then base ++ p
  else base ++ "/" ++ p

/-- Drops pieces that mean nothing from the end. -/
def dropVoidEnd (pieces : List String) : List String := (pieces.reverse.dropWhile isVoid).reverse

/-- What is left of pieces without the last name. -/
def outer (pieces : List String) : List String := dropVoidEnd (dropVoidEnd pieces).dropLast

/-- The directory that holds what the path names, as the path writes it. A root and an empty path
have none. -/
def parent? (p : FilePath) : Option FilePath :=
  match p.pieces with
  | "" :: rest =>
    if rest.all isVoid then none else some ("/" ++ "/".intercalate (outer rest))
  | "." :: rest => some (if rest.all isVoid then "" else "/".intercalate ("." :: outer rest))
  | rest => some ("/".intercalate (outer rest))

/-- The last name of a path. -/
def fileName? (p : FilePath) : Option String := (dropVoidEnd p.pieces).getLast?.filter (· ≠ "..")

/-- What stands behind the last dot of the last name, which does not begin with that dot. -/
def extension? (p : FilePath) : Option String := do
  let name ← p.fileName?
  match (Text.splitChars (· == '.') name.toList).map String.ofList with
  | [] | [_] | ["", _] => none
  | pieces => pieces.getLast?

/-- A character between quotes. One that is not seen by itself is given by its number. -/
def quotedChar (c : Char) : List Char :=
  if c == '\x00' then ['\\', '0']
  else if c == '\t' then ['\\', 't']
  else if c == '\n' then ['\\', 'n']
  else if c == '\r' then ['\\', 'r']
  else if c == '"' || c == '\\' then ['\\', c]
  else if Text.isShown c then [c]
  else "\\u\x7b".toList ++ Nat.toDigits 16 c.toNat ++ ['\x7d']

/-- A path between double quotes. -/
def quoted (p : FilePath) : String :=
  "\"" ++ String.ofList (p.toList.flatMap quotedChar) ++ "\""

end FilePath

end RegAtlas
