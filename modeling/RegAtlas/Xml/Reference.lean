import RegAtlas.Literal
import RegAtlas.Xml.Char
import RegAtlas.Xml.Token

/-!
# References in XML text

A reference names a character by its number, one of the five characters with a meaning in markup, or
an entity that the document declares.
-/

namespace RegAtlas.Xml

/-- Entities by name. The first declaration of a name counts. -/
abbrev Entities := List (String × List Char)

/-- What a reference stands for. -/
inductive Referent where
  | char (c : Char)
  /-- Text to be read in place of the reference. -/
  | entity (text : List Char)
  deriving Repr

/-- A number in a base. One plus sign may stand in front of it. -/
def number? (base : Nat) : List Char → Option Nat
  | '+' :: digits => Literal.digits? base digits
  | digits => Literal.digits? base digits

/-- The character with a number, written in decimal or behind an `x` in hexadecimal digits. -/
def numberedChar? (v : Version) (digits : List Char) : Option Char :=
  let number := match digits with
    | 'x' :: digits => number? 16 digits
    | digits => number? 10 digits
  number.bind fun n =>
    if n.isValidChar then
      let c := Char.ofNat n
      if isChar v c then some c else none
    else none

/-- What the name between ampersand and semicolon stands for. -/
def referent? (v : Version) (entities : Entities) (name : List Char) : Option Referent :=
  match name with
  | '#' :: digits => (numberedChar? v digits).map .char
  | ['l', 't'] => some (.char '<')
  | ['g', 't'] => some (.char '>')
  | ['a', 'm', 'p'] => some (.char '&')
  | ['a', 'p', 'o', 's'] => some (.char '\'')
  | ['q', 'u', 'o', 't'] => some (.char '"')
  | _ => (entities.lookup (String.ofList name)).map .entity

/-- Characters of the name of a reference; `first` for its first character. -/
def isReferenceChar (first : Bool) (c : Char) : Bool :=
  isNamePart first c || (first && c == '#')

/-- What a token leads to in a reference. -/
inductive ReferenceStep where
  | more (name : List Char)
  | done (referent : Referent)
  deriving Repr

/-- Takes a token of a reference, of whose name the first characters are known, backwards. -/
def referenceStep? (v : Version) (entities : Entities) (name : List Char) :
    Token → Option ReferenceStep
  | .char c => if isReferenceChar name.isEmpty c then some (.more (c :: name)) else none
  | .semicolon => (referent? v entities name.reverse).map .done
  | _ => none

end RegAtlas.Xml
