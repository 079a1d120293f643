import RegAtlas.Entity.Basic
import RegAtlas.Text.Basic

/-!
# Declarations of generics and ports

A declaration is a name, a colon and a type, with a direction before the type of a port and perhaps
a default behind the type of a generic.
-/

namespace RegAtlas.Entity

open Text

/-- The text before two dashes. -/
def beforeDashes : List Char → List Char
  | [] => []
  | '-' :: '-' :: _ => []
  | c :: cs => c :: beforeDashes cs

/-- A declaration without the comment behind it. -/
def withoutComment (code : List Char) : List Char := trimChars (beforeDashes code)

/-- The text before and after the first character of a class. -/
def splitAt? (p : Char → Bool) (cs : List Char) : Option (List Char × List Char) :=
  match cs.span (! p ·) with
  | (_, []) => none
  | (before, _ :: after) => some (before, after)

/-- Drops a keyword that may stand before a name. -/
def withoutKeyword (keyword : String) (cs : List Char) : List Char :=
  let cs := trimChars cs
  match splitAt? isBlank cs with
  | some (first, rest) =>
    if equalsIgnoringCase (String.ofList first) keyword then trimChars rest else cs
  | none => cs

/-- Characters that belong to the notation of a default, not to its value. -/
def isDefaultMark (c : Char) : Bool := c == ' ' || c == '\t' || c == '=' || c == ';'

/-- `[constant] name : type [:= default];` -/
def Generic.parse? (code : String) : Option Generic :=
  match splitChars (· == ':') (withoutComment code.toList) with
  | name :: type :: rest =>
    let type := (trimChars type).takeWhile fun c => !(c == '(' || c == ':' || c == ';')
    let default := (rest.head?.getD []).filter (! isDefaultMark ·)
    some {
      name := String.ofList (withoutKeyword "constant" name)
      type := String.ofList (trimChars type)
      default := if default.isEmpty then none else some (String.ofList default) }
  | _ => none

/-- Puts a blank before every opening parenthesis. -/
def spaceParens (cs : List Char) : List Char :=
  cs.flatMap fun c => if c == '(' then [' ', '('] else [c]

/-- `[signal] name : direction type;` -/
def Port.parse? (code : String) : Option Port :=
  match splitAt? (· == ':') (withoutComment code.toList) with
  | none => none
  | some (name, rest) =>
    let rest := trimChars rest
    let (direction, type) := (splitAt? isBlank rest).getD (rest, [])
    let type := trimChars (dropEndWhile (· == ';') (trimChars type))
    some {
      name := String.ofList (withoutKeyword "signal" name)
      direction := String.ofList direction
      type := " ".intercalate ((wordsChars (spaceParens type)).map String.ofList) }

end RegAtlas.Entity
