import RegAtlas.Text.Basic
import RegAtlas.Xml.Char
import RegAtlas.Xml.Token

/-!
# Names with prefixes

A name has at most one colon, which stands between its prefix and the rest.
-/

namespace RegAtlas.Xml

/-- A name with its prefix, which is empty if there is none. -/
structure QName where
  space : String
  name : String
  deriving DecidableEq, Inhabited, Repr

/-- A name with at most one colon, and something on both sides of it. -/
def QName.ofChars? (cs : List Char) : Option QName :=
  match Text.splitChars (· == ':') cs with
  | [name] => if name.isEmpty then none else some ⟨"", String.ofList name⟩
  | [space, name] =>
    if space.isEmpty || name.isEmpty then none
    else some ⟨String.ofList space, String.ofList name⟩
  | _ => none

/-- The first characters of a name. -/
structure NameRun where
  /-- The characters, backwards. -/
  text : List Char := []
  /-- A colon stands in this name, or in the one before it. No other may follow. -/
  colon : Bool := false
  deriving DecidableEq, Inhabited, Repr

/-- What a token leads to in a name. -/
inductive NameStep where
  | more (run : NameRun)
  | done (name : QName)
  deriving Repr

namespace NameRun

/-- A token that finds at most one byte of a name forgets the colon of the name before it. -/
def settled (run : NameRun) : NameRun :=
  { run with colon := run.colon && 1 < run.text.foldl (fun n c => n + c.utf8Size) 0 }

/-- Takes a token. White space ends a name, and so do the marks in `stops`. -/
def step? (run : NameRun) (stops : List Token) (t : Token) : Option NameStep :=
  let run := run.settled
  match t with
  | .char c =>
    if c == ':' then
      if run.text.isEmpty || run.colon then none
      else some (.more { text := c :: run.text, colon := true })
    else if isNamePart run.text.isEmpty c then
      some (.more { run with text := c :: run.text })
    else if isSpace c then (QName.ofChars? run.text.reverse).map .done
    else none
  | t => if stops.contains t then (QName.ofChars? run.text.reverse).map .done else none

end NameRun

end RegAtlas.Xml
