import RegAtlas.Xml.Name
import RegAtlas.Xml.Value

/-!
# Tags

A machine that takes the tokens of a tag that opens an element.
-/

namespace RegAtlas.Xml

/-- Where the machine is in a tag. -/
inductive TagMode where
  | name (run : NameRun)
  /-- Behind white space. -/
  | between
  | attributeName (run : NameRun)
  /-- Behind the name of an attribute. -/
  | behindName (name : QName)
  | value (name : QName) (mode : ValueMode)
  | behindValue
  deriving Repr

/-- The first part of a tag. -/
structure OpenTag where
  mode : TagMode := .name {}
  name : QName := default
  /-- The attributes, backwards. -/
  attributes : List (QName × List Char) := []
  /-- Whether the last name has a colon. -/
  colon : Bool := false
  deriving Repr

/-- What a token leads to in a tag. -/
inductive TagStep where
  | more (tag : OpenTag)
  /-- The tag is at its end. A closed one is an element without content. -/
  | done (tag : OpenTag) (closed : Bool)
  deriving Repr

namespace OpenTag

/-- Takes a token behind a name or a value, or behind white space. -/
def finish? (tag : OpenTag) (t : Token) : Option TagStep :=
  match t with
  | .tagEnd => some (.done tag false)
  | .emptyTagEnd => some (.done tag true)
  | .char c => if isSpace c then some (.more { tag with mode := .between }) else none
  | _ => none

/-- Takes a token. White space stands in front of every attribute. -/
def step? (v : Version) (entities : Entities) (tag : OpenTag) (t : Token) : Option TagStep := do
  match tag.mode with
  | .name run =>
    match ← run.step? [.tagEnd, .emptyTagEnd] t with
    | .more run => return .more { tag with mode := .name run, colon := run.colon }
    | .done name => finish? { tag with name } t
  | .between =>
    match t with
    | .char c =>
      if isNameStart c then
        return .more { tag with mode := .attributeName { text := [c], colon := tag.colon } }
      else tag.finish? t
    | t => tag.finish? t
  | .attributeName run =>
    match ← run.step? [.equals] t with
    | .more run => return .more { tag with mode := .attributeName run, colon := run.colon }
    | .done name =>
      let mode := if t = .equals then .value name .before else .behindName name
      return .more { tag with mode, colon := run.settled.colon }
  | .behindName name =>
    match t with
    | .equals => return .more { tag with mode := .value name .before }
    | .char c => if isSpace c then return .more tag else none
    | _ => none
  | .value name mode =>
    match ← mode.step? v entities t with
    | .more mode => return .more { tag with mode := .value name mode }
    | .done value =>
      return .more { tag with mode := .behindValue, attributes := (name, value) :: tag.attributes }
  | .behindValue => tag.finish? t

end OpenTag

end RegAtlas.Xml
