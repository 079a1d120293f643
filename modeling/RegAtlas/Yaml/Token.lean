import RegAtlas.Yaml.Scalar

/-!
# Tokens

The marks and scalars that a YAML text consists of. Indentation is made explicit: a block collection
begins with a token and ends with one.
-/

namespace RegAtlas.Yaml

/-- A tag is an address. Escapes in it stand for bytes, which need not make up a text. -/
abbrev Address := List UInt8

/-- The bytes of a text. -/
def Address.ofString (s : String) : Address := s.toUTF8.toList

inductive Token where
  | version (major minor : Nat)
  /-- Declares what the handle of a tag stands for. -/
  | handle (name : String) (lead : Address)
  | documentStart
  | documentEnd
  | blockSequence
  | blockMapping
  | blockEnd
  | flowSequence
  | flowSequenceEnd
  | flowMapping
  | flowMappingEnd
  | blockEntry
  | flowEntry
  | key
  | value
  | alias (name : String)
  | anchor (name : String)
  | tag (handle : String) (suffix : Address)
  | scalar (style : ScalarStyle) (text : String)
  deriving DecidableEq, Inhabited, Repr

end RegAtlas.Yaml
