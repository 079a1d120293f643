/-!
# Faults of a document

Why a document describes no component.
-/

namespace RegAtlas.Ipxact

/-- A cause that keeps a document from being read as a component. -/
inductive DocumentError where
  /-- The document is no well-formed XML. -/
  | malformed
  /-- The root element is no component. -/
  | unsupportedRoot (name : String)
  | missingAttribute (element name : String)
  | missingElement (element child : String)
  | duplicateParameterId (id name : String)
  /-- Two siblings of one kind have one name. -/
  | duplicateName (kind name parent : String)
  | invalidNumber (element text : String)
  deriving DecidableEq, Repr

def DocumentError.message : DocumentError → String
  | .malformed => "XML parsing error"
  | .unsupportedRoot name => s!"Unsupported IP-XACT item type {name}"
  | .missingAttribute element name => s!"<{element}> is missing attribute {name}"
  | .missingElement element child => s!"<{element}> is missing element <{child}>"
  | .duplicateParameterId id name => s!"Duplicate parameterId '{id}' on parameter {name}"
  | .duplicateName kind name parent => s!"Duplicate {kind} '{name}' in {parent}"
  | .invalidNumber element text => s!"<{element}>: '{text}' is not a number"

end RegAtlas.Ipxact
