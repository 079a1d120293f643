/-!
# Faults of a component

What can be wrong with the values and names of a component when something is computed from them.
-/

namespace RegAtlas

/-- A cause that keeps a value from being computed or a renaming from being sound. -/
inductive Fault where
  /-- A value that has to be a number is none. -/
  | invalidLiteral (owner text : String)
  /-- A value that has to be there is absent. -/
  | missingValue (owner what : String)
  /-- An address or bit position does not fit into 64 bits. -/
  | overflow (owner what : String)
  /-- Two siblings of one kind have one name after a renaming. -/
  | nameCollision (kind name parent : String)
  /-- A number or a format width leaves its range, or an index its list. This is not reported to
  whoever asked for the value: the program stops. -/
  | outOfRange
  deriving DecidableEq, Repr

def Fault.message : Fault → String
  | .invalidLiteral owner text => s!"{owner}: '{text}' is not a numeric literal"
  | .missingValue owner what => s!"{owner}: missing {what}"
  | .overflow owner what => s!"{owner}: {what} overflows 64 bits"
  | .nameCollision kind name parent => s!"Renaming gives two {kind}s named '{name}' in {parent}"
  | .outOfRange => "number out of range"

end RegAtlas
