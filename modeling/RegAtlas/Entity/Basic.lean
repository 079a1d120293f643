/-!
# Entity interfaces

The generics and ports of a VHDL entity in the order of their declarations, with section titles
between them.
-/

namespace RegAtlas.Entity

/-- A generic declaration. -/
structure Generic where
  name : String
  /-- Name of the type without its constraint. -/
  type : String
  default : Option String := none
  /-- The comment lines above the declaration. -/
  description : String := ""
  deriving DecidableEq, Inhabited, Repr

/-- A port declaration. -/
structure Port where
  name : String
  /-- The direction as it is written. -/
  direction : String
  /-- The type with its constraint. -/
  type : String
  /-- The comment lines above the declaration. -/
  description : String := ""
  deriving DecidableEq, Inhabited, Repr

/-- A row of a list of declarations. -/
inductive Entry (α : Type) where
  | declaration (d : α)
  | heading (title : String)
  deriving DecidableEq, Repr

def Entry.declaration? {α : Type} : Entry α → Option α
  | declaration d => some d
  | heading _ => none

/-- The declarations of an entity. -/
structure Interface where
  generics : List (Entry Generic) := []
  ports : List (Entry Port) := []
  deriving DecidableEq, Inhabited, Repr

def Interface.isEmpty (i : Interface) : Bool := i.generics.isEmpty && i.ports.isEmpty

end RegAtlas.Entity
