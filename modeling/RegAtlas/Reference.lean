import RegAtlas.Component.Layout
import RegAtlas.Component.Rewriter

/-!
# Resolving references

A value below the memory maps may name a parameter. Resolution replaces it by the value of the first
parameter with that key and notes the parameter; a value that names none gives up its key and keeps
its text. The report says what became of every value, in the order of the tree.
-/

namespace RegAtlas

/-- What resolution makes of one reference. -/
inductive Outcome where
  /-- There is nothing to look up. -/
  | skipped
  /-- The value of a parameter replaced the text. -/
  | resolved
  /-- No parameter has the key, and the text is a number. -/
  | literal
  /-- The parameter has no value. -/
  | valueless (parameter : String)
  /-- No parameter has the key, and the text is no number. -/
  | unresolved (text : String)
  deriving DecidableEq, Repr

/-- Resolves one reference. -/
def Reference.resolve (ps : List Parameter) (r : Reference) : Reference × Outcome :=
  match r.key with
  | none => (r, .skipped)
  | some key =>
    let unkeyed := { r with key := none }
    if (Text.trim key).isEmpty then (unkeyed, .skipped)
    else match ps.find? (·.key == key) with
      | some p => match p.value with
        | some v => ({ r with text := v.text, target := some p.id }, .resolved)
        | none => (unkeyed, .valueless p.name)
      | none => (unkeyed, if r.number?.isSome then .literal else .unresolved r.text)

/-! ### The references below the memory maps -/

/-- A reference with the names of the nodes that own it, outermost first. -/
structure OwnedReference where
  path : List String
  reference : Reference
  deriving DecidableEq, Repr

/-- The name that joins the names of the owners below a node. -/
def Item.scopeName? : Item → Option String
  | memoryMap m => some m.name
  | block b => some b.name
  | register r => some r.name
  | field f => some f.name
  | _ => none

namespace OwnedReference

/-- The names of the owners of the nodes below a node. -/
def pathBelow (path : List String) (i : Item) : List String := path ++ i.scopeName?.toList

/-- The reference that a node is. -/
def ofItem? : List String × Item → Option OwnedReference
  | (path, .reference r) => some ⟨path, r⟩
  | _ => none

end OwnedReference

/-- The references below a memory map, in the order of the nodes. -/
def MemoryMap.ownedReferences (m : MemoryMap) : List OwnedReference :=
  (m.itemsIn OwnedReference.pathBelow []).filterMap OwnedReference.ofItem?

/-- All references below the memory maps, in the order of the nodes. -/
def Component.ownedReferences (c : Component) : List OwnedReference :=
  c.memoryMaps.flatMap MemoryMap.ownedReferences

/-- Changes every reference. -/
def changing (change : Reference → Reference) : Rewriter Unit Id where
  reference _ r := change r

def MemoryMap.mapReferences (change : Reference → Reference) (m : MemoryMap) : MemoryMap :=
  (changing change).onMemoryMap () m

/-- Changes every reference below the memory maps. -/
def Component.mapReferences (change : Reference → Reference) (c : Component) : Component :=
  { c with memoryMaps := c.memoryMaps.map (MemoryMap.mapReferences change) }

/-! ### Resolution of a component -/

/-- A reference that names no parameter and is no number. -/
structure Unresolved where
  id : Nat
  /-- The names of the owners, joined by slashes. -/
  owner : String
  text : String
  deriving DecidableEq, Repr

/-- What a resolution did. -/
structure ResolveReport where
  resolved : Nat := 0
  literals : Nat := 0
  unresolved : List Unresolved := []
  deriving DecidableEq, Repr

/-- No suspect references were found. -/
def ResolveReport.isClean (report : ResolveReport) : Bool := report.unresolved.isEmpty

namespace OwnedReference

def owner (o : OwnedReference) : String := "/".intercalate o.path

def outcome (ps : List Parameter) (o : OwnedReference) : Outcome := (o.reference.resolve ps).2

/-- The entry of the report for a suspect reference. -/
def unresolved? (ps : List Parameter) (o : OwnedReference) : Option Unresolved :=
  match o.outcome ps with
  | .unresolved text => some { id := o.reference.id, owner := o.owner, text }
  | _ => none

/-- The warning about a reference. -/
def warning? (ps : List Parameter) (o : OwnedReference) : Option String :=
  match o.outcome ps with
  | .unresolved text => some s!"Unresolved reference '{text}' in {o.owner}"
  | .valueless parameter => some s!"Parameter {parameter} referenced by {o.owner} has no value"
  | _ => none

end OwnedReference

namespace Component

/-- The component with its references resolved. -/
def resolved (c : Component) : Component :=
  c.mapReferences fun r => (r.resolve c.parameters).1

def resolveReport (c : Component) : ResolveReport :=
  let outcomes := c.ownedReferences.map (OwnedReference.outcome c.parameters)
  { resolved := outcomes.count .resolved
    literals := outcomes.count .literal
    unresolved := c.ownedReferences.filterMap (OwnedReference.unresolved? c.parameters) }

/-- The warnings that a resolution raises. -/
def resolveWarnings (c : Component) : List String :=
  c.ownedReferences.filterMap (OwnedReference.warning? c.parameters)

end Component

end RegAtlas
