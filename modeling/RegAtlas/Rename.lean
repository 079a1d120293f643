import RegAtlas.Component.Rewriter
import RegAtlas.Fault
import RegAtlas.Rename.Mention
import RegAtlas.Repeat
import RegAtlas.Text.NameCase

/-!
# Converting the names of a component

Names of memory maps, blocks, registers, fields and enumerated values are brought to one case.
Parameters keep their names. Siblings of one kind must not end up with one name. On request,
descriptions that mention an old name are changed with it.
-/

namespace RegAtlas

open Text (NameCase)

/-- Kinds of nodes whose names can be converted. -/
inductive NameKind where
  | memoryMap
  | addressBlock
  | register
  | field
  | enumValue
  deriving DecidableEq, Repr

namespace NameKind

/-- All kinds, outermost first. -/
def all : List NameKind := [memoryMap, addressBlock, register, field, enumValue]

def text : NameKind → String
  | memoryMap => "memory map"
  | addressBlock => "address block"
  | register => "register"
  | field => "field"
  | enumValue => "enumerated value"

end NameKind

/-- What a renaming converts. -/
structure RenameOptions where
  target : NameCase
  kinds : List NameKind := NameKind.all
  /-- Change descriptions that mention a converted name. -/
  descriptions : Bool := false
  deriving DecidableEq, Repr

/-- What a renaming did. -/
structure RenameReport where
  /-- Old and new name of every node whose name changed, in the order of `Component.siblings`. -/
  renamed : List (String × String) := []
  /-- Number of changed descriptions. -/
  descriptions : Nat := 0
  deriving DecidableEq, Repr

/-! ### Siblings -/

/-- The names of all children of one kind of a node. -/
structure Siblings where
  kind : NameKind
  parent : String
  names : List String
  deriving DecidableEq, Repr

/-- The siblings that a node owns. -/
def Item.siblings? : Item → Option Siblings
  | component c => some ⟨.memoryMap, c.name, c.memoryMaps.map (·.name)⟩
  | memoryMap m => some ⟨.addressBlock, m.name, m.blocks.map (·.name)⟩
  | block b => some ⟨.register, b.name, b.registers.map (·.name)⟩
  | register r => some ⟨.field, r.name, r.fields.map (·.name)⟩
  | field f => some ⟨.enumValue, f.name, f.enumValues.map (·.name)⟩
  | _ => none

/-- All lists of siblings, in the order of the nodes that own them. The children of a node come
before any grandchild of it. -/
def Component.siblings (c : Component) : List Siblings := c.items.filterMap Item.siblings?

/-! ### Changing names -/

/-- Changes the names of nodes, each by its kind. -/
def naming (change : NameKind → String → String) : Rewriter Unit Id where
  memoryMap _ m := { m with name := change .memoryMap m.name }
  block _ b := { b with name := change .addressBlock b.name }
  register _ r := { r with name := change .register r.name }
  field _ f := { f with name := change .field f.name }
  enumValue _ e := { e with name := change .enumValue e.name }

/-- Changes the names below the component. -/
def Component.mapNames (change : NameKind → String → String) (c : Component) : Component :=
  (naming change).onComponent () c

/-! ### Descriptions -/

def Label.mapDescription (change : String → String) (l : Label) : Label :=
  { l with description := l.description.map change }

/-- Changes the descriptions of nodes. -/
def rewording (change : String → String) : Rewriter Unit Id where
  component _ c := { c with toLabel := c.toLabel.mapDescription change }
  parameter _ p := { p with toLabel := p.toLabel.mapDescription change }
  resetType _ t := { t with toLabel := t.toLabel.mapDescription change }
  memoryMap _ m := { m with toLabel := m.toLabel.mapDescription change }
  block _ b := { b with toLabel := b.toLabel.mapDescription change }
  register _ r := { r with toLabel := r.toLabel.mapDescription change }
  field _ f := { f with toLabel := f.toLabel.mapDescription change }
  enumValue _ e := { e with toLabel := e.toLabel.mapDescription change }

/-- Changes every description of the tree. -/
def Component.mapDescriptions (change : String → String) (c : Component) : Component :=
  (rewording change).onComponent () c

def Item.description? : Item → Option String
  | component c => c.description
  | parameter p => p.description
  | resetType t => t.description
  | memoryMap m => m.description
  | block b => b.description
  | register r => r.description
  | field f => f.description
  | enumValue e => e.description
  | _ => none

def Component.descriptions (c : Component) : List String := c.items.filterMap Item.description?

/-! ### Renaming -/

namespace RenameOptions

/-- The new name of a node. -/
def newName (options : RenameOptions) (kind : NameKind) (name : String) : String :=
  if kind ∈ options.kinds then options.target.convert name else name

/-- Old and new names of the siblings whose name changes. -/
def changes (options : RenameOptions) (s : Siblings) : List (String × String) :=
  (s.names.map fun name => (name, options.newName s.kind name)).filter fun (old, new) => old != new

/-- The fault of siblings with converted names. -/
def collision? (options : RenameOptions) (s : Siblings) : Option Fault :=
  if s.kind ∈ options.kinds then
    (firstRepeat? id [] s.names).map fun name => .nameCollision s.kind.text name s.parent
  else none

end RenameOptions

/-- Converts the names of a component. When siblings get one name there is a fault, and the names
are converted all the same. -/
def Component.rename (options : RenameOptions) (c : Component) :
    Component × Except Fault RenameReport :=
  let converted := c.mapNames options.newName
  match converted.siblings.findSome? options.collision? with
  | some fault => (converted, .error fault)
  | none =>
    let renamed := c.siblings.flatMap options.changes
    if options.descriptions && !renamed.isEmpty then
      let changed := converted.descriptions.filterMap (Mention.replaceAll? renamed)
      (converted.mapDescriptions fun text => (Mention.replaceAll? renamed text).getD text,
        .ok { renamed, descriptions := changed.length })
    else (converted, .ok { renamed })

end RegAtlas
