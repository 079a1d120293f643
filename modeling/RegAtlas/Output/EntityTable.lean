import RegAtlas.Entity.Basic
import RegAtlas.Output.Basic
import RegAtlas.Output.Latex

/-!
# Tables of an entity

LaTeX tables of the generics and ports of an entity. An empty table is left out.
-/

namespace RegAtlas.EntityTable

open Latex

/-- The column formats of both tables. -/
def columns : List String :=
  ["0.2", "0.15", "0.2", "0.35"].map fun share => "p\x7b" ++ share ++ "\\textwidth\x7d"

/-- A row of texts. -/
def textRow (texts : List String) : List Cell := texts.map fun text => .plain (escape text)

/-- The row of a section, over all columns. -/
def headingRow (text : String) : List Cell :=
  [.spanning 4 "|l|" (grey (bold (escape text)))]

def headerRow (texts : List String) : List Cell := texts.map fun text => .plain (bold text)

def genericRow : Entity.Entry Entity.Generic → List Cell
  | .declaration g => textRow [g.name, g.type, g.default.getD "", g.description]
  | .heading text => headingRow text

def portRow : Entity.Entry Entity.Port → List Cell
  | .declaration p => textRow [p.name, p.direction, p.type, p.description]
  | .heading text => headingRow text

def genericTable (entries : List (Entity.Entry Entity.Generic)) : Table :=
  { columns
    rows := headerRow ["Name", "Type", "Default value", "Description"] :: entries.map genericRow }

def portTable (entries : List (Entity.Entry Entity.Port)) : Table :=
  { columns
    rows := headerRow ["Name", "Direction", "Type", "Description"] :: entries.map portRow }

def writeTable (title : String) (t : Table) (w : LineWriter) : LineWriter :=
  (t.write (w.comment (Output.note title))).blank

/-- The tables of an interface. -/
def generate (style : Style) (i : Entity.Interface) : String :=
  let w := Output.preamble none { style := style.withCommentChar '%' }
  let w := if i.generics.isEmpty then w else writeTable "Generics" (genericTable i.generics) w
  let w := if i.ports.isEmpty then w else writeTable "Ports" (portTable i.ports) w
  w.finish

end RegAtlas.EntityTable
