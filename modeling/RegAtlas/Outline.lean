import RegAtlas.Component.Rewriter

/-!
# Outline of a component

One line for every node other than references and values, indented by two blanks for each owner.
-/

namespace RegAtlas

/-- A line of an outline with the number of its owners. -/
structure OutlineLine where
  depth : Nat
  text : String
  deriving DecidableEq, Repr

namespace Outline

/-- The text of a reference, or a question mark. -/
def referenceText (r : Option Reference) : String := (r.map (·.text)).getD "?"

def extensionText (tag : String) (text : Option String) : String :=
  let text := Text.trim (text.getD "")
  if text.isEmpty then s!"extension {tag}" else s!"extension {tag} = {text}"

end Outline

/-- What the line of a node says. References and values are shown with the nodes that own them. -/
def Item.outlineText? : Item → Option String
  | component c =>
    let v := c.vlnv
    some s!"component {c.name} ({v.vendor}/{v.library}/{v.name}/{v.version})"
  | parameter p => some s!"parameter {p.name} [{p.key}] = {Outline.referenceText p.value}"
  | resetType t => some s!"reset type {t.name}"
  | extension e => some (Outline.extensionText e.tag e.text)
  | memoryMap m => some s!"memory map {m.name}"
  | block b => some s!"address block {b.name} @ {Outline.referenceText b.baseAddress}"
  | register r =>
    let size := Outline.referenceText r.size
    some s!"register {r.name} @ {Outline.referenceText r.offset}, {size} bits"
  | field f =>
    let width := Outline.referenceText f.width
    let access := (Keyword.keyword? f.access).getD "-"
    some s!"field {f.name} [{Outline.referenceText f.offset} +{width}] {access}"
  | reset r =>
    let domain := r.domain.getD "-"
    some s!"reset {domain} = {Outline.referenceText r.value}"
  | enumValue e =>
    let value := (e.value.map (·.text)).getD "?"
    some s!"enum {e.name} = {value}"
  | reference _ => none
  | value _ => none

namespace Outline

/-- The line of a node with the number of its owners. -/
def line? : Nat × Item → Option OutlineLine
  | (depth, i) => i.outlineText?.map (OutlineLine.mk depth)

def component (c : Component) : List OutlineLine :=
  (c.itemsIn (fun depth _ => depth + 1) 0).filterMap line?

end Outline

/-- The line as it is printed. -/
def OutlineLine.render (l : OutlineLine) : String :=
  String.ofList (List.replicate (2 * l.depth) ' ') ++ l.text ++ "\n"

/-- The printed outline. -/
def Component.outline (c : Component) : String :=
  String.join ((Outline.component c).map OutlineLine.render)

end RegAtlas
