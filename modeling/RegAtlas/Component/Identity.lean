import RegAtlas.Component.Rewriter

/-!
# Identifiers and parent links

Identifiers come from a counter that only goes up, and none is used again: 64 bits number more nodes
than a program can make. Linking writes into every node the identifier of its owner.
-/

namespace RegAtlas

/-- Takes the next identifier. -/
def freshNode : StateM Nat Node := fun next => ({ id := next }, next + 1)

def Node.link (node : Node) (owner : Option Nat) : Node := { node with parent := owner }

/-- Writes into every node the identifier of the node above it. -/
def linking : Rewriter (Option Nat) Id where
  inside _ i := some i.node.id
  component owner c := { c with toNode := c.toNode.link owner }
  parameter owner p := { p with toNode := p.toNode.link owner }
  resetType owner t := { t with toNode := t.toNode.link owner }
  extension owner e := { e with toNode := e.toNode.link owner }
  memoryMap owner m := { m with toNode := m.toNode.link owner }
  block owner b := { b with toNode := b.toNode.link owner }
  register owner r := { r with toNode := r.toNode.link owner }
  field owner f := { f with toNode := f.toNode.link owner }
  reset owner r := { r with toNode := r.toNode.link owner }
  enumValue owner e := { e with toNode := e.toNode.link owner }
  reference owner r := { r with toNode := r.toNode.link owner }
  value owner v := { v with toNode := v.toNode.link owner }

/-- Writes the parent links of all nodes. The root has none. -/
def Component.link (c : Component) : Component := linking.onComponent none c

end RegAtlas
