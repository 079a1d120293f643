import RegAtlas.Yaml.Token

/-!
# Nodes

What a YAML text stands for: a tree in which aliases stand for other nodes of it. A scalar is kept
as it is written; what it means depends on who reads it.
-/

namespace RegAtlas.Yaml

inductive Node where
  | scalar (style : ScalarStyle) (tag : Option Address) (text : String)
  | sequence (elements : List Node)
  | mapping (entries : List (Node × Node))
  /-- Stands for the node with this number. -/
  | alias (number : Nat)
  deriving Inhabited, Repr

namespace Node

/-- The node that stands where nothing is written. -/
def empty : Node := .scalar .plain none ""

/-- Whether nothing is written for the node, but perhaps a tag. -/
def isEmpty : Node → Bool
  | .scalar .plain _ text => text.isEmpty
  | _ => false

/-- The text of a scalar of any style. -/
def text? : Node → Option String
  | .scalar _ _ text => some text
  | _ => none

end Node

/-- A node with the nodes that its aliases stand for. An alias may stand for a node around it. -/
structure Graph where
  root : Node
  /-- Nodes by number. -/
  anchored : List (Nat × Node)

/-- The node that a node stands for. -/
def Graph.follow? (g : Graph) : Node → Option Node
  | .alias number => g.anchored.lookup number
  | n => some n

end RegAtlas.Yaml
