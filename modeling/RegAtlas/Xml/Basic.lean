import RegAtlas.Text.Basic

/-!
# XML trees

An element has attributes by local name and children in order. Prefixes of names are not kept.
-/

namespace RegAtlas.Xml

/-- A node below an element. -/
inductive Node where
  | element (name : String) (attributes : List (String × String)) (children : List Node)
  | text (s : String)
  | cdata (s : String)
  | comment (s : String)
  | instruction (target : String) (data : String)
  deriving Inhabited, Repr

/-- An element. -/
structure Element where
  name : String
  /-- Attributes in ascending order of their names, each name once. -/
  attributes : List (String × String) := []
  children : List Node := []
  deriving Inhabited, Repr

def Element.toNode (e : Element) : Node := .element e.name e.attributes e.children

namespace Node

def element? : Node → Option Element
  | element name attributes children => some { name, attributes, children }
  | _ => none

/-- The text of a text or CDATA node. -/
def text? : Node → Option String
  | text s | cdata s => some s
  | _ => none

end Node

namespace Element

/-- The child elements in order. -/
def elements (e : Element) : List Element := e.children.filterMap Node.element?

def attribute? (e : Element) (name : String) : Option String := e.attributes.lookup name

/-- The text of all text and CDATA children, without white space at the ends. -/
def content (e : Element) : String := Text.trim (String.join (e.children.filterMap Node.text?))

/-- The child elements with a name, in order. -/
def named (e : Element) (name : String) : List Element := e.elements.filter (·.name == name)

/-- The last child element with one of the names. -/
def last? (e : Element) (names : List String) : Option Element :=
  (e.elements.filter fun child => names.contains child.name).getLast?

end Element

/-- Sets an attribute. A value set earlier for the name gives way. -/
def setAttribute (name value : String) : List (String × String) → List (String × String)
  | [] => [(name, value)]
  | (n, v) :: rest =>
    if name = n then (name, value) :: rest
    else if name < n then (name, value) :: (n, v) :: rest
    else (n, v) :: setAttribute name value rest

/-- Attributes in ascending order; of two with one name the last counts. -/
def attributesOf (pairs : List (String × String)) : List (String × String) :=
  pairs.foldl (fun done (name, value) => setAttribute name value done) []

end RegAtlas.Xml
