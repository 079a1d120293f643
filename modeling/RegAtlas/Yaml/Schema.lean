import RegAtlas.Yaml.Node

/-!
# Values of nodes

What a reader who expects a certain value makes of a node. Whether a scalar is quoted matters for
flags, counts and absent values, but not for texts.
-/

namespace RegAtlas.Yaml

namespace Node

/-- The standard tag with a name. -/
def standardTag (name : String) : Address := .ofString ("tag:yaml.org,2002:" ++ name)

def isNullText (s : String) : Bool := ["null", "Null", "NULL", "~"].contains s

def flagOfText? (s : String) : Option Bool :=
  if ["true", "True", "TRUE"].contains s then some true
  else if ["false", "False", "FALSE"].contains s then some false
  else none

/-- The number that digits of a radix denote. -/
def numberOfDigits? (radix : Nat) (digits : List Char) : Option Nat :=
  if digits.isEmpty then none
  else digits.foldlM (fun n c => do
    let d ← hexValue? c
    if d < radix then some (radix * n + d) else none) 0

/-- A number without sign or with a plus sign. A decimal number does not begin with a zero. -/
def numberOfText? (s : String) : Option Nat :=
  let digits := match s.toList with
    | '+' :: cs => cs
    | cs => cs
  match digits with
  | '0' :: 'x' :: cs => numberOfDigits? 16 cs
  | '0' :: 'o' :: cs => numberOfDigits? 8 cs
  | '0' :: 'b' :: cs => numberOfDigits? 2 cs
  | '0' :: _ :: _ => none
  | cs => numberOfDigits? 10 cs

/-- The text of a scalar that may denote something else than a text: it is plain, or a block with
the tag for what is expected. -/
def literalText? (kind : String) : Node → Option String
  | .scalar .plain _ text => some text
  | .scalar .literal tag text => if tag = some (standardTag kind) then some text else none
  | _ => none

def flag? (n : Node) : Option Bool := (n.literalText? "bool").bind flagOfText?

/-- A number below a bound. -/
def number? (bound : Nat) (n : Node) : Option Nat :=
  ((n.literalText? "int").bind numberOfText?).filter (· < bound)

/-- Whether a plain scalar says that a value is absent. What has the tag for this must not hold
anything else. -/
def isNull? : Node → Option Bool
  | .scalar .plain none text => some (text.isEmpty || isNullText text)
  | .scalar .plain (some tag) text =>
    if tag = standardTag "null" then if isNullText text then some true else none else some false
  | _ => some false

/-- A value that may be absent. -/
def optional? {α : Type} (read? : Node → Option α) (n : Node) : Option (Option α) := do
  if ← n.isNull? then return none else return some (← read? n)

/-- The name that a tag of its own gives to an alternative. It begins with an exclamation mark. -/
def alternativeOfTag? (tag : Address) : Option String :=
  let mark := Address.ofString "!"
  if mark.isPrefixOf tag then
    String.fromUTF8? (ByteArray.mk (tag.drop mark.length).toArray)
  else none

/-- The name of an alternative: a text, or a tag of its own behind which nothing stands. -/
def alternative? : Node → Option String
  | .scalar style tag text =>
    match tag.bind alternativeOfTag? with
    | some name =>
      if style = .plain && (text.isEmpty || isNullText text) then some name else none
    | none => some text
  | _ => none

end Node

namespace Graph

/-- The elements of a sequence. Nothing is an empty sequence. -/
def elements? (g : Graph) (n : Node) : Option (List Node) :=
  match n with
  | .sequence ns => ns.mapM g.follow?
  | _ => if n.isEmpty then some [] else none

/-- The entries of a mapping whose keys are texts. Nothing is an empty mapping. -/
def entries? (g : Graph) (n : Node) : Option (List (String × Node)) :=
  match n with
  | .mapping entries => entries.mapM fun (key, value) => do
    return (← (← g.follow? key).text?, ← g.follow? value)
  | _ => if n.isEmpty then some [] else none

/-- The fields of a record by name. Other fields or two for one name are refused. -/
def record? (g : Graph) (names : List String) (n : Node) : Option (List (String × Node)) := do
  let entries ← g.entries? n
  let keys := entries.map Prod.fst
  if keys.all names.contains && keys.Nodup then some entries else none

end Graph

end RegAtlas.Yaml
