import RegAtlas.Plan.Basic
import RegAtlas.Yaml.Node.Reader
import RegAtlas.Yaml.Schema

/-!
# Reading plans

A plan is written in YAML. Keys that are not known are refused, and those that are left out have
defaults, apart from the input and from the parts of an output.
-/

namespace RegAtlas.Plan

open Text (NameCase)

/-- Counts are below this. -/
def countBound : Nat := 0x10000000000000000

/-- Word widths are below this. -/
def widthBound : Nat := 0x100000000

/-- The value of a field, or a default where it is left out. -/
def fieldOr {α : Type} (fields : List (String × Yaml.Node)) (name : String) (default : α)
    (read? : Yaml.Node → Option α) : Option α :=
  match fields.lookup name with
  | none => some default
  | some n => read? n

/-- The value of a field that has to be there. -/
def field? {α : Type} (fields : List (String × Yaml.Node)) (name : String)
    (read? : Yaml.Node → Option α) : Option α :=
  (fields.lookup name).bind read?

def readStyle? (g : Yaml.Graph) (n : Yaml.Node) : Option Style := do
  let fields ← g.record? ["indent", "use_spaces", "max_line_length"] n
  return {
    indent := ← fieldOr fields "indent" 2 (Yaml.Node.number? countBound)
    useSpaces := ← fieldOr fields "use_spaces" true Yaml.Node.flag?
    maxLineLength := ← fieldOr fields "max_line_length" 80 (Yaml.Node.number? countBound) }

def caseOfName? (name : String) : Option NameCase :=
  if ["upper_camel", "camel"].contains name then some .upperCamel
  else if name = "snake" then some .snake
  else none

def readRename? (g : Yaml.Graph) (n : Yaml.Node) : Option RenameOptions := do
  let fields ← g.record? ["case", "descriptions"] n
  return {
    target := ← field? fields "case" fun n => n.alternative?.bind caseOfName?
    descriptions := ← fieldOr fields "descriptions" false Yaml.Node.flag? }

/-- Values by name; of two for one name the last counts. -/
def readPresence? (g : Yaml.Graph) (n : Yaml.Node) : Option (List (String × Bool)) := do
  let entries ← (← g.entries? n).mapM fun (name, n) => do return (name, ← n.flag?)
  return entries.reverse

def readDocumentation? (g : Yaml.Graph) (n : Yaml.Node) : Option RegisterDoc.DocOptions := do
  let fields ← g.record? ["regions", "fields", "presence"] n
  return {
    regions := ← fieldOr fields "regions" true Yaml.Node.flag?
    fields := ← fieldOr fields "fields" true Yaml.Node.flag?
    presence := ← fieldOr fields "presence" none (Yaml.Node.optional? (readPresence? g)) }

def readOutput? (g : Yaml.Graph) (n : Yaml.Node) : Option PlannedOutput := do
  let fields ← g.record? ["kind", "path", "name"] n
  return {
    kind := ← field? fields "kind" fun n => n.alternative?.bind OutputKind.ofName?
    path := ← field? fields "path" Yaml.Node.text?
    name := ← field? fields "name" Yaml.Node.text? }

def ofNode? (g : Yaml.Graph) (n : Yaml.Node) : Option Plan := do
  let fields ← g.record? ["schema_version", "input", "memory_map", "word_width", "prefix",
    "license", "style", "rename", "documentation", "outputs"] n
  return {
    schemaVersion := ← fieldOr fields "schema_version" "1.0" Yaml.Node.text?
    input := ← field? fields "input" Yaml.Node.text?
    memoryMap := ← fieldOr fields "memory_map" none (Yaml.Node.optional? Yaml.Node.text?)
    wordWidth := ← fieldOr fields "word_width" 32 (Yaml.Node.number? widthBound)
    lead := ← fieldOr fields "prefix" "" Yaml.Node.text?
    license := ← fieldOr fields "license" none (Yaml.Node.optional? Yaml.Node.text?)
    style := ← fieldOr fields "style" {} (readStyle? g)
    rename := ← fieldOr fields "rename" none (Yaml.Node.optional? (readRename? g))
    documentation := ← fieldOr fields "documentation" {} (readDocumentation? g)
    outputs := ← fieldOr fields "outputs" [] fun n => do
      (← g.elements? n).mapM (readOutput? g) }

/-- Reads a plan that may have faults. -/
def parse? (text : String) : Option Plan := do
  let g ← Yaml.parse? text
  ofNode? g g.root

end RegAtlas.Plan
