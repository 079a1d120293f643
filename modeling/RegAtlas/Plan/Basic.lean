import RegAtlas.Files.Path
import RegAtlas.Output.Kind
import RegAtlas.Rename

/-!
# Plans

A plan names a component and the texts to be generated from it.
-/

namespace RegAtlas

/-- One generated text. -/
structure PlannedOutput where
  kind : OutputKind
  path : FilePath
  /-- Name of the header or package. -/
  name : String
  deriving DecidableEq, Inhabited, Repr

structure Plan where
  schemaVersion : String := "1.0"
  /-- The IP-XACT document. -/
  input : FilePath
  /-- The memory map, the first one when absent. -/
  memoryMap : Option String := none
  /-- Access word in bits. -/
  wordWidth : Nat := 32
  /-- Begins generated identifiers, may be empty. -/
  lead : String := ""
  /-- A file whose text stands at the top of every output. -/
  license : Option FilePath := none
  style : Style := {}
  /-- How names are converted before anything is generated. -/
  rename : Option RenameOptions := none
  documentation : RegisterDoc.DocOptions := {}
  outputs : List PlannedOutput := []
  deriving Inhabited, Repr

/-- Why a plan cannot be carried out as it stands. -/
inductive PlanError where
  | unsupportedVersion (version : String)
  | emptyInput
  | wordWidth (bits : Nat)
  | lineLength (length : Nat)
  /-- The output at this place, counted from one, has no name. -/
  | unnamedOutput (position : Nat)
  deriving DecidableEq, Repr

def PlanError.message : PlanError → String
  | .unsupportedVersion version =>
    s!"Unsupported schema_version '{version}'. Supported versions: '1.0'"
  | .emptyInput => "Input path cannot be empty"
  | .wordWidth bits => s!"Word width must be a non-zero multiple of 8, got {bits}"
  | .lineLength length => s!"Style 'max_line_length' must be greater than 8, got {length}"
  | .unnamedOutput position => s!"Output #{position} has an empty 'name'"

namespace Plan

/-- An access word is a positive number of bytes. -/
def isWordWidth (bits : Nat) : Bool := bits != 0 && bits % 8 == 0

/-- The first fault of a plan, if there is one. -/
def error? (p : Plan) : Option PlanError :=
  if p.schemaVersion ≠ "1.0" then some (.unsupportedVersion p.schemaVersion)
  else if p.input.isEmpty then some .emptyInput
  else if !isWordWidth p.wordWidth then some (.wordWidth p.wordWidth)
  else if p.style.maxLineLength ≤ 8 then some (.lineLength p.style.maxLineLength)
  else (p.outputs.findIdx? fun o => (Text.trim o.name).isEmpty).map fun i =>
    .unnamedOutput (i + 1)

/-- The plan, if it has no fault. -/
def validated (p : Plan) : Except PlanError Plan :=
  match p.error? with
  | some e => .error e
  | none => .ok p

/-- Paths of the plan as seen from a directory. -/
def within (base : FilePath) (p : Plan) : Plan :=
  { p with
    input := base.join p.input
    license := p.license.map base.join
    outputs := p.outputs.map fun o => { o with path := base.join o.path } }

/-- Options of an output. -/
def optionsFor (p : Plan) (license : Option String) (o : PlannedOutput) : OutputOptions :=
  { name := o.name
    lead := p.lead
    wordWidth := p.wordWidth
    memoryMap := p.memoryMap
    license
    style := p.style }

end Plan

end RegAtlas
