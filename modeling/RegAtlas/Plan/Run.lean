import RegAtlas.Files.Access
import RegAtlas.Ipxact.Reader
import RegAtlas.Plan.Reader

/-!
# Carrying out plans

The component is read once, its names are converted, and then every text is generated and written
in turn. Texts written before a failure remain.
-/

namespace RegAtlas

/-- Why a plan could not be carried out. -/
inductive RunError where
  | noPlan (path : FilePath)
  | malformedPlan
  | plan (e : PlanError)
  | noInput (path : FilePath)
  | input (path : FilePath) (e : Ipxact.DocumentError)
  | rename (component : String) (f : Fault)
  | noLicense (path : FilePath)
  | output (path : FilePath) (e : OutputError)
  | noDirectory (path : FilePath)
  | unwritable (path : FilePath)
  deriving DecidableEq, Repr

/-- What went wrong, and with what. A reason that the surroundings or a data format give is left
out. -/
def RunError.message : RunError → String
  | .noPlan path => s!"Failed to open generator config at {path.quoted}"
  | .malformedPlan => "Failed to parse Generator Config YAML"
  | .plan e => e.message
  | .noInput path | .input path .malformed => s!"Failed to parse {path}"
  | .input path e => s!"Failed to parse {path}: {e.message}"
  | .rename component f => s!"Failed to rename {component}: {f.message}"
  | .noLicense path => s!"Failed to read license file {path.quoted}"
  | .output path e => s!"Failed to generate {path}: {e.message}"
  | .noDirectory path => s!"Failed to create output directory {path}"
  | .unwritable path => s!"Failed to write {path}"

/-- A computation with files that may fail. -/
abbrev RunM (m : Type → Type) (α : Type) : Type := ExceptT RunError m α

namespace RunM

variable {m : Type → Type} [Monad m] [FileAccess m]

/-- The result, or an error where there is none. -/
def orError {α : Type} (e : RunError) : Option α → RunM m α
  | some a => return a
  | none => throw e

def liftExcept {ε α : Type} (wrap : ε → RunError) (result : Except ε α) : RunM m α :=
  MonadExcept.ofExcept (result.mapError wrap)

def warnAll (texts : List String) : RunM m Unit := do
  for text in texts do
    FileAccess.warn (m := m) text

/-- The text of the file at a path, or an error if there is none. -/
def readFile (e : RunError) (path : FilePath) : RunM m String := do
  orError e (← FileAccess.text? (m := m) path)

/-- Reads the component at a path. -/
def readComponent (path : FilePath) : RunM m Component := do
  let text ← readFile (.noInput path) path
  let r ← liftExcept (.input path) (Ipxact.read text)
  warnAll r.warnings
  return r.component

/-- Writes a file and makes the directory for it. -/
def writeFile (path : FilePath) (text : String) : RunM m Unit := do
  match path.parent?.filter (! ·.isEmpty) with
  | some directory =>
    if !(← FileAccess.makeDirectory (m := m) directory) then throw (.noDirectory directory)
  | none => pure ()
  if !(← FileAccess.write (m := m) path text) then throw (.unwritable path)

end RunM

namespace Plan

open RunM

variable {m : Type → Type} [Monad m] [FileAccess m]

/-- Reads the plan at a path. Its paths are seen from its directory. -/
def load (path : FilePath) : RunM m Plan := do
  match ← FileAccess.entry? (m := m) path with
  | none => throw (.noPlan path)
  | some .directory => throw .malformedPlan
  | some (.file text) =>
    let p ← orError .malformedPlan (parse? text)
    let p ← liftExcept .plan p.validated
    return match path.parent? with
      | some base => p.within base
      | none => p

/-- Converts the names of the component as the plan asks. -/
def renamed (p : Plan) (c : Component) : RunM m Component := do
  match p.rename with
  | none => return c
  | some options =>
    let (converted, result) := c.rename options
    discard <| liftExcept (.rename c.name) result
    return converted

/-- The license text that the plan asks for. -/
def licenseText (p : Plan) : RunM m (Option String) := do
  match p.license with
  | none => return none
  | some path => return some (← readFile (.noLicense path) path)

/-- Generates and writes one output. -/
def writeOutput (p : Plan) (c : Component) (license : Option String) (o : PlannedOutput) :
    RunM m Unit := do
  let text ← liftExcept (.output o.path)
    (o.kind.generate (p.optionsFor license o) p.documentation c)
  writeFile o.path text

/-- Carries out the plan. -/
def run (p : Plan) : RunM m Unit := do
  let p ← liftExcept .plan p.validated
  let c ← p.renamed (← readComponent p.input)
  let license ← p.licenseText
  if p.outputs.isEmpty then warnAll [s!"No outputs configured for {p.input}"]
  for o in p.outputs do
    p.writeOutput c license o

end Plan

end RegAtlas
