import RegAtlas.Command.Arguments
import RegAtlas.Component.Dump
import RegAtlas.Document.Json
import RegAtlas.Document.Yaml
import RegAtlas.Entity.Reader
import RegAtlas.Outline
import RegAtlas.Output.EntityTable
import RegAtlas.Plan.Run

/-!
# Commands

What can be asked for on the command line, and how it is carried out.
-/

namespace RegAtlas

/-- Forms in which a component is printed. -/
inductive DumpFormat where
  | tree
  | json
  | yaml
  deriving DecidableEq, Repr

inductive Command where
  /-- Carries out a plan that the arguments describe. -/
  | generate (p : Plan)
  /-- Documents the interface of a VHDL entity. -/
  | describeEntity (input output : FilePath)
  | print (input : FilePath) (format : DumpFormat)
  /-- Carries out the plan in a file. -/
  | run (plan : FilePath)
  /-- Writes a component as JSON or YAML. -/
  | convert (input output : FilePath)

namespace Command

/-! ### Values of options -/

def path? (text : String) : Option FilePath := if text.isEmpty then none else some text

/-- A number that may have a sign, below the bound of word widths. -/
def width? (text : String) : Option Nat :=
  let read? := fun (digits : List Char) =>
    (Yaml.Node.numberOfDigits? 10 digits).filter (· < Plan.widthBound)
  match text.toList with
  | '+' :: digits => read? digits
  | '-' :: digits => (read? digits).filter (· == 0)
  | digits => read? digits

def case? (text : String) : Option Text.NameCase :=
  if text = "camel" then some .upperCamel else if text = "snake" then some .snake else none

/-- A name and a flag with an equals sign between them. -/
def namedFlag? (text : String) : Option (String × Bool) := do
  let (name, value) ← Text.splitOnce? '=' text.toList
  let name := String.ofList (Text.trimChars name)
  let value := String.ofList (Text.trimChars value)
  if value = "true" then some (name, true)
  else if value = "false" then some (name, false)
  else none

def format? (text : String) : Option DumpFormat :=
  if text = "tree" then some .tree
  else if text = "json" then some .json
  else if text = "yaml" then some .yaml
  else none

/-! ### Options -/

def verbose : OptionSpec := { name := "verbose", letter := some 'v', takesValue := false }

def input : OptionSpec := { name := "input", letter := some 'i', required := true }

def output : OptionSpec := { name := "output", letter := some 'o', required := true }

def flag (name : String) : OptionSpec := { name, takesValue := false }

/-- Options of all generated texts. -/
def outputOptions : List OptionSpec :=
  [verbose, input, output, { name := "name", letter := some 'n', required := true },
    { name := "memory-map" }, { name := "word-width" }, { name := "prefix" },
    { name := "license" }, { name := "rename" }, flag "rename-descriptions"]

/-- Options of register documentation. -/
def documentationOptions : List OptionSpec :=
  outputOptions ++ [flag "no-regions", flag "no-fields", flag "skip-conditional",
    { name := "param", repeats := true }]

/-- Options with nothing behind them. -/
def onlyOptions? (specs : List OptionSpec) (args : List String) : Option Given := do
  let (given, left) ← options? specs args
  if left.isEmpty then some given else none

/-! ### Commands from arguments -/

/-- What the options say about the content of register documentation. -/
def documentation? (given : Given) : Option RegisterDoc.DocOptions := do
  let parameters ← given.valuesAs? "param" namedFlag?
  let decided := given.has "skip-conditional" || !parameters.isEmpty
  return {
    regions := !given.has "no-regions"
    fields := !given.has "no-fields"
    presence := if decided then some parameters.reverse else none }

/-- The plan for one text. -/
def plan? (kind : OutputKind) (given : Given) : Option Plan := do
  let target ← given.valueAs? "rename" case?
  let descriptions := given.has "rename-descriptions"
  if descriptions && target.isNone then none
  else
    let planned : PlannedOutput := {
      kind
      path := ← (given.lookup "output").bind path?
      name := ← given.lookup "name" }
    return {
      input := ← (given.lookup "input").bind path?
      memoryMap := given.lookup "memory-map"
      wordWidth := (← given.valueAs? "word-width" width?).getD 32
      lead := (given.lookup "prefix").getD ""
      license := ← given.valueAs? "license" path?
      rename := target.map fun target => { target, descriptions }
      documentation := ← documentation? given
      outputs := [planned] }

def generate? (kind : OutputKind) (specs : List OptionSpec) (args : List String) :
    Option Command := do
  return .generate (← plan? kind (← onlyOptions? specs args))

/-- The command with a name. -/
def named? (name : String) (args : List String) : Option Command :=
  match name with
  | "c-header" => generate? .cHeader outputOptions args
  | "kernel-header" => generate? .kernelHeader outputOptions args
  | "vhdl-package" => generate? .vhdlPackage outputOptions args
  | "register-doc" => generate? .registerDoc documentationOptions args
  | "entity-doc" => do
    let given ← onlyOptions? [verbose, input, output] args
    return .describeEntity (← (given.lookup "input").bind path?)
      (← (given.lookup "output").bind path?)
  | "dump" => do
    let given ← onlyOptions? [verbose, input, { name := "format", letter := some 'f' }] args
    return .print (← (given.lookup "input").bind path?)
      ((← given.valueAs? "format" format?).getD .tree)
  | "run" => do
    let given ←
      onlyOptions? [verbose, { name := "config", letter := some 'c', required := true }] args
    return .run (← (given.lookup "config").bind path?)
  | _ => none

/-- The command that arguments of the main program ask for. -/
def ofArgs? (args : List String) : Option Command := do
  match ← options? [verbose] args with
  | (_, name :: args) => named? name args
  | (_, []) => none

/-- The command that arguments of the converter ask for. -/
def converterOfArgs? (args : List String) : Option Command := do
  let given ← onlyOptions? [verbose, input, output] args
  return .convert (← (given.lookup "input").bind path?) (← (given.lookup "output").bind path?)

/-! ### Carrying out -/

/-- A component in the form for a file name: JSON if the name has that extension. -/
def fileText (path : FilePath) (c : Component) : String :=
  if path.extension? = some "json" then c.dump.toJson else c.dump.toYaml

/-- A component in a form for printing. -/
def printed (format : DumpFormat) (c : Component) : String :=
  match format with
  | .tree => c.outline
  | .json => c.dump.toJson
  | .yaml => c.dump.toYaml

variable {m : Type → Type} [Monad m] [FileAccess m]

open RunM

/-- Writes the tables for the entity in a file. -/
def writeEntity (input output : FilePath) : RunM m Unit := do
  let r := Entity.read (← readFile (.noInput input) input)
  warnAll r.warnings
  if r.interface.isEmpty then warnAll [s!"No generics or ports found in {input}"]
  writeFile output (EntityTable.generate {} r.interface)

/-- Carries out a command. The result is printed. -/
def execute : Command → RunM m String
  | .generate p => do
    p.run
    return ""
  | .describeEntity input output => do
    writeEntity input output
    return ""
  | .print input format => do
    let c ← readComponent input
    return Text.trimEnd (printed format c) ++ "\n"
  | .run path => do
    (← Plan.load path).run
    return ""
  | .convert input output => do
    let c ← readComponent input
    writeFile output (fileText output c)
    return ""

/-- How a program ends. -/
structure Exit where
  code : Nat
  printed : String := ""
  deriving DecidableEq, Inhabited, Repr

/-- Carries out a command if there is one. Arguments that ask for none are a fault of their own, and
a program that stops at a number out of range reports none. -/
def finish (fail : RunError → m Unit) (command : Option Command) : m Exit := do
  match command with
  | none => return { code := 2 }
  | some command =>
    match ← command.execute.run with
    | .ok printed => return { code := 0, printed }
    | .error (.output _ (.fault .outOfRange)) => return { code := 101 }
    | .error e =>
      fail e
      return { code := 1 }

end Command

end RegAtlas
