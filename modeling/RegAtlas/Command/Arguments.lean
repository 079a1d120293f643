import RegAtlas.Text.Basic

/-!
# Arguments

Options on a command line. An option has a long name and perhaps a letter. Its value is attached to
it or is the next argument, which then does not begin with a dash.
-/

namespace RegAtlas.Command

structure OptionSpec where
  name : String
  letter : Option Char := none
  takesValue : Bool := true
  /-- The option may be given more than once. -/
  repeats : Bool := false
  required : Bool := false
  deriving DecidableEq, Repr

/-- Options by name, each with its value, or an empty text if it takes none. -/
abbrev Given : Type := List (String × String)

/-- What one argument is. -/
inductive Argument where
  | options (given : Given)
  /-- The last option wants the next argument. -/
  | wanting (given : Given) (name : String)
  /-- Two dashes: no options follow. -/
  | stop
  | other
  | invalid

/-- An option by its long name, perhaps with its value behind an equals sign. -/
def longOption (specs : List OptionSpec) (cs : List Char) : Argument :=
  let (name, value) := match Text.splitOnce? '=' cs with
    | some (name, value) => (String.ofList name, some (String.ofList value))
    | none => (String.ofList cs, none)
  match specs.find? (·.name == name), value with
  | none, _ => .invalid
  | some spec, some value => if spec.takesValue then .options [(name, value)] else .invalid
  | some spec, none => if spec.takesValue then .wanting [] name else .options [(name, "")]

/-- Letters of options. The first one that takes a value gets the rest, without an equals sign at
its beginning. -/
def letterOptions (specs : List OptionSpec) (given : Given) : List Char → Argument
  | [] => .options given
  | c :: cs =>
    match specs.find? (·.letter == some c) with
    | none => .invalid
    | some spec =>
      if !spec.takesValue then letterOptions specs (given ++ [(spec.name, "")]) cs
      else match cs with
        | [] => .wanting given spec.name
        | '=' :: value => .options (given ++ [(spec.name, String.ofList value)])
        | value => .options (given ++ [(spec.name, String.ofList value)])

def Argument.ofText (specs : List OptionSpec) (text : String) : Argument :=
  match text.toList with
  | ['-', '-'] => .stop
  | '-' :: '-' :: cs => longOption specs cs
  | '-' :: c :: cs => letterOptions specs [] (c :: cs)
  | _ => .other

/-- Whether an argument can be the value of the option before it. A lone dash can. -/
def isValue (text : String) : Bool := text.toList.head? != some '-' || text == "-"

/-- Takes options up to the first other argument. The results are the options and the arguments
left. -/
def takeOptions? (specs : List OptionSpec) : List String → Option (Given × List String)
  | [] => some ([], [])
  | text :: rest =>
    match Argument.ofText specs text with
    | .options given => (takeOptions? specs rest).map fun (more, left) => (given ++ more, left)
    | .wanting given name =>
      match rest with
      | value :: rest =>
        if isValue value then
          (takeOptions? specs rest).map fun (more, left) => (given ++ (name, value) :: more, left)
        else none
      | [] => none
    | .stop => if rest.isEmpty then some ([], []) else none
    | .other => some ([], text :: rest)
    | .invalid => none

/-- Whether required options are there, and others than repeated ones only once. -/
def isComplete (specs : List OptionSpec) (given : Given) : Bool :=
  specs.all fun spec =>
    let count := (given.filter (·.1 == spec.name)).length
    (!spec.required || 0 < count) && (spec.repeats || count ≤ 1)

/-- Takes options and checks them. -/
def options? (specs : List OptionSpec) (args : List String) : Option (Given × List String) :=
  (takeOptions? specs args).filter fun (given, _) => isComplete specs given

namespace Given

def has (given : Given) (name : String) : Bool := (given.lookup name).isSome

/-- The value of an option in a form that it may not have. -/
def valueAs? {α : Type} (given : Given) (name : String) (read? : String → Option α) :
    Option (Option α) :=
  match given.lookup name with
  | none => some none
  | some text => (read? text).map some

/-- The values of a repeated option. -/
def valuesAs? {α : Type} (given : Given) (name : String) (read? : String → Option α) :
    Option (List α) :=
  ((given.filter (·.1 == name)).map Prod.snd).mapM read?

end Given

end RegAtlas.Command
