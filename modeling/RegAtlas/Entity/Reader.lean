import RegAtlas.Entity.Declaration
import RegAtlas.Entity.Line

/-!
# Reading an entity

A machine that takes one source line after the other. Comment lines above a declaration become its
description; comments between two rules become a section of the list that holds them.
-/

namespace RegAtlas.Entity

/-- Where the machine is. -/
inductive State where
  /-- Before `entity NAME is`. -/
  | outside
  /-- In the entity, outside of its lists. -/
  | entity
  | generics
  | ports
  /-- Between two rules. -/
  | titled
  /-- Behind the end of the entity. -/
  | finished
  deriving DecidableEq, Inhabited, Repr

def State.text : State → String
  | outside => "None"
  | entity => "Entity"
  | generics => "Generics"
  | ports => "Ports"
  | titled => "Section"
  | finished => "Finish"

/-- What a line adds to the interface. -/
inductive Event where
  | nothing
  | comment (text : String)
  | sectionStart
  | sectionEnd
  | generic (g : Generic)
  | port (p : Port)
  | misplaced
  deriving DecidableEq, Repr

/-- What code in a list adds. -/
def codeEvent (state : State) (code : String) : Event :=
  match state with
  | .generics => match Generic.parse? code with
    | some g => .generic g
    | none => .nothing
  | .ports => match Port.parse? code with
    | some p => .port p
    | none => .nothing
  | _ => .nothing

/-- A step of the machine in a list. -/
def listStep (state : State) : Line → State × Event
  | .rule => (.titled, .sectionStart)
  | .comment text => (state, .comment text)
  | .listEnd => (.entity, .nothing)
  | .code code => (state, codeEvent state code)
  | _ => (state, .nothing)

/-- The next state and what the line adds. `last` is the state before the current one. -/
def step (state last : State) (line : Line) : State × Event :=
  match state, line with
  | .outside, .entityStart => (.entity, .nothing)
  | .outside, _ => (.outside, .nothing)
  | .entity, .genericStart => (.generics, .nothing)
  | .entity, .portStart => (.ports, .nothing)
  | .entity, .entityEnd => (.finished, .nothing)
  | .entity, _ => (.entity, .nothing)
  | .generics, line => listStep .generics line
  | .ports, line => listStep .ports line
  | .titled, .rule => (last, .sectionEnd)
  | .titled, .comment text => (.titled, .comment text)
  | .titled, _ => (.titled, .misplaced)
  | .finished, _ => (.finished, .nothing)

/-- The machine with what it has read. -/
structure Reader where
  state : State := .outside
  /-- The state before the current one. -/
  last : State := .outside
  /-- The comment that waits for a declaration or the end of a section. -/
  comment : String := ""
  interface : Interface := {}
  warnings : List String := []
  deriving DecidableEq, Inhabited, Repr

namespace Reader

/-- Appends to the waiting comment. -/
def joinComment (comment text : String) : String :=
  if text.isEmpty then comment else if comment.isEmpty then text else comment ++ " " ++ text

def addGeneric (r : Reader) (e : Entry Generic) : Reader :=
  { r with interface := { r.interface with generics := r.interface.generics ++ [e] } }

def addPort (r : Reader) (e : Entry Port) : Reader :=
  { r with interface := { r.interface with ports := r.interface.ports ++ [e] } }

def warn (r : Reader) (warning : String) : Reader :=
  { r with warnings := r.warnings ++ [warning] }

/-- Forgets the waiting comment. -/
def clear (r : Reader) : Reader := { r with comment := "" }

/-- Takes in what the line adds. -/
def apply (r : Reader) (event : Event) (line : String) : Reader :=
  match event with
  | .nothing => r
  | .comment text => { r with comment := joinComment r.comment text }
  | .sectionStart => r.clear
  | .sectionEnd => match r.last with
    | .generics => r.clear.addGeneric (.heading r.comment)
    | .ports => r.clear.addPort (.heading r.comment)
    | other => r.clear.warn s!"Section ended in unexpected state {other.text}"
  | .generic g => r.clear.addGeneric (.declaration { g with description := r.comment })
  | .port p => r.clear.addPort (.declaration { p with description := r.comment })
  | .misplaced =>
    r.warn s!"Non-comment VHDL code in comment section, skipping: {line}"

/-- Goes to a state. -/
def goto (r : Reader) (next : State) : Reader :=
  if next = r.state then r else { r with last := r.state, state := next }

/-- Takes one source line. -/
def feed (r : Reader) (line : String) : Reader :=
  let line := Text.trim line
  if line.isEmpty || r.state = .finished then r
  else
    let (next, event) := step r.state r.last (Line.classify line)
    (r.apply event line).goto next

/-- Takes lines up to the end of the entity. -/
def feedUntilFinished (r : Reader) : List String → Reader
  | [] => r
  | line :: lines =>
    let r := r.feed line
    if r.state = .finished then r else feedUntilFinished r lines

end Reader

/-- Reads the first entity of a source text. -/
def read (source : String) : Reader := Reader.feedUntilFinished {} (Text.lines source)

end RegAtlas.Entity
