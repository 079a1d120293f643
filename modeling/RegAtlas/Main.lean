import RegAtlas.Command.Basic

/-!
# The program

Under the name of the converter it writes components as JSON or YAML, under any other name it takes
the commands for register maps.
-/

namespace RegAtlas

/-- The result of an action, unless it goes wrong. -/
def attempt? {α : Type} (act : IO α) : IO (Option α) := do
  try
    return some (← act)
  catch _ => return none

def succeeds (act : IO Unit) : IO Bool := return (← attempt? act).isSome

/-- What can be opened but not read is a directory. -/
instance : FileAccess IO where
  entry? p := do
    match ← attempt? (IO.FS.Handle.mk p .read) with
    | none => return none
    | some h => return some (((← attempt? h.readToEnd).map .file).getD .directory)
  makeDirectory p := succeeds (IO.FS.createDirAll p)
  write p text := succeeds (IO.FS.writeFile p text)
  warn text := IO.eprintln s!"warning: {text}"

end RegAtlas

open RegAtlas

def main (args : List String) : IO UInt32 := do
  let program := FilePath.fileName? (toString (← IO.appPath))
  let command :=
    if program = some "regatlas-convert" then Command.converterOfArgs? args
    else Command.ofArgs? args
  let exit ← Command.finish (fun e => IO.eprintln s!"error: {e.message}") command
  IO.print exit.printed
  return exit.code.toUInt32
