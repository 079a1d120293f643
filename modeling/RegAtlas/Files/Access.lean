import RegAtlas.Files.Path

/-!
# Access to files

What a program that reads and writes files asks of its surroundings.
-/

namespace RegAtlas

/-- What a path leads to. -/
inductive FileEntry where
  | file (text : String)
  | directory
  deriving DecidableEq, Repr

/-- Surroundings with files and a place for warnings. -/
class FileAccess (m : Type → Type) where
  /-- What stands at a path, if anything. -/
  entry? : FilePath → m (Option FileEntry)
  /-- Makes a directory and those around it, as far as they are missing. The result tells whether
  the directory is there. -/
  makeDirectory : FilePath → m Bool
  /-- Writes a file. The result tells whether this was possible. -/
  write : FilePath → String → m Bool
  warn : String → m Unit

namespace FileAccess

variable {m : Type → Type} [Monad m] [FileAccess m]

/-- The text of the file at a path. -/
def text? (p : FilePath) : m (Option String) := do
  match ← entry? p with
  | some (.file text) => return some text
  | _ => return none

end FileAccess

end RegAtlas
