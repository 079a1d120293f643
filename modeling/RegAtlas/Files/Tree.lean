import RegAtlas.Files.Access

/-!
# Files in memory

A tree of files below a working directory. The directories around it are taken to be there and to
hold nothing else.
-/

namespace RegAtlas

/-- A tree of files. A place in it is given by the names on the way from the working directory, of
which the first ones may be `..` and lead out of it. -/
structure FileTree where
  files : List (List String × String) := []
  /-- Directories besides those that hold files. -/
  directories : List (List String) := []
  deriving Inhabited, Repr

namespace FileTree

/-- Whether a place is the working directory or around it. -/
def isAround (place : List String) : Bool := place.all (· == "..")

/-- The directory that holds a place. -/
def outside (place : List String) : List String :=
  if isAround place then ".." :: place else place.dropLast

def isDirectory (t : FileTree) (place : List String) : Bool :=
  isAround place || t.directories.contains place ||
    t.files.any fun (p, _) => place.isPrefixOf p && place != p

/-- The longest name of a file or directory, in bytes. -/
def maxName : Nat := 255

/-- The longest path, in bytes. -/
def maxPath : Nat := 4095

/-- The place that pieces of a path lead to. All but the last are names of directories. -/
def walk? (t : FileTree) (place : List String) : List String → Option (List String)
  | [] => some place
  | piece :: pieces =>
    if !t.isDirectory place then none
    else if FilePath.isVoid piece then walk? t place pieces
    else if piece = ".." then walk? t (outside place) pieces
    else if maxName < piece.utf8ByteSize then none
    else walk? t (place ++ [piece]) pieces

/-- The pieces of a path, if it can lead into the tree. -/
def pieces? (p : FilePath) : Option (List String) :=
  if p.isEmpty || p.isAbsolute || p.toList.contains '\x00' || maxPath < p.utf8ByteSize then none
  else some p.pieces

/-- The place that a path leads to, whether something stands there or not. -/
def place? (t : FileTree) (p : FilePath) : Option (List String) := (pieces? p).bind (t.walk? [])

def entry? (t : FileTree) (p : FilePath) : Option FileEntry := do
  let place ← t.place? p
  if t.isDirectory place then some .directory else (t.files.lookup place).map .file

/-- Makes the directories that pieces of a path lead through. -/
def make? (t : FileTree) (place : List String) : List String → Option FileTree
  | [] => some t
  | piece :: pieces =>
    if FilePath.isVoid piece then make? t place pieces
    else if piece = ".." then make? t (outside place) pieces
    else if maxName < piece.utf8ByteSize then none
    else
      let place := place ++ [piece]
      if (t.files.lookup place).isSome then none
      else if t.isDirectory place then make? t place pieces
      else make? { t with directories := place :: t.directories } place pieces

def makeDirectory? (t : FileTree) (p : FilePath) : Option FileTree :=
  (pieces? p).bind (t.make? [])

/-- Sets the text of a file. -/
def setFile (place : List String) (text : String) :
    List (List String × String) → List (List String × String)
  | [] => [(place, text)]
  | (p, old) :: files =>
    if p = place then (p, text) :: files else (p, old) :: setFile place text files

/-- Writes a file into a directory that is there. -/
def write? (t : FileTree) (p : FilePath) (text : String) : Option FileTree := do
  let place ← t.place? p
  if t.isDirectory place then none else some { t with files := setFile place text t.files }

end FileTree

/-- A tree of files and the warnings raised so far. -/
structure Workspace where
  files : FileTree := {}
  warnings : List String := []
  deriving Inhabited, Repr

namespace Workspace

/-- Goes on with a changed tree, if there is one. -/
def update (w : Workspace) (files : Option FileTree) : Bool × Workspace :=
  match files with
  | some files => (true, { w with files })
  | none => (false, w)

instance : FileAccess (StateM Workspace) where
  entry? p := return (← get).files.entry? p
  makeDirectory p := fun w => w.update (w.files.makeDirectory? p)
  write p text := fun w => w.update (w.files.write? p text)
  warn text := modify fun w => { w with warnings := w.warnings ++ [text] }

end Workspace

end RegAtlas
