namespace LiveFeed

/-- Why a file cannot be read. -/
inductive ReadError where
  | missing
  | directory
  | notText
  deriving DecidableEq, Repr

def ReadError.message : ReadError → String
  | missing => "No such file or directory (os error 2)"
  | directory => "Is a directory (os error 21)"
  | notText => "stream did not contain valid UTF-8"

/-- The contents of the files at some paths. -/
abbrev Files := String → Except ReadError (List UInt8)

/-- The text of a file. -/
def Files.readText (files : Files) (path : String) : Except ReadError String := do
  match String.fromUTF8? ⟨(← files path).toArray⟩ with
  | some text => return text
  | none => throw .notText

/-- A place below the root: the names on the way to it. -/
abbrev Place := List String

/-- The place that a name stands for in a directory; above the root is the root. -/
def Place.step (place : Place) (name : String) : Place :=
  if name = "" || name = "." then place
  else if name = ".." then place.dropLast
  else place ++ [name]

/-- What is below a root; whatever holds a file or a directory is a directory itself. -/
structure FileTree where
  files : List (Place × List UInt8) := []
  directories : List Place := []
  /-- The directory where a path starts that does not start at the root. -/
  current : Place := []
  deriving Repr

namespace FileTree

def isDirectory (t : FileTree) (place : Place) : Bool :=
  place.isPrefixOf t.current || t.directories.any (place.isPrefixOf ·)
    || t.files.any fun (p, _) => place.isPrefixOf p && place ≠ p

/-- The place that names lead to, from a place on; each name has to be looked up in a directory. -/
def walk (t : FileTree) (place : Place) : List String → Option Place
  | [] => some place
  | name :: names => if t.isDirectory place then walk t (place.step name) names else none

/-- The most bytes that a path may have. -/
def maxPathBytes : Nat := 4095

/-- Whether a path starts at the root. -/
def isAbsolute (path : String) : Bool := path.startsWith "/"

/-- The place where a path starts. -/
def start (t : FileTree) (path : String) : Place := if isAbsolute path then [] else t.current

/-- The place that a path leads to. -/
def place? (t : FileTree) (path : String) : Option Place :=
  if path.isEmpty || maxPathBytes < path.utf8ByteSize then none
  else t.walk (t.start path) (path.splitOn "/")

/-- The files of a tree by their paths. -/
def read (t : FileTree) : Files := fun path =>
  match t.place? path with
  | none => .error .missing
  | some place =>
    if t.isDirectory place then .error .directory
    else
      match t.files.lookup place with
      | some bytes => .ok bytes
      | none => .error .missing

/-- The most bytes that a name may have. -/
def maxNameBytes : Nat := 255

/-- The tree with a file at a path, or `none` if there can be no file. -/
def write? (t : FileTree) (path : String) (bytes : List UInt8) : Option FileTree := do
  let place ← t.place? path
  if t.isDirectory place || place.any (maxNameBytes < ·.utf8ByteSize) then none
  else some { t with files := (place, bytes) :: t.files.filter (·.1 ≠ place) }

/-- The tree with a directory wherever names lead on their way, from a place on. -/
def makeDirectories (t : FileTree) (place : Place) : List String → FileTree
  | [] => t
  | name :: names =>
    let next := place.step name
    makeDirectories { t with directories := next :: t.directories } next names

/-- The tree with a file at a path and all directories on the way, or `none` if that cannot be. -/
def install? (t : FileTree) (path : String) (bytes : List UInt8) : Option FileTree :=
  (t.makeDirectories (t.start path) (path.splitOn "/").dropLast).write? path bytes

end FileTree

end LiveFeed
