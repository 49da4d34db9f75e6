import Exemplar.Text.Split

/-!
# File trees

A tree of files and directories, as far as a program can see it that reads one file, makes
directories and writes another file.  A path is followed piece by piece, and each piece leads on
only from a directory that is there, a point and two points too.  A path starts from the root if
a slash stands in front, and from the working directory otherwise; the root is its own parent.
-/

namespace Exemplar

/-- Why a file cannot be read or written. -/
inductive FileError
  | notFound
  | fileExists
  | notADirectory
  | isADirectory
  | nameTooLong
  | nulInPath
  deriving DecidableEq, Repr

/-- The wording of a file error. -/
def FileError.message : FileError → String
  | .notFound => "No such file or directory (os error 2)"
  | .fileExists => "File exists (os error 17)"
  | .notADirectory => "Not a directory (os error 20)"
  | .isADirectory => "Is a directory (os error 21)"
  | .nameTooLong => "File name too long (os error 36)"
  | .nulInPath => "file name contained an unexpected NUL byte"

/-! ## Paths -/

namespace Path

/-- The pieces of a path between its slashes; an empty piece says nothing. -/
def pieces (path : String) : List String :=
  ((Text.split '/' path.toList).filter (· ≠ [])).map String.ofList

/-- Whether a path starts from the root. -/
def isAbsolute (path : String) : Bool :=
  path.toList.head? == some '/'

/-- Whether a path ends in a slash. -/
def endsInSlash (path : String) : Bool :=
  path.toList.getLast? == some '/'

/-- The greatest number of bytes in a path. -/
def maxBytes : Nat := 4095

/-- The greatest number of bytes in a name. -/
def maxNameBytes : Nat := 255

/-- Refuses a text that is no path anywhere: one with a NUL in it, an empty one and one that is
too long. -/
def check (path : String) : Except FileError Unit :=
  if '\x00' ∈ path.toList then .error .nulInPath
  else if path = "" then .error .notFound
  else if maxBytes < path.utf8ByteSize then .error .nameTooLong
  else .ok ()

/-- The reversed text of a path without the slashes and the points behind slashes that it ends
in. -/
def dropTail : List Char → List Char
  | [] => []
  | ['/'] => ['/']
  | '/' :: cs => dropTail cs
  | '.' :: '/' :: cs => dropTail ('/' :: cs)
  | cs => cs

/-- The text of the path to the directory of a file, empty when it is the one that paths start
from. -/
def parent (path : String) : String :=
  let upToName := (dropTail path.toList.reverse).dropWhile (· != '/')
  String.ofList (dropTail upToName).reverse

/-- The path that leads on from a directory. -/
def join (directory path : String) : String :=
  if endsInSlash directory then directory ++ path else directory ++ "/" ++ path

end Path

/-! ## Trees -/

/-- A place in a tree, by the names along the way from the root. -/
abbrev Location := List String

/-- The files of a tree with their contents, the directories that are there without a file in
them, and the directory that paths start from. -/
structure FileTree where
  files : List (Location × List UInt8) := []
  directories : List Location := []
  workingDirectory : Location := []
  deriving DecidableEq, Repr

/-- What stands at a place of a tree. -/
inductive Place
  | file (content : List UInt8)
  | directory
  | nothing
  deriving DecidableEq, Repr

namespace FileTree

/-- Whether a location is that of a directory by itself, or lies on the way to something. -/
def leadsOn (t : FileTree) (location : Location) : Bool :=
  location.isPrefixOf t.workingDirectory || t.directories.any location.isPrefixOf ||
    t.files.any fun f => location.isPrefixOf f.1

/-- What stands at a location. -/
def place (t : FileTree) (location : Location) : Place :=
  match t.files.lookup location with
  | some content => .file content
  | none => if t.leadsOn location then .directory else .nothing

/-- Refuses a location where no directory stands. -/
def requireDirectory (t : FileTree) (location : Location) : Except FileError Unit :=
  match t.place location with
  | .file _ => .error .notADirectory
  | .directory => .ok ()
  | .nothing => .error .notFound

/-- Where a piece of a path leads from a directory. -/
def step (location : Location) (piece : String) : Except FileError Location :=
  if piece = "." then .ok location
  else if piece = ".." then .ok location.dropLast
  else if Path.maxNameBytes < piece.utf8ByteSize then .error .nameTooLong
  else .ok (location ++ [piece])

/-- Follows pieces from a location. -/
def walk (t : FileTree) (location : Location) : List String → Except FileError Location
  | [] => .ok location
  | piece :: pieces => do
    t.requireDirectory location
    let next ← step location piece
    t.walk next pieces

/-- Where a path starts. -/
def start (t : FileTree) (path : String) : Location :=
  if Path.isAbsolute path then [] else t.workingDirectory

/-! ## Reading -/

/-- The content of the file at a path. -/
def read (t : FileTree) (path : String) : Except FileError (List UInt8) := do
  Path.check path
  let location ← t.walk (t.start path) (Path.pieces path)
  match t.place location with
  | .nothing => .error .notFound
  | .directory => .error .isADirectory
  | .file content => if Path.endsInSlash path then .error .notADirectory else .ok content

/-! ## Making directories -/

/-- Puts an empty directory at a location. -/
def addDirectory (t : FileTree) (location : Location) : FileTree :=
  { t with directories := t.directories ++ [location] }

/-- Follows pieces from a directory and makes each directory that is not there: the tree with
those that could be made, and the error that ended it.  A file on the way is no directory as long
as none has been made; at the end of the way, or where directories have to be made, it is in the
place of one. -/
def makeFrom (t : FileTree) (location : Location) (made : Bool) :
    List String → FileTree × Except FileError Unit
  | [] => (t, .ok ())
  | piece :: pieces =>
    match step location piece with
    | .error e => (t, .error e)
    | .ok next =>
      match t.place next with
      | .directory => t.makeFrom next made pieces
      | .nothing => (t.addDirectory next).makeFrom next true pieces
      | .file _ => (t, .error (if made ∨ pieces = [] then .fileExists else .notADirectory))

/-- Makes the directory at a path, and those on the way to it. -/
def makeDirectories (t : FileTree) (path : String) : FileTree × Except FileError Unit :=
  match Path.check path with
  | .error e => (t, .error e)
  | .ok () => t.makeFrom (t.start path) false (Path.pieces path)

/-! ## Writing -/

/-- Puts a file at a location, in the place of the one that may be there. -/
def put (t : FileTree) (location : Location) (content : List UInt8) : FileTree :=
  { t with
    files :=
      if t.files.any (·.1 == location) then
        t.files.map fun f => if f.1 = location then (location, content) else f
      else t.files ++ [(location, content)] }

/-- The location of the file that a path names in a directory: its last piece must be a name, with
no slash behind it, and no directory may stand there. -/
def fileLocation (t : FileTree) (directory : Location) (path name : String) :
    Except FileError Location := do
  t.requireDirectory directory
  if name = "." ∨ name = ".." ∨ Path.endsInSlash path then .error .isADirectory
  else
    let location ← step directory name
    if t.place location = .directory then .error .isADirectory else .ok location

/-- Writes the file at a path, whose directory must be there. -/
def write (t : FileTree) (path : String) (content : List UInt8) : Except FileError FileTree := do
  Path.check path
  match (Path.pieces path).getLast? with
  | none => .error .isADirectory
  | some name =>
    let directory ← t.walk (t.start path) (Path.pieces path).dropLast
    let location ← t.fileLocation directory path name
    .ok (t.put location content)

end FileTree

end Exemplar
