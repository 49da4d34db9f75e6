import Exemplar.Command.Arguments
import Exemplar.FileTree

/-!
# Runs

What an invocation does: it reads its input, generates, and writes the result to one place.  A run
is a function from the standard input and a file tree to the standard output, the tree after the run
and the error that ended it, if one did.  Source: the module `cli`.
-/

namespace Exemplar.Command

/-- The name of a target in messages. -/
def targetTitle : Target → String
  | .go => "Go"
  | .java => "Java"
  | .typescript => "TypeScript"

/-- Why a run fails.  Source: the contexts in `read`, `generate_to`, `write_output` and `run`. -/
inductive RunError
  | readInput (path : String) (cause : FileError)
  | generation (target : Target) (input : String) (cause : Error)
  | inference (cause : Error)
  | createDirectory (path : String) (cause : FileError)
  | write (path : String) (cause : FileError)
  deriving DecidableEq, Repr

/-- The wording of a failure, with its cause behind it.  Source: the contexts in `read`,
`generate_to`, `write_output` and `run`. -/
def RunError.message : RunError → String
  | .readInput path cause => "failed to read input file " ++ path ++ ": " ++ cause.message
  | .generation target input cause =>
    "failed to generate " ++ targetTitle target ++ " declarations from " ++ input ++ ": " ++
      cause.message
  | .inference cause => "schema inference failed: " ++ cause.message
  | .createDirectory path cause =>
    "failed to create directory " ++ path ++ ": " ++ cause.message
  | .write path cause => "failed to write " ++ path ++ ": " ++ cause.message

namespace Invocation

/-- Whether the input is the standard input. -/
def readsStdin (i : Invocation) : Bool :=
  i.input == stdinName

/-- The text that an invocation gives for the bytes of its input.  Source: `run` of
`CommandLineInterface`, what is generated. -/
def output (i : Invocation) (bytes : List UInt8) : Except RunError String :=
  match i.verb with
  | .generate target => (generate bytes target i.options).mapError (.generation target i.input)
  | .schema =>
    match inferSchema bytes i.nesting i.options with
    | .ok view => .ok view.toJson.pretty
    | .error e => .error (.inference e)

/-- The path of the file that is written, if the output is not printed.  A project takes the file at
the conventional place of the target.  Source: `destination` of `OutputSettings`. -/
def path? (i : Invocation) : Option String :=
  match i.destination with
  | .stdout => none
  | .file path => some path
  | .project directory =>
    match i.verb with
    | .generate target =>
      some (Path.join directory (target.defaultDestination (Ident.root i.options.rootName?)))
    | .schema => none

end Invocation

/-- What a run leaves behind. -/
structure Outcome where
  tree : FileTree
  stdout : String := ""
  error? : Option RunError := none

/-- The bytes of the input of an invocation.  Source: `read` of `InputSettings`. -/
def readInput (i : Invocation) (stdin : List UInt8) (tree : FileTree) :
    Except RunError (List UInt8) :=
  if i.readsStdin then .ok stdin else (tree.read i.input).mapError (.readInput i.input)

/-- Makes the directory of the file at a path, unless it is the one that paths start from.  Source:
`write_output`, its directory. -/
def prepareDirectory (tree : FileTree) (path : String) : FileTree × Except FileError Unit :=
  if Path.parent path = "" then (tree, .ok ()) else tree.makeDirectories (Path.parent path)

/-- Writes a text to a path, making the directories on the way.  Directories that were made stay
even if the file cannot be written.  Source: `write_output`, to a file. -/
def writeOutput (tree : FileTree) (path text : String) : Outcome :=
  match prepareDirectory tree path with
  | (tree, .error e) => { tree, error? := some (.createDirectory (Path.parent path) e) }
  | (tree, .ok ()) =>
    match tree.write path (Text.Utf8.encode text.toList) with
    | .error e => { tree, error? := some (.write path e) }
    | .ok tree => { tree }

/-- Puts the text of a run in its place: prints it, or writes it to a path.  Source: `write_output`.
-/
def deliver (tree : FileTree) (path? : Option String) (text : String) : Outcome :=
  match path? with
  | none => { tree, stdout := text }
  | some path => writeOutput tree path text

/-- Runs an invocation.  Source: `generate_to`, and `run` of `CommandLineInterface`. -/
def run (i : Invocation) (stdin : List UInt8) (tree : FileTree) : Outcome :=
  match readInput i stdin tree with
  | .error e => { tree, error? := some e }
  | .ok bytes =>
    match i.output bytes with
    | .error e => { tree, error? := some e }
    | .ok text => deliver tree i.path? text

end Exemplar.Command
