import Exemplar.Command.Run

/-!
# The program

Reads the command line, and runs the invocation on the real standard input and file system.  Source:
the program `main`.
-/

namespace Exemplar.Program

open Exemplar.Command

/-- The bytes of a stream up to its end. -/
partial def readAll (stream : IO.FS.Stream) (sofar : ByteArray) : IO ByteArray := do
  let chunk ← stream.read 65536
  if chunk.isEmpty then return sofar else readAll stream (sofar ++ chunk)

/-- Runs an invocation. -/
def perform (i : Invocation) : IO Unit := do
  let bytes ←
    if i.readsStdin then readAll (← IO.getStdin) ByteArray.empty else IO.FS.readBinFile i.input
  let text ← IO.ofExcept ((i.output bytes.toList).mapError RunError.message)
  match i.path? with
  | none => IO.print text
  | some path =>
    let directory := Path.parent path
    if directory ≠ "" then IO.FS.createDirAll directory
    IO.FS.writeFile path text

/-- Runs an invocation; one that fails ends with its reason and the status 1.  Source: `main`. -/
def performAndReport (i : Invocation) : IO UInt32 := do
  try
    perform i
    return 0
  catch e =>
    IO.eprintln ("error: " ++ toString e)
    return 1

/-- What is printed about the command line itself. -/
def usage : String := "Usage: configd <go|java|typescript|schema|help> [parameters]"

end Exemplar.Program

open Exemplar

/-- Reads the command line; a line that cannot be run ends with the status 2. -/
def main (args : List String) : IO UInt32 := do
  match Command.parse args with
  | .ok i => Program.performAndReport i
  | .error .displayVersion =>
    IO.println "configd 0.1.0"
    return 0
  | .error .displayHelp =>
    IO.println Program.usage
    return 0
  | .error _ =>
    IO.eprintln Program.usage
    return 2
