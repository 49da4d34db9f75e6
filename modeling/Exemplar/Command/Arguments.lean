import Exemplar.Generate

/-!
# Arguments

The command line: a verb and its parameters.  Parameters are read from left to right.  A parameter
that takes a value and has none attached waits for the next argument, and is bound only when the
next known parameter or the end of the line is met, so an argument that is no parameter at all is
reported before anything wrong with the waiting one.  Source: the types of the module `cli`.
-/

namespace Exemplar.Command

/-- Why a command line is not run. -/
inductive UsageError
  | displayHelp
  | displayVersion
  | nothingGiven
  | invalidSubcommand
  | unknownArgument
  | argumentConflict
  | invalidValue
  | tooManyValues
  deriving DecidableEq, Repr

/-- What the program is asked to do.  Source: `Command`. -/
inductive Verb
  | generate (target : Target)
  | schema
  deriving DecidableEq, Repr

/-- The verb that a word names. -/
def verb? (word : String) : Option Verb :=
  if word = "go" then some (.generate .go)
  else if word = "java" then some (.generate .java)
  else if word = "typescript" then some (.generate .typescript)
  else if word = "schema" then some .schema
  else none

/-- The parameters of the verbs.  Source: the fields of `InputSettings`, `OutputSettings`, `GoOut`
and `SchemaOut`. -/
inductive Parameter
  | input
  | pointer
  | rootType
  | noConvert
  | out
  | project
  | noExamples
  | noFormat
  | package
  | nesting
  | help
  deriving DecidableEq, Repr

namespace Parameter

/-- The word behind two dashes. -/
def long : Parameter → String
  | input => "input"
  | pointer => "json-pointer"
  | rootType => "root-type"
  | noConvert => "no-convert"
  | out => "out"
  | project => "project"
  | noExamples => "no-examples"
  | noFormat => "no-format"
  | package => "package"
  | nesting => "nesting"
  | help => "help"

/-- The letter behind one dash. -/
def short? : Parameter → Option Char
  | input => some 'i'
  | out => some 'o'
  | help => some 'h'
  | _ => none

/-- Whether a parameter takes a value. -/
def takesValue : Parameter → Bool
  | noConvert | noExamples | noFormat | help => false
  | _ => true

/-- Whether a parameter takes a given value: a path is not empty, and nesting has two ways.  Source:
the types of the fields; for nesting, `NestingArg`. -/
def accepts (p : Parameter) (value : String) : Bool :=
  match p with
  | out | project => value != ""
  | nesting => value == Nesting.inline.name || value == Nesting.named.name
  | _ => true

end Parameter

/-- The parameters that a verb has.  Source: the fields of `GoOut`, `ClassOut` and `SchemaOut`. -/
def Verb.parameters : Verb → List Parameter
  | .generate .go =>
    [.input, .pointer, .rootType, .noConvert, .out, .project, .noExamples, .noFormat, .package,
     .help]
  | .generate _ => [.input, .pointer, .rootType, .noConvert, .out, .project, .help]
  | .schema => [.input, .pointer, .rootType, .noConvert, .out, .nesting, .help]

/-! ## Single arguments -/

/-- An argument by its form: a long parameter and the value attached behind an equals sign, a
letter behind one dash and what is attached to it, or a word. -/
inductive Argument
  | long (name : String) (value? : Option String)
  | short (letter : Char) (attached : List Char)
  | word (w : String)
  deriving DecidableEq, Repr

/-- The argument behind which there are no parameters any more. -/
def endOfParameters : String := "--"

/-- The form of an argument.  A single dash is a word. -/
def Argument.ofString (s : String) : Argument :=
  match s.toList with
  | '-' :: '-' :: cs =>
    .long (String.ofList (cs.takeWhile (· != '=')))
      (match cs.dropWhile (· != '=') with
       | [] => none
       | _ :: value => some (String.ofList value))
  | '-' :: letter :: attached => .short letter attached
  | _ => .word s

/-- The value attached to a letter; an equals sign before it is dropped. -/
def attachedValue? : List Char → Option String
  | [] => none
  | '=' :: cs => some (String.ofList cs)
  | cs => some (String.ofList cs)

/-! ## Parameters in a row -/

/-- The parameters met so far, with their values. -/
abbrev Bindings := List (Parameter × String)

/-- Binds a parameter, which must not have been bound before. -/
def bind (p : Parameter) (value : String) (bound : Bindings) : Except UsageError Bindings :=
  if bound.any (·.1 == p) then .error .argumentConflict
  else if p.accepts value then .ok (bound ++ [(p, value)])
  else .error .invalidValue

/-- The parameter that waits to be bound, and its value once that has been met. -/
abbrev Waiting := Option (Parameter × Option String)

/-- Binds the waiting parameter; one without a value is an error. -/
def settle (waiting : Waiting) (bound : Bindings) : Except UsageError Bindings :=
  match waiting with
  | none => .ok bound
  | some (_, none) => .error .invalidValue
  | some (p, some value) => bind p value bound

/-- Takes one parameter with the value attached to it: binds the waiting one, then this one, unless
it has to wait itself. -/
def take (waiting : Waiting) (bound : Bindings) (p : Parameter) (value? : Option String) :
    Except UsageError (Waiting × Bindings) := do
  let bound ← settle waiting bound
  if p = .help then .error .displayHelp
  else if p.takesValue then
    match value? with
    | some value => (bind p value bound).map (none, ·)
    | none => .ok (some (p, none), bound)
  else (bind p "" bound).map (none, ·)

/-- Takes one argument. -/
def takeArgument (known : List Parameter) (waiting : Waiting) (bound : Bindings) :
    Argument → Except UsageError (Waiting × Bindings)
  | .long name value? =>
    match known.find? (·.long == name) with
    | none => .error .unknownArgument
    | some p =>
      if value?.isSome ∧ p.takesValue = false then .error .tooManyValues
      else take waiting bound p value?
  | .short letter attached =>
    match known.find? (·.short? == some letter) with
    | none => .error .unknownArgument
    | some p => take waiting bound p (attachedValue? attached)
  | .word w =>
    match waiting with
    | some (p, none) => .ok (some (p, some w), bound)
    | _ => .error .unknownArgument

/-- Reads the parameters of a verb.  Nothing may follow the end of the parameters. -/
def bindingsFrom (known : List Parameter) (waiting : Waiting) (bound : Bindings) :
    List String → Except UsageError Bindings
  | [] => settle waiting bound
  | s :: rest =>
    if s = endOfParameters then
      if rest = [] then settle waiting bound else .error .unknownArgument
    else do
      let (waiting, bound) ← takeArgument known waiting bound (.ofString s)
      bindingsFrom known waiting bound rest

/-! ## Invocations -/

/-- The package of generated structs when none is given. -/
def defaultPackage : String := "configd"

/-- The input that stands for the standard input. -/
def stdinName : String := "-"

/-- Where the output goes. -/
inductive Destination
  | stdout
  | file (path : String)
  | project (directory : String)
  deriving DecidableEq, Repr

/-- A command line that can be run.  Source: `CommandLineInterface`. -/
structure Invocation where
  verb : Verb
  input : String := stdinName
  options : GenerateOptions := {}
  nesting : Nesting := .inline
  destination : Destination := .stdout

/-- The invocation of a verb with its parameters bound; a file and a project exclude each other.
Source: `options` of `InputSettings` and `run` of `CommandLineInterface`. -/
def Invocation.ofBindings (verb : Verb) (bound : Bindings) : Except UsageError Invocation :=
  let given (p : Parameter) : Bool := (bound.lookup p).isSome
  let value (p : Parameter) (default : String) : String := (bound.lookup p).getD default
  let options : GenerateOptions :=
    { rootName? := some (value .rootType Ident.defaultRoot)
      pointer? := bound.lookup .pointer
      refineStrings := !given .noConvert
      withExamples := !given .noExamples
      format := !given .noFormat
      package? := if verb = .generate .go then some (value .package defaultPackage) else none }
  let nesting : Nesting := if value .nesting "" = Nesting.named.name then .named else .inline
  let invocation (destination : Destination) : Invocation :=
    { verb, input := value .input stdinName, options, nesting, destination }
  match bound.lookup .out, bound.lookup .project with
  | some _, some _ => .error .argumentConflict
  | some path, none => .ok (invocation (.file path))
  | none, some directory => .ok (invocation (.project directory))
  | none, none => .ok (invocation .stdout)

/-- The answer to a request for help: every further word must be a command, and there are no
commands inside commands. -/
def help : List String → UsageError
  | [] => .displayHelp
  | [w] => if w = "help" ∨ (verb? w).isSome then .displayHelp else .invalidSubcommand
  | _ => .invalidSubcommand

/-- The answer to a word that only a verb could be. -/
def strayWord (w : String) : UsageError :=
  if w = "help" ∨ (verb? w).isSome then .unknownArgument else .invalidSubcommand

/-- Reads a command line.  Source: `load` of `CommandLineInterface`. -/
def parse : List String → Except UsageError Invocation
  | [] => .error .nothingGiven
  | s :: rest =>
    if s = endOfParameters then .error (rest.head?.elim .nothingGiven strayWord)
    else
      match Argument.ofString s with
      | .long name value? =>
        .error
          (if name ≠ "help" ∧ name ≠ "version" then .unknownArgument
           else if value?.isSome then .tooManyValues
           else if name = "help" then .displayHelp
           else .displayVersion)
      | .short letter _ =>
        .error
          (if letter = 'h' then .displayHelp
           else if letter = 'V' then .displayVersion
           else .unknownArgument)
      | .word w =>
        if w = "help" then .error (help rest)
        else
          match verb? w with
          | none => .error .invalidSubcommand
          | some verb => do
            let bound ← bindingsFrom verb.parameters none [] rest
            Invocation.ofBindings verb bound

end Exemplar.Command
