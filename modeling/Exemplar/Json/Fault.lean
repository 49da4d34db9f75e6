import Exemplar.Json.Value

/-!
# Faults of JSON texts

Why a text is no JSON value, and where: the path of the value that was being read, and the line
and column of the offending byte.
-/

namespace Exemplar.Json

/-- Why a text is no JSON value. -/
inductive Cause
  | eofValue
  | eofList
  | eofObject
  | eofString
  | expectedValue
  | expectedIdent
  | expectedListEnd
  | expectedObjectEnd
  | expectedColon
  | trailingComma
  | keyNotString
  | invalidNumber
  | numberOutOfRange
  | invalidEscape
  | loneSurrogate
  | unexpectedEndOfEscape
  | controlCharacter
  | invalidCodePoint
  | recursionLimit
  deriving DecidableEq, Repr

/-- The wording of a cause. -/
def Cause.message : Cause → String
  | .eofValue => "EOF while parsing a value"
  | .eofList => "EOF while parsing a list"
  | .eofObject => "EOF while parsing an object"
  | .eofString => "EOF while parsing a string"
  | .expectedValue => "expected value"
  | .expectedIdent => "expected ident"
  | .expectedListEnd => "expected `,` or `]`"
  | .expectedObjectEnd => "expected `,` or `\x7d`"
  | .expectedColon => "expected `:`"
  | .trailingComma => "trailing comma"
  | .keyNotString => "key must be a string"
  | .invalidNumber => "invalid number"
  | .numberOutOfRange => "number out of range"
  | .invalidEscape => "invalid escape"
  | .loneSurrogate => "lone leading surrogate in hex escape"
  | .unexpectedEndOfEscape => "unexpected end of hex escape"
  | .controlCharacter => "control character (\\u0000-\\u001F) found while parsing a string"
  | .invalidCodePoint => "invalid unicode code point"
  | .recursionLimit => "recursion limit exceeded"

/-- One step on the way from the document to a value in it; the key of a member is unknown until
it has been read. -/
inductive Segment
  | key (name : String)
  | index (i : Nat)
  | unknown
  deriving DecidableEq, Repr

/-- The text of a path: keys with a point before all but the first segment, positions in
brackets. -/
def Segment.path : List Segment → String
  | [] => "."
  | first :: rest => alone first ++ String.join (rest.map fun s => point s ++ alone s)
where
  /-- The text of one segment. -/
  alone : Segment → String
    | .key name => name
    | .index i => "[" ++ String.ofList (Text.decimal i) ++ "]"
    | .unknown => "?"
  /-- What stands before a segment that is not the first. -/
  point : Segment → String
    | .index _ => ""
    | _ => "."

/-- A fault met while reading: its path from the value being read on, how many bytes follow the
offending one, and how many columns before it the fault is reported. -/
structure Fault where
  cause : Cause
  unread : Nat
  retreat : Nat := 0
  path : List Segment := []
  deriving DecidableEq, Repr

namespace Fault

/-- A fault at the byte before the rest of the text. -/
def «at» (cause : Cause) (rest : List UInt8) : Fault where
  cause
  unread := rest.length

/-- A fault at the first byte of the rest, or the other cause if the text ends there. -/
def due (cause atEnd : Cause) : List UInt8 → Fault
  | [] => .at atEnd []
  | _ :: rest => .at cause rest

/-- The fault as the value around it sees it. -/
def within (s : Segment) (f : Fault) : Fault :=
  { f with path := s :: f.path }

end Fault

/-- The fault of a document: the cause, the path of the value that was being read, and the place
in the text. -/
structure SyntaxError where
  cause : Cause
  path : List Segment
  line : Nat
  column : Nat
  deriving DecidableEq, Repr

namespace SyntaxError

/-- Finds the place of a fault in the document: lines count from one, and the column is the
number of bytes on the line up to the offending one. -/
def locate (document : List UInt8) (f : Fault) : SyntaxError :=
  let consumed := document.take (document.length - f.unread)
  let newline : UInt8 := 0x0A
  { cause := f.cause
    path := f.path
    line := 1 + consumed.count newline
    column := (consumed.reverse.takeWhile (· != newline)).length - f.retreat }

/-- The cause and its place in words. -/
def message (e : SyntaxError) : String :=
  e.cause.message ++ " at line " ++ String.ofList (Text.decimal e.line) ++ " column " ++
    String.ofList (Text.decimal e.column)

end SyntaxError

end Exemplar.Json
