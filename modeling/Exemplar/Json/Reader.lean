import Exemplar.Json.Numeral
import Exemplar.Text.Utf8

/-!
# Reading JSON

A document as bytes, read into a value.  The reader takes the first value of the text and does not
look at what follows it.  Brackets nest 127 deep; the readers of lists and objects take the reader
of what is inside them as an argument.  Source: `from_slice_with_path` in the module `document`.
-/

namespace Exemplar.Json

/-- The blanks between the tokens of a text. -/
def isSpace (b : UInt8) : Bool :=
  b == 0x20 || b == 0x0A || b == 0x0D || b == 0x09

/-- Drops the blanks that a text begins with. -/
def skipSpace (bytes : List UInt8) : List UInt8 :=
  bytes.dropWhile isSpace

/-! ## Strings -/

/-- Where the reader of a string stands: between characters, behind a backslash, among the four
digits of a hexadecimal escape, or before the second escape of a surrogate pair. -/
inductive StringMode
  | plain
  | escape
  | hex (lead : Option Nat) (digits : List UInt8)
  | pairBackslash (lead : Nat)
  | pairLetter (lead : Nat)

/-- The number that hexadecimal digits spell. -/
def hexNumber? (digits : List UInt8) : Option Nat :=
  digits.foldlM (fun n b => (Text.hexValue? (Char.ofNat b.toNat)).map (16 * n + ·)) 0

/-- The bytes that a simple escape stands for. -/
def simpleEscape? (b : UInt8) : Option UInt8 :=
  if b = '"'.toUInt8 ∨ b = '\\'.toUInt8 ∨ b = '/'.toUInt8 then some b
  else if b = 'b'.toUInt8 then some 0x08
  else if b = 'f'.toUInt8 then some 0x0C
  else if b = 'n'.toUInt8 then some 0x0A
  else if b = 'r'.toUInt8 then some 0x0D
  else if b = 't'.toUInt8 then some 0x09
  else none

/-- What a complete hexadecimal escape gives: bytes of the string, and where the reader stands
after them. -/
def hexEscape (lead : Option Nat) (n : Nat) : Except Cause (List UInt8 × StringMode) :=
  match lead with
  | none =>
    if 0xDC00 ≤ n ∧ n ≤ 0xDFFF then .error .loneSurrogate
    else if 0xD800 ≤ n ∧ n ≤ 0xDBFF then .ok ([], .pairBackslash n)
    else .ok (Text.Utf8.encode [Char.ofNat n], .plain)
  | some high =>
    if 0xDC00 ≤ n ∧ n ≤ 0xDFFF then
      .ok (Text.Utf8.encode [Char.ofNat ((high - 0xD800) * 0x400 + (n - 0xDC00) + 0x10000)],
        .plain)
    else .error .loneSurrogate

/-- One byte inside a string, the closing quote apart: the bytes of the string that it completes,
and where the reader stands after it. -/
def stringStep (mode : StringMode) (b : UInt8) : Except Cause (List UInt8 × StringMode) :=
  match mode with
  | .plain =>
    if b = '\\'.toUInt8 then .ok ([], .escape)
    else if b < 0x20 then .error .controlCharacter
    else .ok ([b], .plain)
  | .escape =>
    if b = 'u'.toUInt8 then .ok ([], .hex none [])
    else
      match simpleEscape? b with
      | some x => .ok ([x], .plain)
      | none => .error .invalidEscape
  | .hex lead digits =>
    if digits.length < 3 then .ok ([], .hex lead (digits ++ [b]))
    else
      match hexNumber? (digits ++ [b]) with
      | some n => hexEscape lead n
      | none => .error .invalidEscape
  | .pairBackslash lead =>
    if b = '\\'.toUInt8 then .ok ([], .pairLetter lead) else .error .unexpectedEndOfEscape
  | .pairLetter lead =>
    if b = 'u'.toUInt8 then .ok ([], .hex (some lead) []) else .error .unexpectedEndOfEscape

/-- Whether the reader stands between characters, so that a quote closes the string. -/
def StringMode.isPlain : StringMode → Bool
  | .plain => true
  | _ => false

/-- The bytes of a string up to its closing quote, escapes undone. -/
def readContent (mode : StringMode) : List UInt8 → Except Fault (List UInt8 × List UInt8)
  | [] => .error (.at .eofString [])
  | b :: rest =>
    if b = '"'.toUInt8 ∧ mode.isPlain then .ok ([], rest)
    else
      match stringStep mode b with
      | .error cause => .error (.at cause rest)
      | .ok (out, next) => (readContent next rest).map fun (content, rest) => (out ++ content, rest)

/-- Reads a string on from behind its opening quote.  Content that is not UTF-8 is a fault at its
first bad byte, counted back from the closing quote as if nothing had been escaped. -/
def readString (bytes : List UInt8) : Except Fault (String × List UInt8) := do
  let (content, rest) ← readContent .plain bytes
  match Text.Utf8.decode content with
  | (cs, []) => .ok (String.ofList cs, rest)
  | (_, bad) =>
    .error { cause := .invalidCodePoint, unread := rest.length, retreat := bad.length }

/-! ## Values -/

/-- Reads on through the rest of a word. -/
def readWord (value : Value) : List Char → List UInt8 → Except Fault (Value × List UInt8)
  | [], bytes => .ok (value, bytes)
  | _ :: _, [] => .error (.at .eofValue [])
  | c :: cs, b :: rest =>
    if b = c.toUInt8 then readWord value cs rest else .error (.at .expectedIdent rest)

/-- Reads the items of a list, on from behind its opening bracket or an item.  The fuel bounds
the number of items. -/
def readItems (readItem : List UInt8 → Except Fault (Value × List UInt8)) :
    (fuel position : Nat) → List UInt8 → Except Fault (List Value × List UInt8)
  | 0, _, _ => .error (.at .eofList [])
  | fuel + 1, position, bytes =>
    let item (bytes : List UInt8) : Except Fault (List Value × List UInt8) := do
      let (v, rest) ← (readItem bytes).mapError (.within (.index position))
      let (vs, rest) ← readItems readItem fuel (position + 1) rest
      .ok (v :: vs, rest)
    match skipSpace bytes with
    | [] => .error (.at .eofList [])
    | b :: rest =>
      if b = ']'.toUInt8 then .ok ([], rest)
      else if position = 0 then item (b :: rest)
      else if b = ','.toUInt8 then
        match skipSpace rest with
        | [] => .error (.at .eofValue [])
        | c :: rest =>
          if c = ']'.toUInt8 then .error (.at .trailingComma rest) else item (c :: rest)
      else .error (.at .expectedListEnd rest)

/-- Reads the colon of a member and its value. -/
def readMemberValue (readItem : List UInt8 → Except Fault (Value × List UInt8)) (key : String)
    (bytes : List UInt8) : Except Fault (Value × List UInt8) :=
  match skipSpace bytes with
  | [] => .error (.at .eofObject [])
  | b :: rest =>
    if b = ':'.toUInt8 then (readItem rest).mapError (.within (.key key))
    else .error (.at .expectedColon rest)

/-- Reads the members of an object, on from behind its opening brace or a member.  The fuel
bounds the number of members. -/
def readMembers (readItem : List UInt8 → Except Fault (Value × List UInt8)) :
    (fuel : Nat) → (first : Bool) → List UInt8 →
      Except Fault (List (String × Value) × List UInt8)
  | 0, _, _ => .error (.at .eofObject [])
  | fuel + 1, first, bytes =>
    let lost (f : Fault) : Except Fault (List (String × Value) × List UInt8) :=
      .error (f.within .unknown)
    let member (b : UInt8) (rest : List UInt8) :
        Except Fault (List (String × Value) × List UInt8) :=
      if b = '"'.toUInt8 then do
        let (key, rest) ← (readString rest).mapError (.within .unknown)
        let (v, rest) ← readMemberValue readItem key rest
        let (ms, rest) ← readMembers readItem fuel false rest
        .ok ((key, v) :: ms, rest)
      else lost (.at .keyNotString rest)
    match skipSpace bytes with
    | [] => lost (.at .eofObject [])
    | b :: rest =>
      if b = '\x7d'.toUInt8 then .ok ([], rest)
      else if first then member b rest
      else if b = ','.toUInt8 then
        match skipSpace rest with
        | [] => lost (.at .eofValue [])
        | c :: rest =>
          if c = '\x7d'.toUInt8 then lost (.at .trailingComma rest) else member c rest
      else lost (.at .expectedObjectEnd rest)

/-- Reads one value, with brackets nested at most `depth` deep. -/
def readValue (depth : Nat) (bytes : List UInt8) : Except Fault (Value × List UInt8) :=
  match skipSpace bytes with
  | [] => .error (.at .eofValue [])
  | b :: rest =>
    if b = 'n'.toUInt8 then readWord .null ['u', 'l', 'l'] rest
    else if b = 't'.toUInt8 then readWord (.bool true) ['r', 'u', 'e'] rest
    else if b = 'f'.toUInt8 then readWord (.bool false) ['a', 'l', 's', 'e'] rest
    else if b = '"'.toUInt8 then (readString rest).map fun (s, rest) => (.string s, rest)
    else if b = '-'.toUInt8 then (readUnsigned true rest).map fun (n, rest) => (.number n, rest)
    else if isDigitByte b then
      (readUnsigned false (b :: rest)).map fun (n, rest) => (.number n, rest)
    else if b = '['.toUInt8 then
      match depth with
      | 0 => .error (.at .recursionLimit rest)
      | inner + 1 =>
        (readItems (readValue inner) (rest.length + 1) 0 rest).map fun (vs, rest) =>
          (.array vs, rest)
    else if b = '\x7b'.toUInt8 then
      match depth with
      | 0 => .error (.at .recursionLimit rest)
      | inner + 1 =>
        (readMembers (readValue inner) (rest.length + 1) true rest).map fun (ms, rest) =>
          (.object (ofWritten ms), rest)
    else .error (.at .expectedValue rest)
termination_by structural depth

/-- How deep brackets may nest. -/
def maxDepth : Nat := 127

/-- Reads the value that a document begins with.  Source: `from_slice_with_path`. -/
def read (document : List UInt8) : Except SyntaxError Value :=
  match readValue maxDepth document with
  | .ok (v, _) => .ok v
  | .error f => .error (.locate document f)

end Exemplar.Json
