import Exemplar.Class.Dialect
import Exemplar.Json.Writer
import Exemplar.Refinement.Basic

/-!
# Literals of class languages

The literal for a value as a scalar of a kind, if the kind accepts the value.  The kinds of a
nullable type accept null; a quoted number or truth value is read from its string.  Source: the
module `class` in `codegen`.
-/

namespace Exemplar.Class

/-- The style of floats that stood in strings: positional from `1e-4` up to `1e16`, no plus sign,
and a tie between two shortest decimals going up.  Source: the debug form of a double in `literal`
of `ClassEmitter`. -/
def quotedFloatStyle : NumberStyle where
  leastPositional := -4
  firstScientific := 16
  plus := false
  tie := .up

/-- A number as a float literal, which always has a point or an exponent.  Source: `float_literal`.
-/
def floatLiteral (n : Json.Number) : String :=
  let text := n.render
  if text.any fun c => c == '.' || c == 'e' || c == 'E' then String.ofList text
  else String.ofList (text ++ ['.', '0'])

/-- A floating-point datum as a literal.  Source: `literal` of `ClassEmitter`, for quoted floats. -/
def extendedLiteral (d : Dialect) : Extended → String
  | .finite x => String.ofList (quotedFloatStyle.render x)
  | .infinite negative => d.infinityLiteral negative
  | .nan => d.nanLiteral

/-- A truth value as a literal.  Source: `literal` of `ClassEmitter`, for truth values. -/
def boolLiteral (b : Bool) : String :=
  if b then "true" else "false"

/-- The literal for a value as a scalar of a kind, if the kind accepts the value.  Source: `literal`
of `ClassEmitter`, its branches. -/
def literal? (d : Dialect) (quoted : Bool) : ScalarKind → Json.Value → Option String
  | .int64, .number n => n.toInt64?.map d.intLiteral
  | .int64, .string s => if quoted then (Refinement.int64? s).map d.intLiteral else none
  | .float64, .number n => some (floatLiteral n)
  | .float64, .string s =>
    if quoted then (Refinement.float64? s).map (extendedLiteral d) else none
  | .bool, .bool b => some (boolLiteral b)
  | .bool, .string s => if quoted then (Refinement.bool? s).map boolLiteral else none
  | .string, .null | .timestamp, .null | .ipAddress, .null | .any, .null => some "null"
  | .string, .string s | .timestamp, .string s | .ipAddress, .string s | .any, .string s =>
    some (String.ofList (Json.quote s))
  | .any, .number n => some (String.ofList n.render)
  | .any, .bool b => some (boolLiteral b)
  | _, _ => none

/-- The literal for a value as a scalar of a kind; a value that the kind does not accept is an error
at the given key.  Source: `literal` of `ClassEmitter`. -/
def literal (d : Dialect) (kind : ScalarKind) (v : Json.Value) (key : String) (quoted : Bool) :
    Except Error String :=
  match literal? d quoted kind v with
  | some text => .ok text
  | none => .error (.shapeMismatch key (.literal kind) (.value v.kind))

end Exemplar.Class
