import Exemplar.Binary64.Int64
import Exemplar.Binary64.Shortest

/-!
# JSON values

Documents as data.  The members of an object keep the order in which they were written, and an
integer that fits in 64 bits, signed or unsigned, is kept apart from the doubles.
-/

namespace Exemplar.Json

/-- A JSON number: an integer of 64 bits, signed or unsigned, or a double. -/
inductive Number
  | integer (n : Int) (range : -9223372036854775808 ≤ n ∧ n < 18446744073709551616)
  | double (x : Binary64)
  deriving DecidableEq, Repr

/-- A JSON value. -/
inductive Value
  | null
  | bool (b : Bool)
  | number (n : Number)
  | string (s : String)
  | array (items : List Value)
  | object (members : List (String × Value))
  deriving Repr, Inhabited

/-- What a diagnostic can say of a value. -/
inductive Kind
  | null
  | boolean
  | number
  | string
  | emptyArray
  | array
  | object
  deriving DecidableEq, Repr

/-- The name of a kind in diagnostics.  Source: `kind_name`. -/
def Kind.name : Kind → String
  | .null => "null"
  | .boolean => "boolean"
  | .number => "number"
  | .string => "string"
  | .emptyArray => "empty array"
  | .array => "array"
  | .object => "object"

/-- The style of JSON numbers: positional from `1e-5` up to `1e16`, powers of ten signed both
ways, and a tie between two shortest decimals going to the even digit. -/
def numberStyle : NumberStyle where
  leastPositional := -5
  firstScientific := 16
  plus := true
  tie := .toEven

namespace Number

/-- A signed integer of 64 bits as a number. -/
def ofInt64? (n : Int) : Option Number :=
  if h : Text.IsInt64 n then
    some (.integer n (by simp only [Text.IsInt64, Text.int64Min, Text.int64Max] at h; omega))
  else none

/-- The text of a number. -/
def render : Number → List Char
  | .integer n _ => Text.intDecimal n
  | .double x => numberStyle.render x

/-- The integer that a number was written as, if it was and fits in 64 bits, signed. -/
def asInt64? : Number → Option Int
  | .integer n _ => if Text.IsInt64 n then some n else none
  | .double _ => none

/-- The number as a double; an integer is rounded. -/
def toBinary64 : Number → Binary64
  | .integer n _ => .ofInt n
  | .double x => x

/-- The integer that a number stands for: the one that it was written as, or the one that it is as a
double.  Source: `literal` of `ClassEmitter`, for a number as an integer. -/
def toInt64? (n : Number) : Option Int :=
  match n.asInt64? with
  | some i => some i
  | none => if n.toBinary64.isWholeInt64 then some n.toBinary64.toInt64 else none

end Number

namespace Value

/-- The kind of a value.  Source: `kind_name`. -/
def kind : Value → Kind
  | .null => .null
  | .bool _ => .boolean
  | .number _ => .number
  | .string _ => .string
  | .array [] => .emptyArray
  | .array (_ :: _) => .array
  | .object _ => .object

/-- Whether the value is null. -/
def isNull : Value → Bool
  | .null => true
  | _ => false

/-- The items of an array; any other value has none. -/
def items : Value → List Value
  | .array items => items
  | _ => []

end Value

/-- Adds a member to an object: a new key goes last, a key that is there keeps its place and
takes the new value. -/
def setMember (key : String) (value : Value) : List (String × Value) → List (String × Value)
  | [] => [(key, value)]
  | (k, v) :: members =>
    if k = key then (key, value) :: members else (k, v) :: setMember key value members

/-- The object that a list of written members stands for: of the values given to one key the last
one holds, at the place of the first. -/
def ofWritten (written : List (String × Value)) : List (String × Value) :=
  written.foldl (fun members m => setMember m.1 m.2 members) []

mutual

/-- Whether the keys of every object in a value are distinct. -/
def Value.WellFormed : Value → Prop
  | .array items => itemsWellFormed items
  | .object members => (members.map Prod.fst).Nodup ∧ membersWellFormed members
  | _ => True
termination_by structural v => v

/-- Whether all values of a list are well formed. -/
def itemsWellFormed : List Value → Prop
  | [] => True
  | v :: vs => v.WellFormed ∧ itemsWellFormed vs
termination_by structural vs => vs

/-- Whether the values of all members are well formed. -/
def membersWellFormed : List (String × Value) → Prop
  | [] => True
  | (_, v) :: ms => v.WellFormed ∧ membersWellFormed ms
termination_by structural ms => ms

end

end Exemplar.Json
