import Exemplar.Binary64.Numeral
import Exemplar.Refinement.Address
import Exemplar.Refinement.Timestamp
import Exemplar.Shape.Basic

/-!
# Refinement of strings

The kind of a string that stands for something more definite: a point in time, an address, a number
or a truth value.  Numbers and truth values found in strings are marked as quoted.  Source: the
module `str` in `inference`.
-/

namespace Exemplar.Refinement

/-- What a string was found to hold.  Source: `Refined`. -/
structure Refined where
  kind : ScalarKind
  quoted : Bool
  deriving DecidableEq, Repr

/-- The truth value that a text spells.  Source: `parse_bool`. -/
def bool? (s : String) : Option Bool :=
  if s ∈ ["1", "t", "T", "TRUE", "true", "True"] then some true
  else if s ∈ ["0", "f", "F", "FALSE", "false", "False"] then some false
  else none

/-- The integer that a text spells. -/
def int64? (s : String) : Option Int :=
  Text.int64? s.toList

/-- The floating-point datum that a text spells. -/
def float64? (s : String) : Option Extended :=
  Extended.ofText? s.toList

/-- The kind of a string.  The first that fits is taken: timestamp, address, integer, float, truth
value.  Source: `refine`. -/
def refine (s : String) : Refined :=
  if isTimestamp s.toList then ⟨.timestamp, false⟩
  else if isAddress s.toList then ⟨.ipAddress, false⟩
  else if (int64? s).isSome then ⟨.int64, true⟩
  else if (float64? s).isSome then ⟨.float64, true⟩
  else if (bool? s).isSome then ⟨.bool, true⟩
  else ⟨.string, false⟩

end Exemplar.Refinement
