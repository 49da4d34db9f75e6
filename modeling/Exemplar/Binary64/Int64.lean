import Exemplar.Binary64.Basic
import Exemplar.Text.Digits

/-!
# Binary64 numbers and integers of 64 bits

Casts between the two, and the order of binary64 numbers.  An integer is rounded to the nearest
number; a number is cut off at its point and clamped to the range of signed integers.
-/

namespace Exemplar.Binary64

/-- The number nearest to an integer of 64 bits, signed or unsigned. -/
def ofInt (n : Int) : Binary64 :=
  (ofRatio? (decide (n < 0)) n.natAbs 1).getD (.zero (decide (n < 0)))

/-- The numerator of the number as a fraction, with its sign. -/
def signedNumerator (x : Binary64) : Int :=
  if x.negative then -(x.numerator : Int) else x.numerator

/-- Whether the fraction of one number is at most that of another. -/
instance : LE Binary64 where
  le x y := x.signedNumerator * y.denominator ≤ y.signedNumerator * x.denominator

/-- Whether the fraction of one number is less than that of another. -/
instance : LT Binary64 where
  lt x y := x.signedNumerator * y.denominator < y.signedNumerator * x.denominator

instance (x y : Binary64) : Decidable (x ≤ y) :=
  inferInstanceAs (Decidable (x.signedNumerator * y.denominator ≤ _))

instance (x y : Binary64) : Decidable (x < y) :=
  inferInstanceAs (Decidable (x.signedNumerator * y.denominator < _))

/-- Whether the number has nothing behind its point. -/
def isWhole (x : Binary64) : Bool :=
  x.numerator % x.denominator == 0

/-- Whether the number is whole and within the signed integers of 64 bits.  The number nearest to
the greatest of them lies above it, so that bound is excluded.  Source: `is_whole_i64`. -/
def isWholeInt64 (x : Binary64) : Bool :=
  x.isWhole && decide (ofInt Text.int64Min ≤ x) && decide (x < ofInt Text.int64Max)

/-- The number without what is behind its point. -/
def truncate (x : Binary64) : Int :=
  x.signedNumerator.tdiv x.denominator

/-- The number cast to a signed integer of 64 bits. -/
def toInt64 (x : Binary64) : Int :=
  max Text.int64Min (min Text.int64Max x.truncate)

end Exemplar.Binary64
