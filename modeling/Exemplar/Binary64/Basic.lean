/-!
# Binary64 numbers

The finite numbers of the 64-bit binary floating-point format, as exact values: a sign, a
mantissa below `2 ^ 53` and a power of two.  Every operation computes an exact ratio and rounds
it once, to the nearest number of the format, a tie going to the even mantissa.
-/

namespace Exemplar

/-- A finite binary64 number, `± mantissa * 2 ^ exponent`.  The mantissa fills its 53 bits unless
the exponent is the least one, so each number has one form and zero has two signs. -/
structure Binary64 where
  negative : Bool
  mantissa : Nat
  exponent : Int
  mantissa_lt : mantissa < Nat.pow 2 53 := by decide
  exponent_ge : -1074 ≤ exponent := by decide
  exponent_le : exponent ≤ 971 := by decide
  normal : Nat.pow 2 52 ≤ mantissa ∨ exponent = -1074 := by decide
  deriving DecidableEq, Repr

namespace Binary64

/-- The zero of each sign. -/
def zero (negative : Bool) : Binary64 where
  negative
  mantissa := 0
  exponent := -1074

instance : Inhabited Binary64 := ⟨zero false⟩

/-- The number with the given parts, when they are those of a finite number. -/
def ofParts? (negative : Bool) (mantissa : Nat) (exponent : Int) : Option Binary64 :=
  if h : mantissa < Nat.pow 2 53 ∧ -1074 ≤ exponent ∧ exponent ≤ 971 ∧
      (Nat.pow 2 52 ≤ mantissa ∨ exponent = -1074) then
    some ⟨negative, mantissa, exponent, h.1, h.2.1, h.2.2.1, h.2.2.2⟩
  else none

/-- Whether the number is a zero. -/
def isZero (x : Binary64) : Bool :=
  x.mantissa == 0

/-- The number of the other sign. -/
def neg (x : Binary64) : Binary64 :=
  { x with negative := !x.negative }

/-- The numerator of the magnitude as a fraction. -/
def numerator (x : Binary64) : Nat :=
  x.mantissa * Nat.pow 2 x.exponent.toNat

/-- The denominator of the magnitude as a fraction. -/
def denominator (x : Binary64) : Nat :=
  Nat.pow 2 (-x.exponent).toNat

/-- The quotient of two naturals, rounded to the nearest natural, a tie to the even one. -/
def roundDiv (num den : Nat) : Nat :=
  let q := num / den
  let r := num % den
  if 2 * r < den then q
  else if den < 2 * r then q + 1
  else q + q % 2

/-- The power of two for which a positive ratio has a quotient of 53 bits, or the least power of
the format when the ratio is too small for that. -/
def unitOf (num den : Nat) : Int :=
  let e := (num.log2 : Int) - den.log2 - 52
  let full := Nat.pow 2 52 * (den * Nat.pow 2 e.toNat) ≤ num * Nat.pow 2 (-e).toNat
  max (-1074) (if full then e else e - 1)

/-- The number nearest to `num / den`, a tie going to the even mantissa; none when it would
exceed every finite number. -/
def ofRatio? (negative : Bool) (num den : Nat) : Option Binary64 :=
  if num = 0 then some (zero negative)
  else
    let e := unitOf num den
    let m := roundDiv (num * Nat.pow 2 (-e).toNat) (den * Nat.pow 2 e.toNat)
    if m < Nat.pow 2 53 then ofParts? negative m e
    else ofParts? negative (m / 2) (e + 1)

/-- The number nearest to a natural number below `2 ^ 64`. -/
def ofNat? (n : Nat) : Option Binary64 :=
  ofRatio? false n 1

/-- The rounded product of two numbers; none when it would exceed every finite number. -/
def mul? (x y : Binary64) : Option Binary64 :=
  ofRatio? (x.negative != y.negative) (x.numerator * y.numerator) (x.denominator * y.denominator)

/-- The rounded quotient of a number by a nonzero number. -/
def div? (x y : Binary64) : Option Binary64 :=
  ofRatio? (x.negative != y.negative) (x.numerator * y.denominator) (x.denominator * y.numerator)

end Binary64

end Exemplar
