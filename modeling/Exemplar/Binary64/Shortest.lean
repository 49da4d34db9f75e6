import Exemplar.Binary64.Basic
import Exemplar.Text.Digits

/-!
# The shortest decimal of a binary64 number

Among the decimals that round to a given number, the ones with the fewest digits, and of those
the nearest one.  The search runs over grids of one to seventeen digits, in exact arithmetic: if
any point of a grid rounds to the number, one of its two neighbours on that grid does.  A style
says how the digits are laid out and which way an exact tie goes.
-/

namespace Exemplar

/-- The decimal number `coefficient * 10 ^ exponent`. -/
structure Decimal where
  coefficient : Nat
  exponent : Int
  deriving DecidableEq, Repr

/-- Which of two equally near neighbours is taken. -/
inductive Tie
  | toEven
  | up
  deriving DecidableEq, Repr

namespace Binary64

/-- The magnitude in quarters of the unit in the last place. -/
def quarters (x : Binary64) : Nat :=
  4 * x.mantissa

/-- The lower end, in quarters, of the magnitudes that round to the number.  Below a power of two
the neighbours stand twice as close. -/
def lowQuarters (x : Binary64) : Nat :=
  if x.mantissa = Nat.pow 2 52 ∧ x.exponent ≠ -1074 then x.quarters - 1 else x.quarters - 2

/-- The upper end, in quarters, of the magnitudes that round to the number. -/
def highQuarters (x : Binary64) : Nat :=
  x.quarters + 2

/-- What one step of the grid of multiples of `10 ^ k` weighs, on the scale on which a quarter
weighs `x.quarterWeight k`. -/
def stepWeight (x : Binary64) (k : Int) : Nat :=
  Nat.pow 10 k.toNat * Nat.pow 2 (2 - x.exponent).toNat

/-- What a quarter of the unit in the last place weighs on the scale of `stepWeight`. -/
def quarterWeight (x : Binary64) (k : Int) : Nat :=
  Nat.pow 10 (-k).toNat * Nat.pow 2 (x.exponent - 2).toNat

/-- Whether `c * 10 ^ k` rounds to the magnitude of the number; the ends of the interval do so
exactly if the mantissa is even. -/
def readsBack (x : Binary64) (k : Int) (c : Nat) : Bool :=
  let p := c * x.stepWeight k
  let lo := x.lowQuarters * x.quarterWeight k
  let hi := x.highQuarters * x.quarterWeight k
  if x.mantissa % 2 = 0 then lo ≤ p && p ≤ hi else lo < p && p < hi

/-- The multiple of `10 ^ k` that rounds to the number and is nearest to it, if any does. -/
def onGrid? (x : Binary64) (tie : Tie) (k : Int) : Option Nat :=
  let v := x.quarters * x.quarterWeight k
  let s := x.stepWeight k
  let c := v / s
  match x.readsBack k c, x.readsBack k (c + 1) with
  | false, false => none
  | true, false => some c
  | false, true => some (c + 1)
  | true, true =>
    if 2 * v < (2 * c + 1) * s then some c
    else if (2 * c + 1) * s < 2 * v then some (c + 1)
    else
      match tie with
      | .toEven => some (if c % 2 = 0 then c else c + 1)
      | .up => some (c + 1)

/-- The position of the first digit: the magnitude of a nonzero number lies between
`10 ^ (leading - 1)` and `10 ^ leading`. -/
def leading (x : Binary64) : Int :=
  if x.denominator ≤ x.numerator then (Text.decimal (x.numerator / x.denominator)).length
  else 1 - (Text.decimal (x.denominator / x.numerator)).length

/-- The shortest decimal that rounds to the magnitude of a nonzero number, and of the shortest
ones the nearest. -/
def shortest (x : Binary64) (tie : Tie) : Decimal :=
  let found := (List.range' 1 17).findSome? fun (n : Nat) =>
    let k := x.leading - (n : Int)
    (x.onGrid? tie k).map fun c =>
      if c = Nat.pow 10 n then { coefficient := 1, exponent := k + n }
      else { coefficient := c, exponent := k : Decimal }
  found.getD { coefficient := 0, exponent := 0 }

end Binary64

/-- How the digits of a number are laid out. -/
structure NumberStyle where
  /-- The least power of ten whose multiples below ten times it are written positionally. -/
  leastPositional : Int
  /-- The first power of ten that is written with an exponent. -/
  firstScientific : Int
  /-- Whether a positive exponent has a plus sign. -/
  plus : Bool
  /-- Where an exact tie between two shortest decimals goes. -/
  tie : Tie

namespace NumberStyle

/-- The positional form, with at least one digit on either side of the point. -/
def positional (d : Decimal) : List Char :=
  let digits := Text.decimal d.coefficient
  let point : Int := digits.length + d.exponent
  if 0 ≤ d.exponent then digits ++ List.replicate d.exponent.toNat '0' ++ ['.', '0']
  else if 0 < point then digits.take point.toNat ++ '.' :: digits.drop point.toNat
  else '0' :: '.' :: (List.replicate (-point).toNat '0' ++ digits)

/-- The form with one digit before the point and a power of ten behind it. -/
def scientific (style : NumberStyle) (d : Decimal) : List Char :=
  let digits := Text.decimal d.coefficient
  let power : Int := digits.length + d.exponent - 1
  let mantissa :=
    match digits with
    | first :: second :: more => first :: '.' :: second :: more
    | short => short
  let sign := if style.plus ∧ 0 ≤ power then ['+'] else []
  mantissa ++ 'e' :: (sign ++ Text.intDecimal power)

/-- The text of a number. -/
def render (style : NumberStyle) (x : Binary64) : List Char :=
  let magnitude :=
    if x.isZero then ['0', '.', '0']
    else
      let d := x.shortest style.tie
      let power : Int := (Text.decimal d.coefficient).length + d.exponent - 1
      if style.leastPositional ≤ power ∧ power < style.firstScientific then positional d
      else style.scientific d
  if x.negative then '-' :: magnitude else magnitude

end NumberStyle

end Exemplar
