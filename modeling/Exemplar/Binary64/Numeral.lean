import Exemplar.Binary64.Basic
import Exemplar.Text.Digits

/-!
# Reading floating-point numerals

The numerals of floating-point numbers: an optional sign, then a spelling of infinity or of the
value that is no number, or decimal digits with an optional point and an optional exponent.  The
number read is the nearest one to the decimal.
-/

namespace Exemplar

/-- A binary64 datum: a finite number, an infinity or the value that is no number. -/
inductive Extended
  | finite (x : Binary64)
  | infinite (negative : Bool)
  | nan
  deriving DecidableEq, Repr

namespace Extended

/-- The number nearest to `digits * 10 ^ exponent`, infinite beyond the finite ones.  A decimal
whose first digit stands far outside the range of the format is not computed. -/
def ofDecimal (negative : Bool) (digits : List Char) (exponent : Int) : Extended :=
  let significant := digits.dropWhile (· == '0')
  let leading : Int := significant.length + exponent
  if significant = [] ∨ leading < -400 then .finite (.zero negative)
  else if 400 < leading then .infinite negative
  else
    match Binary64.ofRatio? negative (Text.digitsValue significant * Nat.pow 10 exponent.toNat)
        (Nat.pow 10 (-exponent).toNat) with
    | some x => .finite x
    | none => .infinite negative

/-- The exponent part of a numeral, zero when there is none. -/
def exponent? : List Char → Option Int
  | [] => some 0
  | c :: cs =>
    if c = 'e' ∨ c = 'E' then
      let (negative, digits) := Text.splitSign cs
      if digits ≠ [] ∧ digits.all Text.isDigit then
        some (if negative then -(Text.digitsValue digits : Int) else Text.digitsValue digits)
      else none
    else none

/-- The number that an unsigned decimal numeral spells, a digit being due on at least one side of
the point. -/
def unsigned? (negative : Bool) (cs : List Char) : Option Extended :=
  let whole := cs.takeWhile Text.isDigit
  let rest := cs.dropWhile Text.isDigit
  let (fraction, rest) :=
    match rest with
    | '.' :: after => (after.takeWhile Text.isDigit, after.dropWhile Text.isDigit)
    | _ => ([], rest)
  if whole = [] ∧ fraction = [] then none
  else
    (exponent? rest).map fun e => ofDecimal negative (whole ++ fraction) (e - fraction.length)

/-- An ASCII capital letter as a small one, any other character as it is. -/
def foldCase (c : Char) : Char :=
  if 0x41 ≤ c.toNat ∧ c.toNat ≤ 0x5A then Char.ofNat (c.toNat + 0x20) else c

/-- The datum that a numeral spells. -/
def ofText? (cs : List Char) : Option Extended :=
  let (negative, body) := Text.splitSign cs
  let word := body.map foldCase
  if word = ['i', 'n', 'f'] ∨ word = ['i', 'n', 'f', 'i', 'n', 'i', 't', 'y'] then
    some (.infinite negative)
  else if word = ['n', 'a', 'n'] then some .nan
  else unsigned? negative body

end Extended

end Exemplar
