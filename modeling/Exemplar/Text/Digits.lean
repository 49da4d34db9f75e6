/-!
# Digits

ASCII digits as numbers, and numbers as digits: the decimal numerals that the readers of this
library accept and its writers produce.
-/

namespace Exemplar.Text

/-- The ASCII decimal digits. -/
def isDigit (c : Char) : Bool :=
  0x30 ≤ c.toNat && c.toNat ≤ 0x39

/-- The value of one decimal digit. -/
def digitValue (c : Char) : Nat :=
  c.toNat - 0x30

/-- The number that a sequence of decimal digits spells. -/
def digitsValue (cs : List Char) : Nat :=
  cs.foldl (fun n c => 10 * n + digitValue c) 0

/-- The value of an ASCII hexadecimal digit of either case. -/
def hexValue? (c : Char) : Option Nat :=
  let n := c.toNat
  if 0x30 ≤ n ∧ n ≤ 0x39 then some (n - 0x30)
  else if 0x41 ≤ n ∧ n ≤ 0x46 then some (n - 0x41 + 10)
  else if 0x61 ≤ n ∧ n ≤ 0x66 then some (n - 0x61 + 10)
  else none

/-- The decimal digits of a natural number, without leading zeros. -/
def decimal (n : Nat) : List Char :=
  Nat.toDigits 10 n

/-- The four lower-case hexadecimal digits of a number below `16 ^ 4`. -/
def hex4 (n : Nat) : List Char :=
  [n / 4096 % 16, n / 256 % 16, n / 16 % 16, n % 16].map Nat.digitChar

/-- The decimal digits of an integer, behind a minus sign if it is negative. -/
def intDecimal (n : Int) : List Char :=
  if n < 0 then '-' :: decimal n.natAbs else decimal n.natAbs

/-- Splits an optional leading sign off a numeral: whether it was a minus, and the rest. -/
def splitSign : List Char → Bool × List Char
  | '-' :: cs => (true, cs)
  | '+' :: cs => (false, cs)
  | cs => (false, cs)

/-- The least integer of 64 bits. -/
def int64Min : Int := -9223372036854775808

/-- The greatest integer of 64 bits. -/
def int64Max : Int := 9223372036854775807

/-- Whether an integer fits in 64 bits, two's complement. -/
def IsInt64 (n : Int) : Prop :=
  int64Min ≤ n ∧ n ≤ int64Max

instance (n : Int) : Decidable (IsInt64 n) :=
  inferInstanceAs (Decidable (_ ∧ _))

/-- The integer of 64 bits that a text spells: an optional sign and decimal digits, nothing
else. -/
def int64? (cs : List Char) : Option Int :=
  let (negative, digits) := splitSign cs
  if digits ≠ [] ∧ digits.all isDigit then
    let n : Int := if negative then -(digitsValue digits : Int) else digitsValue digits
    if IsInt64 n then some n else none
  else none

end Exemplar.Text
