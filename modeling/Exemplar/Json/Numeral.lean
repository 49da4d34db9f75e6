import Exemplar.Json.Fault

/-!
# Reading JSON numbers

A number without point and exponent that fits in 64 bits is an integer; every other number is a
double.  The digits of a double gather in a significand of 64 bits; those that no longer fit
count as a power of ten before the point and as nothing behind it.  The significand is rounded to
a double first and then scaled by a rounded power of ten, so the double read is close to the
decimal, but need not be the nearest one.
-/

namespace Exemplar.Json

/-- The ASCII digits as bytes. -/
def isDigitByte (b : UInt8) : Bool :=
  0x30 ≤ b.toNat && b.toNat ≤ 0x39

/-- The greatest significand. -/
def significandMax : Nat := 18446744073709551615

/-- Takes digits into a significand as long as it stays in 64 bits: the significand and the count
of the digits left over. -/
def gather (significand : Nat) : List UInt8 → Nat × Nat
  | [] => (significand, 0)
  | b :: bs =>
    let next := 10 * significand + (b.toNat - 0x30)
    if next ≤ significandMax then gather next bs else (significand, bs.length + 1)

/-- The double nearest to a power of ten up to `10 ^ 308`. -/
def powerOfTen (k : Nat) : Binary64 :=
  (Binary64.ofRatio? false (Nat.pow 10 k) 1).getD (.zero false)

/-- The greatest power of ten that a double is scaled by at once. -/
def powerMax : Nat := 308

/-- Divides the double of a significand by a power of ten, in two steps if the power exceeds the
greatest one, rounding each time.  Two divisions by the greatest power leave nothing. -/
def scaleDown (x : Binary64) (k : Nat) : Option Binary64 :=
  if k ≤ powerMax then x.div? (powerOfTen k)
  else if k ≤ 2 * powerMax then
    (x.div? (powerOfTen powerMax)).bind (·.div? (powerOfTen (k - powerMax)))
  else some (.zero false)

/-- The double for a significand and a power of ten; none when it exceeds every finite one. -/
def scale? (significand : Nat) (exponent : Int) : Option Binary64 := do
  let x ← Binary64.ofNat? significand
  if exponent < 0 then scaleDown x exponent.natAbs
  else if exponent ≤ powerMax then x.mul? (powerOfTen exponent.toNat)
  else if x.isZero then some x
  else none

/-- Gives a double the sign of its numeral. -/
def signed (negative : Bool) (x : Binary64) : Number :=
  .double (if negative then x.neg else x)

/-- The number that a numeral without point and exponent stands for. -/
def ofDigits (negative : Bool) (n : Nat) : Option Number :=
  if negative then
    if h : 0 < n ∧ n ≤ 9223372036854775808 then some (.integer (-n) (by omega))
    else (Binary64.ofNat? n).map (signed true)
  else if h : n ≤ 18446744073709551615 then some (.integer n (by omega))
  else none

/-- The number for a significand and a power of ten. -/
def finish (negative : Bool) (significand : Nat) (exponent : Int) (rest : List UInt8) :
    Except Fault (Number × List UInt8) :=
  match scale? significand exponent with
  | some x => .ok (signed negative x, rest)
  | none => .error (.at .numberOutOfRange rest)

/-- The greatest written exponent. -/
def exponentMax : Nat := 2147483647

/-- The value of the digits of an exponent, or what follows the first digit that takes it beyond
the greatest one. -/
def exponentValue (value : Nat) : List UInt8 → Except (List UInt8) Nat
  | [] => .ok value
  | b :: bs =>
    let next := 10 * value + (b.toNat - 0x30)
    if next ≤ exponentMax then exponentValue next bs else .error bs

/-- Reads a number on from behind its `e`, the digits so far having given a significand and a
power of ten. -/
def readExponent (negative : Bool) (significand : Nat) (exponent : Int) (bytes : List UInt8) :
    Except Fault (Number × List UInt8) :=
  let (down, bytes) :=
    match bytes with
    | b :: rest =>
      if b = '+'.toUInt8 then (false, rest)
      else if b = '-'.toUInt8 then (true, rest)
      else (false, bytes)
    | [] => (false, [])
  let digits := bytes.takeWhile isDigitByte
  let rest := bytes.dropWhile isDigitByte
  if digits = [] then .error (.due .invalidNumber .eofValue rest)
  else
    match exponentValue 0 digits with
    | .ok e => finish negative significand (if down then exponent - e else exponent + e) rest
    | .error beyond =>
      if significand ≠ 0 ∧ down = false then .error (.at .numberOutOfRange (beyond ++ rest))
      else .ok (signed negative (.zero false), rest)

/-- Reads a number on from behind its point. -/
def readFraction (negative : Bool) (significand : Nat) (exponent : Nat) (bytes : List UInt8) :
    Except Fault (Number × List UInt8) :=
  let digits := bytes.takeWhile isDigitByte
  let rest := bytes.dropWhile isDigitByte
  if digits = [] then .error (.due .invalidNumber .eofValue rest)
  else
    let (significand, dropped) := gather significand digits
    let exponent : Int := exponent - (digits.length - dropped : Nat)
    match rest with
    | [] => finish negative significand exponent rest
    | b :: after =>
      if b = 'e'.toUInt8 ∨ b = 'E'.toUInt8 then readExponent negative significand exponent after
      else finish negative significand exponent rest

/-- Reads a number on from behind its sign. -/
def readUnsigned (negative : Bool) (bytes : List UInt8) : Except Fault (Number × List UInt8) :=
  let digits := bytes.takeWhile isDigitByte
  let rest := bytes.dropWhile isDigitByte
  match digits with
  | [] => .error (.due .invalidNumber .eofValue rest)
  | first :: more =>
    if first = '0'.toUInt8 ∧ more ≠ [] then .error (.at .invalidNumber (more.tail ++ rest))
    else
      let (significand, dropped) := gather 0 digits
      let plain :=
        if dropped = 0 then
          match ofDigits negative significand with
          | some n => .ok (n, rest)
          | none => .error (.at .numberOutOfRange rest)
        else finish negative significand dropped rest
      match rest with
      | [] => plain
      | b :: after =>
        if b = '.'.toUInt8 then readFraction negative significand dropped after
        else if b = 'e'.toUInt8 ∨ b = 'E'.toUInt8 then
          readExponent negative significand dropped after
        else plain

end Exemplar.Json
