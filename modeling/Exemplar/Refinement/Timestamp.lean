import Exemplar.Text.Digits

/-!
# Timestamps

The date-times of RFC 3339 with a capital `T` and a capital `Z`: a date of the proleptic Gregorian
calendar, a time of day to the second or finer, and an offset.  A sixtieth second is taken at any
minute, and the minus sign U+2212 is a sign of an offset.  Source: `looks_like_timestamp` in the
module `str` of `inference`.
-/

namespace Exemplar.Refinement.Timestamp

/-- Reads a number of exactly `n` digits. -/
def number? (n : Nat) (cs : List Char) : Option (Nat × List Char) :=
  let digits := cs.take n
  if digits.length = n ∧ digits.all Text.isDigit then
    some (Text.digitsValue digits, cs.drop n)
  else none

/-- Reads a given character. -/
def skip? (c : Char) : List Char → Option (List Char)
  | [] => none
  | d :: cs => if d = c then some cs else none

/-- Whether a year has a leap day. -/
def isLeap (year : Nat) : Bool :=
  year % 4 == 0 && (year % 100 != 0 || year % 400 == 0)

/-- The number of days of a month. -/
def daysIn (year month : Nat) : Nat :=
  if month = 2 then if isLeap year then 29 else 28
  else if month = 4 ∨ month = 6 ∨ month = 9 ∨ month = 11 then 30
  else 31

/-- Reads a date. -/
def date? (cs : List Char) : Option (List Char) := do
  let (year, cs) ← number? 4 cs
  let cs ← skip? '-' cs
  let (month, cs) ← number? 2 cs
  let cs ← skip? '-' cs
  let (day, cs) ← number? 2 cs
  if 1 ≤ month ∧ month ≤ 12 ∧ 1 ≤ day ∧ day ≤ daysIn year month then some cs else none

/-- Reads the part of a second behind a point, if there is one. -/
def fraction? : List Char → Option (List Char)
  | '.' :: cs =>
    if cs.takeWhile Text.isDigit = [] then none else some (cs.dropWhile Text.isDigit)
  | cs => some cs

/-- Reads a time of day. -/
def time? (cs : List Char) : Option (List Char) := do
  let (hour, cs) ← number? 2 cs
  let cs ← skip? ':' cs
  let (minute, cs) ← number? 2 cs
  let cs ← skip? ':' cs
  let (second, cs) ← number? 2 cs
  if hour ≤ 23 ∧ minute ≤ 59 ∧ second ≤ 60 then fraction? cs else none

/-- Reads an offset from universal time. -/
def offset? : List Char → Option (List Char)
  | [] => none
  | c :: cs =>
    if c = 'Z' then some cs
    else if c = '+' ∨ c = '-' ∨ c = '\u2212' then do
      let (hour, cs) ← number? 2 cs
      let cs ← skip? ':' cs
      let (minute, cs) ← number? 2 cs
      if hour ≤ 23 ∧ minute ≤ 59 then some cs else none
    else none

/-- Reads a timestamp. -/
def read? (cs : List Char) : Option (List Char) := do
  let cs ← date? cs
  let cs ← skip? 'T' cs
  let cs ← time? cs
  offset? cs

end Timestamp

/-- Whether a text is a timestamp and nothing else.  Source: `looks_like_timestamp`. -/
def isTimestamp (cs : List Char) : Bool :=
  Timestamp.read? cs == some []

end Exemplar.Refinement
