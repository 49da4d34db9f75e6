import Exemplar.Json.Reader

/-!
# The grammar of JSON

Which bytes are the text of which value, told without a reader: numerals with their parts, strings
with their escapes, lists and objects as sequences between brackets.  Brackets are counted, so that
a text can be said to nest at most so deep.
-/

namespace Exemplar.Json

/-- Whether bytes are blanks alone. -/
def AllSpace (bytes : List UInt8) : Prop :=
  ∀ b ∈ bytes, isSpace b = true

/-- The bytes of a word. -/
def word (s : String) : List UInt8 :=
  s.toList.map Char.toUInt8

/-! ## Strings -/

/-- Whether four hexadecimal digits spell a number. -/
def IsHex4 (digits : List UInt8) (n : Nat) : Prop :=
  digits.length = 4 ∧ hexNumber? digits = some n

/-- How the bytes of a string are written between its quotes: as they stand, behind a backslash, or
as the code point of a character, which takes two escapes if it has more than 16 bits. -/
inductive ContentText : (written meant : List UInt8) → Prop
  | nil : ContentText [] []
  | byte {b : UInt8} {written meant : List UInt8} (quote : b ≠ '"'.toUInt8)
      (backslash : b ≠ '\\'.toUInt8) (control : ¬ b < 0x20) (rest : ContentText written meant) :
      ContentText (b :: written) (b :: meant)
  | escape {b x : UInt8} {written meant : List UInt8} (stands : simpleEscape? b = some x)
      (rest : ContentText written meant) :
      ContentText ('\\'.toUInt8 :: b :: written) (x :: meant)
  | unicode {digits written meant : List UInt8} {n : Nat} (hex : IsHex4 digits n)
      (scalar : n < 0xD800 ∨ 0xDFFF < n) (rest : ContentText written meant) :
      ContentText ('\\'.toUInt8 :: 'u'.toUInt8 :: (digits ++ written))
        (Text.Utf8.encode [Char.ofNat n] ++ meant)
  | pair {high low written meant : List UInt8} {m n : Nat} (first : IsHex4 high m)
      (lead : 0xD800 ≤ m ∧ m ≤ 0xDBFF) (second : IsHex4 low n)
      (trail : 0xDC00 ≤ n ∧ n ≤ 0xDFFF) (rest : ContentText written meant) :
      ContentText
        ('\\'.toUInt8 :: 'u'.toUInt8 :: (high ++ '\\'.toUInt8 :: 'u'.toUInt8 :: (low ++ written)))
        (Text.Utf8.encode [Char.ofNat ((m - 0xD800) * 0x400 + (n - 0xDC00) + 0x10000)] ++ meant)

/-- Whether bytes are the text of a string: its bytes in UTF-8, written between quotes. -/
def StringText (text : List UInt8) (s : String) : Prop :=
  ∃ written, ContentText written (Text.Utf8.encode s.toList) ∧
    text = '"'.toUInt8 :: (written ++ ['"'.toUInt8])

/-! ## Numbers -/

/-- Whether bytes are digits, one at least. -/
def IsDigits (digits : List UInt8) : Prop :=
  digits ≠ [] ∧ ∀ b ∈ digits, isDigitByte b = true

/-- Whether a byte is the letter of an exponent. -/
def IsExponentLetter (b : UInt8) : Prop :=
  b = 'e'.toUInt8 ∨ b = 'E'.toUInt8

/-- An exponent as it is written. -/
structure ExponentText where
  letter : UInt8
  sign : List UInt8
  digits : List UInt8

namespace ExponentText

/-- Whether the parts of an exponent are such. -/
structure Valid (e : ExponentText) : Prop where
  letter : IsExponentLetter e.letter
  sign : e.sign = [] ∨ e.sign = ['+'.toUInt8] ∨ e.sign = ['-'.toUInt8]
  digits : IsDigits e.digits

/-- The bytes of an exponent. -/
def text (e : ExponentText) : List UInt8 :=
  e.letter :: (e.sign ++ e.digits)

end ExponentText

/-- The double for a significand and a power of ten, if it is finite. -/
def scaled? (negative : Bool) (significand : Nat) (power : Int) : Option Number :=
  (scale? significand power).map (signed negative)

/-- The double for a significand, a power of ten and the digits of one more, up or down.  One beyond
the greatest exponent leaves zero if it goes down or there is nothing to scale. -/
def raised? (negative : Bool) (significand : Nat) (power : Int) (down : Bool)
    (digits : List UInt8) : Option Number :=
  match exponentValue 0 digits with
  | .ok n => scaled? negative significand (if down then power - n else power + n)
  | .error _ =>
    if significand ≠ 0 ∧ down = false then none else some (signed negative (.zero false))

/-- Whether an exponent is negative. -/
def ExponentText.down (e : ExponentText) : Bool :=
  e.sign == ['-'.toUInt8]

/-- The double for a significand, a power of ten and the exponent that is written, if one is. -/
def scaledBy? (exponent? : Option ExponentText) (negative : Bool) (significand : Nat)
    (power : Int) : Option Number :=
  match exponent? with
  | none => scaled? negative significand power
  | some e => raised? negative significand power e.down e.digits

/-- The bytes of an exponent, if one is written. -/
def exponentBytes (exponent? : Option ExponentText) : List UInt8 :=
  match exponent? with
  | none => []
  | some e => e.text

/-- A number as it is written. -/
structure Numeral where
  negative : Bool
  whole : List UInt8
  fraction? : Option (List UInt8)
  exponent? : Option ExponentText

namespace Numeral

/-- Whether the parts of a numeral are such: a zero in front stands alone. -/
structure Valid (n : Numeral) : Prop where
  whole : IsDigits n.whole
  zero : n.whole.head? = some '0'.toUInt8 → n.whole.length = 1
  fraction : ∀ digits ∈ n.fraction?, IsDigits digits
  exponent : ∀ e ∈ n.exponent?, e.Valid

/-- The bytes of a numeral behind its sign. -/
def unsignedText (n : Numeral) : List UInt8 :=
  match n.fraction? with
  | none => n.whole ++ exponentBytes n.exponent?
  | some digits => n.whole ++ '.'.toUInt8 :: (digits ++ exponentBytes n.exponent?)

/-- The bytes of a numeral. -/
def text (n : Numeral) : List UInt8 :=
  if n.negative then '-'.toUInt8 :: n.unsignedText else n.unsignedText

/-- The number that a numeral stands for, if it is in range: without fraction and exponent an
integer where it fits in 64 bits, else a double. -/
def value? (n : Numeral) : Option Number :=
  let (significand, dropped) := gather 0 n.whole
  match n.fraction? with
  | none =>
    if n.exponent?.isNone ∧ dropped = 0 then ofDigits n.negative significand
    else scaledBy? n.exponent? n.negative significand dropped
  | some digits =>
    let (significand, left) := gather significand digits
    scaledBy? n.exponent? n.negative significand (dropped - (digits.length - left : Nat))

/-- Whether a numeral ends before a rest: the next byte does not make it longer. -/
def EndsBefore (n : Numeral) (rest : List UInt8) : Prop :=
  ∀ b ∈ rest.head?, isDigitByte b = false ∧ (n.exponent? = none → ¬ IsExponentLetter b) ∧
    (n.fraction? = none → n.exponent? = none → b ≠ '.'.toUInt8)

end Numeral

/-! ## Lists and objects -/

/-- How elements are written behind an opening bracket, if they are the first, or behind another
element: with commas between them, up to the closing bracket. -/
inductive SequenceText {α : Type} (Element : List UInt8 → α → Prop) (close : UInt8) :
    (first : Bool) → List UInt8 → List α → Prop
  | close {first : Bool} {blanks : List UInt8} (space : AllSpace blanks) :
      SequenceText Element close first (blanks ++ [close]) []
  | first {blanks text rest : List UInt8} {x : α} {xs : List α} (space : AllSpace blanks)
      (element : Element text x) (more : SequenceText Element close false rest xs) :
      SequenceText Element close true (blanks ++ (text ++ rest)) (x :: xs)
  | next {blanks blanks' text rest : List UInt8} {x : α} {xs : List α} (space : AllSpace blanks)
      (space' : AllSpace blanks') (element : Element text x)
      (more : SequenceText Element close false rest xs) :
      SequenceText Element close false (blanks ++ ','.toUInt8 :: (blanks' ++ (text ++ rest)))
        (x :: xs)

/-- How a member is written: its key, a colon and its value. -/
def MemberText (Element : List UInt8 → Value → Prop) (text : List UInt8) (m : String × Value) :
    Prop :=
  ∃ key blanks blanks' value, StringText key m.1 ∧ AllSpace blanks ∧ AllSpace blanks' ∧
    Element value m.2 ∧ text = key ++ (blanks ++ ':'.toUInt8 :: (blanks' ++ value))

/-! ## Values -/

/-- Whether bytes are the text of a value with brackets nested at most so deep. -/
def ValueText : (depth : Nat) → List UInt8 → Value → Prop
  | _, text, .null => text = word "null"
  | _, text, .bool b => text = word (if b then "true" else "false")
  | _, text, .number n => ∃ numeral : Numeral, numeral.Valid ∧ numeral.value? = some n ∧
      text = numeral.text
  | _, text, .string s => StringText text s
  | 0, _, .array _ | 0, _, .object _ => False
  | depth + 1, text, .array vs => ∃ body, text = '['.toUInt8 :: body ∧
      SequenceText (ValueText depth) ']'.toUInt8 true body vs
  | depth + 1, text, .object ms => ∃ body written, text = '\x7b'.toUInt8 :: body ∧
      SequenceText (MemberText (ValueText depth)) '\x7d'.toUInt8 true body written ∧
        ms = ofWritten written
termination_by structural depth => depth

/-- Whether a text ends before a rest: if it is that of a number, the next byte does not make its
numeral longer. -/
def EndsBefore (text : List UInt8) (v : Value) (rest : List UInt8) : Prop :=
  ∀ n, v = .number n → ∃ numeral : Numeral, numeral.Valid ∧ numeral.value? = some n ∧
    text = numeral.text ∧ numeral.EndsBefore rest

/-- Whether bytes begin with a value: behind blanks there is a text of it that ends before the
rest. -/
def BeginsWith (Element : List UInt8 → Value → Prop) (bytes : List UInt8) (v : Value)
    (rest : List UInt8) : Prop :=
  ∃ blanks text, bytes = blanks ++ (text ++ rest) ∧ AllSpace blanks ∧ Element text v ∧
    EndsBefore text v rest

/-- Whether a document denotes a value: it is the text of the value with blanks around it, and
nothing else. -/
def Denotes (document : List UInt8) (v : Value) : Prop :=
  ∃ blanks text rest depth, document = blanks ++ (text ++ rest) ∧ AllSpace blanks ∧
    ValueText depth text v ∧ AllSpace rest

end Exemplar.Json
