import Exemplar.Proofs.Json.Grammar
import Exemplar.Proofs.Outcome
import Exemplar.Proofs.Text.Cut

/-!
# Reading numerals

The reader of numbers against their grammar.  The main statement: it reads a number off some bytes
exactly when they begin with a numeral for it that the next byte does not make longer, and leaves
what follows.
-/

namespace Exemplar.Json

/-! ## Exponents -/

variable {negative : Bool} {significand : Nat} {power : Int} {bytes rest : List UInt8} {n : Number}

private theorem finish_eq_ok_iff :
    finish negative significand power bytes = .ok (n, rest) ↔
      bytes = rest ∧ scaled? negative significand power = some n := by
  rw [finish, scaled?]
  cases scale? significand power with
  | none => simp
  | some x =>
    rw [Except.ok.injEq, Prod.mk.injEq, Option.map_some, Option.some.injEq]
    exact and_comm

/-- Reads the digits of an exponent that goes up or down. -/
def readPower (negative : Bool) (significand : Nat) (power : Int) (down : Bool)
    (bytes : List UInt8) : Except Fault (Number × List UInt8) :=
  let digits := bytes.takeWhile isDigitByte
  let rest := bytes.dropWhile isDigitByte
  if digits = [] then .error (.due .invalidNumber .eofValue rest)
  else
    match exponentValue 0 digits with
    | .ok e => finish negative significand (if down then power - e else power + e) rest
    | .error beyond =>
      if significand ≠ 0 ∧ down = false then .error (.at .numberOutOfRange (beyond ++ rest))
      else .ok (signed negative (.zero false), rest)

private theorem readExponent_eq (bytes : List UInt8) :
    readExponent negative significand power bytes =
      match bytes with
      | [] => readPower negative significand power false []
      | b :: after =>
        if b = '+'.toUInt8 then readPower negative significand power false after
        else if b = '-'.toUInt8 then readPower negative significand power true after
        else readPower negative significand power false (b :: after) := by
  cases bytes with
  | nil => rfl
  | cons b after =>
    rw [readExponent]
    dsimp only
    split
    · rfl
    · split <;> rfl

private theorem readPower_eq_ok_iff {down : Bool} :
    readPower negative significand power down bytes = .ok (n, rest) ↔
      ∃ digits, bytes = digits ++ rest ∧ IsDigits digits ∧
        (∀ b ∈ rest.head?, isDigitByte b = false) ∧
          raised? negative significand power down digits = some n := by
  have hend {digits rest' : List UInt8} : (match exponentValue 0 digits with
        | .ok e => finish negative significand (if down then power - e else power + e) rest'
        | .error beyond =>
          if significand ≠ 0 ∧ down = false then .error (.at .numberOutOfRange (beyond ++ rest'))
          else .ok (signed negative (.zero false), rest')) = .ok (n, rest) ↔
      rest' = rest ∧ raised? negative significand power down digits = some n := by
    rw [raised?]
    cases exponentValue 0 digits with
    | ok e => exact finish_eq_ok_iff
    | error beyond =>
      dsimp only
      split
      · simp
      · rw [Except.ok.injEq, Prod.mk.injEq, Option.some.injEq]
        exact and_comm
  constructor
  · intro h
    rw [readPower] at h
    split at h
    · cases h
    · next hdigits =>
      obtain ⟨hrest, hvalue⟩ := hend.mp h
      obtain ⟨hbytes, hall, hends⟩ := Text.cut_iff.mp ⟨rfl, hrest⟩
      exact ⟨_, hbytes, ⟨hdigits, hall⟩, hends, hvalue⟩
  · rintro ⟨digits, hbytes, hdigits, hends, hvalue⟩
    obtain ⟨htake, hdrop⟩ := Text.cut_iff.mpr ⟨hbytes, hdigits.2, hends⟩
    rw [readPower, htake, hdrop, if_neg hdigits.1]
    exact hend.mpr ⟨rfl, hvalue⟩

private theorem readExponent_eq_ok_iff {letter : UInt8} (hletter : IsExponentLetter letter) :
    readExponent negative significand power bytes = .ok (n, rest) ↔
      ∃ e : ExponentText, e.Valid ∧ letter :: bytes = e.text ++ rest ∧
        (∀ b ∈ rest.head?, isDigitByte b = false) ∧
          raised? negative significand power e.down e.digits = some n := by
  rw [readExponent_eq]
  constructor
  · intro h
    split at h
    · obtain ⟨digits, hbytes, hdigits, hends, hvalue⟩ := readPower_eq_ok_iff.mp h
      exact absurd (List.append_eq_nil_iff.mp hbytes.symm).1 hdigits.1
    · split at h
      · next b after hplus =>
        obtain ⟨digits, rfl, hdigits, hends, hvalue⟩ := readPower_eq_ok_iff.mp h
        exact ⟨{ letter, sign := ['+'.toUInt8], digits }, ⟨hletter, .inr (.inl rfl), hdigits⟩,
          by rw [hplus]; rfl, hends, hvalue⟩
      · split at h
        · next b after _ hminus =>
          obtain ⟨digits, rfl, hdigits, hends, hvalue⟩ := readPower_eq_ok_iff.mp h
          exact ⟨{ letter, sign := ['-'.toUInt8], digits }, ⟨hletter, .inr (.inr rfl), hdigits⟩,
            by rw [hminus]; rfl, hends, hvalue⟩
        · obtain ⟨digits, hbytes, hdigits, hends, hvalue⟩ := readPower_eq_ok_iff.mp h
          exact ⟨{ letter, sign := [], digits }, ⟨hletter, .inl rfl, hdigits⟩, by rw [hbytes]; rfl,
            hends, hvalue⟩
  · rintro ⟨⟨letter', sign, digits⟩, ⟨-, hsign, hdigits⟩, hbytes, hends, hvalue⟩
    obtain ⟨rfl, rfl⟩ := List.cons.inj hbytes
    rcases hsign with rfl | rfl | rfl
    · obtain ⟨d, ds, rfl⟩ := List.exists_cons_of_ne_nil hdigits.1
      have hplus : d ≠ '+'.toUInt8 := by
        rintro rfl
        cases hdigits.2 _ List.mem_cons_self
      have hminus : d ≠ '-'.toUInt8 := by
        rintro rfl
        cases hdigits.2 _ List.mem_cons_self
      change (if d = '+'.toUInt8 then _ else if d = '-'.toUInt8 then _ else _) = _
      rw [if_neg hplus, if_neg hminus]
      exact readPower_eq_ok_iff.mpr ⟨_, rfl, hdigits, hends, hvalue⟩
    · exact readPower_eq_ok_iff.mpr ⟨_, rfl, hdigits, hends, hvalue⟩
    · exact readPower_eq_ok_iff.mpr ⟨_, rfl, hdigits, hends, hvalue⟩

/-! ## Numbers with a fraction or an exponent -/

/-- Reads on behind the digits of a number: an exponent if there is one. -/
def readScaled (negative : Bool) (significand : Nat) (power : Int) (bytes : List UInt8) :
    Except Fault (Number × List UInt8) :=
  match bytes with
  | [] => finish negative significand power []
  | b :: after =>
    if b = 'e'.toUInt8 ∨ b = 'E'.toUInt8 then readExponent negative significand power after
    else finish negative significand power (b :: after)

/-- Whether a number ends before a rest, apart from the point of a fraction. -/
def ScaledEndsBefore (exponent? : Option ExponentText) (rest : List UInt8) : Prop :=
  ∀ b ∈ rest.head?, isDigitByte b = false ∧ (exponent? = none → ¬ IsExponentLetter b)

private theorem readScaled_eq_ok_iff (hbytes : ∀ b ∈ bytes.head?, isDigitByte b = false) :
    readScaled negative significand power bytes = .ok (n, rest) ↔
      ∃ exponent? : Option ExponentText, (∀ e ∈ exponent?, e.Valid) ∧
        bytes = exponentBytes exponent? ++ rest ∧ ScaledEndsBefore exponent? rest ∧
          scaledBy? exponent? negative significand power = some n := by
  have hnone (hletter : ∀ b ∈ bytes.head?, ¬ IsExponentLetter b) :
      finish negative significand power bytes = .ok (n, rest) ↔
        ∃ exponent? : Option ExponentText, (∀ e ∈ exponent?, e.Valid) ∧
          bytes = exponentBytes exponent? ++ rest ∧ ScaledEndsBefore exponent? rest ∧
            scaledBy? exponent? negative significand power = some n := by
    rw [finish_eq_ok_iff]
    constructor
    · rintro ⟨rfl, hvalue⟩
      exact ⟨none, fun e he => (by cases he), rfl,
        fun b hb => ⟨hbytes b hb, fun _ => hletter b hb⟩, hvalue⟩
    · rintro ⟨exponent?, hvalid, rfl, hends, hvalue⟩
      cases exponent? with
      | none => exact ⟨rfl, hvalue⟩
      | some e => exact absurd (hvalid e rfl).letter (hletter _ rfl)
  cases bytes with
  | nil => exact hnone fun b hb => by cases hb
  | cons b after =>
    rw [readScaled]
    split
    · next hletter =>
      rw [readExponent_eq_ok_iff hletter]
      constructor
      · rintro ⟨e, hvalid, htext, hends, hvalue⟩
        refine ⟨some e, fun e' he' => ?_, htext, fun b hb => ⟨hends b hb, fun h => ?_⟩, hvalue⟩
        · obtain rfl := Option.some.inj he'
          exact hvalid
        · cases h
      · rintro ⟨exponent?, hvalid, htext, hends, hvalue⟩
        cases exponent? with
        | none =>
          obtain rfl : b :: after = rest := htext
          exact absurd hletter ((hends b rfl).2 rfl)
        | some e => exact ⟨e, hvalid e rfl, htext, fun b hb => (hends b hb).1, hvalue⟩
    · next hletter =>
      exact hnone fun c hc => Option.some.inj hc ▸ hletter

private theorem readFraction_eq (dropped : Nat) (bytes : List UInt8) :
    readFraction negative significand dropped bytes =
      if bytes.takeWhile isDigitByte = [] then
        .error (.due .invalidNumber .eofValue (bytes.dropWhile isDigitByte))
      else
        readScaled negative (gather significand (bytes.takeWhile isDigitByte)).1
          (dropped - ((bytes.takeWhile isDigitByte).length -
            (gather significand (bytes.takeWhile isDigitByte)).2 : Nat))
          (bytes.dropWhile isDigitByte) := by
  rw [readFraction]
  dsimp only
  split
  · rfl
  · cases bytes.dropWhile isDigitByte <;> rfl

private theorem isDigitByte_head_exponentBytes {exponent? : Option ExponentText}
    (hvalid : ∀ e ∈ exponent?, e.Valid) (hends : ScaledEndsBefore exponent? rest) :
    ∀ b ∈ (exponentBytes exponent? ++ rest).head?, isDigitByte b = false := by
  cases exponent? with
  | none => exact fun b hb => (hends b hb).1
  | some e =>
    intro b hb
    obtain rfl : e.letter = b := Option.some.inj hb
    rcases (hvalid e rfl).letter with h | h <;> rw [h] <;> rfl

private theorem readFraction_eq_ok_iff {dropped : Nat} :
    readFraction negative significand dropped bytes = .ok (n, rest) ↔
      ∃ digits exponent?, IsDigits digits ∧ (∀ e ∈ exponent?, e.Valid) ∧
        bytes = digits ++ (exponentBytes exponent? ++ rest) ∧ ScaledEndsBefore exponent? rest ∧
          scaledBy? exponent? negative (gather significand digits).1
            (dropped - (digits.length - (gather significand digits).2 : Nat)) = some n := by
  rw [readFraction_eq]
  constructor
  · intro h
    split at h
    · cases h
    · next hdigits =>
      obtain ⟨hbytes, hall, hhead⟩ := Text.cut_iff.mp ⟨rfl, Eq.refl (bytes.dropWhile isDigitByte)⟩
      obtain ⟨exponent?, hvalid, hrest, hends, hvalue⟩ := (readScaled_eq_ok_iff hhead).mp h
      exact ⟨_, exponent?, ⟨hdigits, hall⟩, hvalid, hrest ▸ hbytes, hends, hvalue⟩
  · rintro ⟨digits, exponent?, hdigits, hvalid, hbytes, hends, hvalue⟩
    have hhead := isDigitByte_head_exponentBytes hvalid hends
    obtain ⟨htake, hdrop⟩ := Text.cut_iff.mpr ⟨hbytes, hdigits.2, hhead⟩
    rw [htake, hdrop, if_neg hdigits.1]
    exact (readScaled_eq_ok_iff hhead).mpr ⟨exponent?, hvalid, rfl, hends, hvalue⟩

/-! ## All numbers -/

/-- Reads on behind the whole digits of a number: a fraction, an exponent or nothing more. -/
def readBehindWhole (negative : Bool) (significand dropped : Nat) (bytes : List UInt8) :
    Except Fault (Number × List UInt8) :=
  let plain : Except Fault (Number × List UInt8) :=
    if dropped = 0 then
      match ofDigits negative significand with
      | some n => .ok (n, bytes)
      | none => .error (.at .numberOutOfRange bytes)
    else finish negative significand dropped bytes
  match bytes with
  | [] => plain
  | b :: after =>
    if b = '.'.toUInt8 then readFraction negative significand dropped after
    else if b = 'e'.toUInt8 ∨ b = 'E'.toUInt8 then readExponent negative significand dropped after
    else plain

private theorem readUnsigned_eq (bytes : List UInt8) :
    readUnsigned negative bytes =
      match bytes.takeWhile isDigitByte with
      | [] => .error (.due .invalidNumber .eofValue (bytes.dropWhile isDigitByte))
      | first :: more =>
        if first = '0'.toUInt8 ∧ more ≠ [] then
          .error (.at .invalidNumber (more.tail ++ bytes.dropWhile isDigitByte))
        else
          readBehindWhole negative (gather 0 (first :: more)).1 (gather 0 (first :: more)).2
            (bytes.dropWhile isDigitByte) := by
  rw [readUnsigned]
  cases bytes.takeWhile isDigitByte with
  | nil => rfl
  | cons first more =>
    dsimp only
    split
    · rfl
    · rcases gather 0 (first :: more) with ⟨significand, dropped⟩
      cases bytes.dropWhile isDigitByte <;> rfl

/-- The value of a numeral whose whole digits give a significand and a count of digits left
over. -/
def Numeral.valueBehind? (n : Numeral) (significand dropped : Nat) : Option Number :=
  match n.fraction? with
  | none =>
    if n.exponent?.isNone ∧ dropped = 0 then ofDigits n.negative significand
    else scaledBy? n.exponent? n.negative significand dropped
  | some digits =>
    scaledBy? n.exponent? n.negative (gather significand digits).1
      (dropped - (digits.length - (gather significand digits).2 : Nat))

private theorem Numeral.value?_eq (n : Numeral) :
    n.value? = n.valueBehind? (gather 0 n.whole).1 (gather 0 n.whole).2 := rfl

/-- The bytes of a numeral behind its whole digits. -/
def Numeral.tail (n : Numeral) : List UInt8 :=
  match n.fraction? with
  | none => exponentBytes n.exponent?
  | some digits => '.'.toUInt8 :: (digits ++ exponentBytes n.exponent?)

/-- A numeral is written with its whole digits in front. -/
theorem Numeral.unsignedText_eq (n : Numeral) : n.unsignedText = n.whole ++ n.tail := by
  unfold unsignedText tail
  cases n.fraction? <;> rfl

/-- Whether a numeral with whole digits and these parts is read off bytes behind the digits, and
leaves a rest. -/
structure ReadBehind (m : Numeral) (significand dropped : Nat) (bytes rest : List UInt8)
    (n : Number) : Prop where
  fraction : ∀ digits ∈ m.fraction?, IsDigits digits
  exponent : ∀ e ∈ m.exponent?, e.Valid
  bytes : bytes = m.tail ++ rest
  ends : m.EndsBefore rest
  value : m.valueBehind? significand dropped = some n

variable {dropped : Nat} {whole : List UInt8}

private theorem readBehind_point {after : List UInt8} :
    (∃ m : Numeral, m.negative = negative ∧ m.whole = whole ∧
        ReadBehind m significand dropped ('.'.toUInt8 :: after) rest n) ↔
      readFraction negative significand dropped after = .ok (n, rest) := by
  rw [readFraction_eq_ok_iff]
  constructor
  · rintro ⟨⟨_, _, fraction?, exponent?⟩, rfl, rfl, hfraction, hexponent, hbytes, hends, hvalue⟩
    cases fraction? with
    | none =>
      cases exponent? with
      | none =>
        obtain rfl : '.'.toUInt8 :: after = rest := hbytes
        exact absurd rfl ((hends _ rfl).2.2 rfl rfl)
      | some e =>
        obtain ⟨hletter, -⟩ := List.cons.inj hbytes
        rcases (hexponent e rfl).letter with h | h <;> rw [h] at hletter <;> cases hletter
    | some digits =>
      obtain ⟨-, hafter⟩ := List.cons.inj hbytes
      have hafter : after = digits ++ (exponentBytes exponent? ++ rest) :=
        hafter.trans (List.append_assoc _ _ _)
      exact ⟨digits, exponent?, hfraction digits rfl, hexponent, hafter,
        fun b hb => ⟨(hends b hb).1, (hends b hb).2.1⟩, hvalue⟩
  · rintro ⟨digits, exponent?, hdigits, hexponent, rfl, hends, hvalue⟩
    refine ⟨{ negative, whole, fraction? := some digits, exponent? }, rfl, rfl, ?_, hexponent, ?_,
      fun b hb => ⟨(hends b hb).1, (hends b hb).2, fun h => ?_⟩, hvalue⟩
    · intro digits' hdigits'
      obtain rfl := Option.some.inj hdigits'
      exact hdigits
    · rw [← List.append_assoc]
      rfl
    · cases h

private theorem readBehind_letter {letter : UInt8} (hletter : IsExponentLetter letter)
    {after : List UInt8} :
    (∃ m : Numeral, m.negative = negative ∧ m.whole = whole ∧
        ReadBehind m significand dropped (letter :: after) rest n) ↔
      readExponent negative significand dropped after = .ok (n, rest) := by
  have hpoint : letter ≠ '.'.toUInt8 := by
    rcases hletter with rfl | rfl <;> decide
  rw [readExponent_eq_ok_iff hletter]
  constructor
  · rintro ⟨⟨_, _, fraction?, exponent?⟩, rfl, rfl, hfraction, hexponent, hbytes, hends, hvalue⟩
    cases fraction? with
    | some digits => exact absurd (List.cons.inj hbytes).1 hpoint
    | none =>
      cases exponent? with
      | none =>
        obtain rfl : letter :: after = rest := hbytes
        exact absurd hletter ((hends _ rfl).2.1 rfl)
      | some e =>
        exact ⟨e, hexponent e rfl, hbytes, fun b hb => (hends b hb).1, hvalue⟩
  · rintro ⟨e, hvalid, hbytes, hends, hvalue⟩
    refine ⟨{ negative, whole, fraction? := none, exponent? := some e }, rfl, rfl, ?_, ?_, hbytes,
      fun b hb => ⟨hends b hb, fun h => ?_, fun _ h => ?_⟩, hvalue⟩
    · intro digits hdigits
      cases hdigits
    · intro e' he'
      obtain rfl := Option.some.inj he'
      exact hvalid
    · cases h
    · cases h

private theorem plain_eq_ok_iff :
    (if dropped = 0 then
        match ofDigits negative significand with
        | some n => .ok (n, bytes)
        | none => .error (.at .numberOutOfRange bytes)
      else finish negative significand dropped bytes) = .ok (n, rest) ↔
      bytes = rest ∧
        Numeral.valueBehind? { negative, whole, fraction? := none, exponent? := none } significand
          dropped = some n := by
  have hvalue : Numeral.valueBehind? { negative, whole, fraction? := none, exponent? := none }
      significand dropped = if dropped = 0 then ofDigits negative significand
        else scaled? negative significand dropped := by
    simp [Numeral.valueBehind?, scaledBy?]
  rw [hvalue]
  split
  · cases ofDigits negative significand with
    | none => simp
    | some m =>
      rw [Except.ok.injEq, Prod.mk.injEq, Option.some.injEq]
      exact and_comm
  · exact finish_eq_ok_iff

private theorem readBehind_plain (hdigit : ∀ b ∈ bytes.head?, isDigitByte b = false)
    (hpoint : ∀ b ∈ bytes.head?, b ≠ '.'.toUInt8)
    (hletter : ∀ b ∈ bytes.head?, ¬ IsExponentLetter b) :
    (∃ m : Numeral, m.negative = negative ∧ m.whole = whole ∧
        ReadBehind m significand dropped bytes rest n) ↔
      bytes = rest ∧
        Numeral.valueBehind? { negative, whole, fraction? := none, exponent? := none } significand
          dropped = some n := by
  constructor
  · rintro ⟨⟨_, _, fraction?, exponent?⟩, rfl, rfl, hfraction, hexponent, hbytes, hends, hvalue⟩
    cases fraction? with
    | some digits =>
      rw [hbytes] at hpoint
      exact absurd rfl (hpoint _ rfl)
    | none =>
      cases exponent? with
      | some e =>
        rw [hbytes] at hletter
        exact absurd (hexponent e rfl).letter (hletter _ rfl)
      | none => exact ⟨hbytes, hvalue⟩
  · rintro ⟨rfl, hvalue⟩
    exact ⟨_, rfl, rfl, fun digits h => (by cases h), fun e h => (by cases h), rfl,
      fun b hb => ⟨hdigit b hb, fun _ => hletter b hb, fun _ _ => hpoint b hb⟩, hvalue⟩

private theorem readBehindWhole_eq_ok_iff (whole : List UInt8)
    (hdigit : ∀ b ∈ bytes.head?, isDigitByte b = false) :
    readBehindWhole negative significand dropped bytes = .ok (n, rest) ↔
      ∃ m : Numeral, m.negative = negative ∧ m.whole = whole ∧
        ReadBehind m significand dropped bytes rest n := by
  cases bytes with
  | nil =>
    rw [readBehind_plain hdigit (fun b hb => by cases hb) fun b hb => by cases hb]
    exact plain_eq_ok_iff
  | cons b after =>
    rw [readBehindWhole]
    split
    · next hpoint =>
      rw [hpoint]
      exact readBehind_point.symm
    · next hpoint =>
      split
      · next hletter => exact (readBehind_letter hletter).symm
      · next hletter =>
        rw [readBehind_plain hdigit (fun c hc => Option.some.inj hc ▸ hpoint)
          fun c hc => Option.some.inj hc ▸ hletter]
        exact plain_eq_ok_iff

private theorem Numeral.isDigitByte_head_tail {m : Numeral} (hexponent : ∀ e ∈ m.exponent?, e.Valid)
    (hends : m.EndsBefore rest) : ∀ b ∈ (m.tail ++ rest).head?, isDigitByte b = false := by
  obtain ⟨_, _, fraction?, exponent?⟩ := m
  cases fraction? with
  | none =>
    exact isDigitByte_head_exponentBytes hexponent
      fun b hb => ⟨(hends b hb).1, (hends b hb).2.1⟩
  | some digits =>
    intro b hb
    obtain rfl : '.'.toUInt8 = b := Option.some.inj hb
    rfl

/-- A number is read off bytes behind its sign exactly when they begin with a numeral for it that
the next byte does not make longer. -/
theorem readUnsigned_eq_ok_iff :
    readUnsigned negative bytes = .ok (n, rest) ↔
      ∃ m : Numeral, m.negative = negative ∧ m.Valid ∧ bytes = m.unsignedText ++ rest ∧
        m.EndsBefore rest ∧ m.value? = some n := by
  rw [readUnsigned_eq]
  constructor
  · intro h
    obtain ⟨hbytes, hall, hhead⟩ := Text.cut_iff.mp
      ⟨Eq.refl (bytes.takeWhile isDigitByte), Eq.refl (bytes.dropWhile isDigitByte)⟩
    split at h
    · cases h
    · next first more htake =>
      split at h
      · cases h
      · next hzero =>
        obtain ⟨m, hnegative, hwhole, hread⟩ :=
          (readBehindWhole_eq_ok_iff (first :: more) hhead).mp h
        rw [← hwhole] at htake h
        rw [htake, hread.bytes, ← List.append_assoc, ← m.unsignedText_eq] at hbytes
        have hvalid : m.Valid := by
          refine ⟨⟨?_, ?_⟩, fun h => ?_, hread.fraction, hread.exponent⟩
          · rw [hwhole]
            exact List.cons_ne_nil _ _
          · rwa [htake] at hall
          · rw [hwhole] at h ⊢
            obtain rfl := Option.some.inj h
            rw [not_and, not_ne_iff] at hzero
            rw [hzero rfl]
            rfl
        refine ⟨m, hnegative, hvalid, hbytes, hread.ends, ?_⟩
        rw [m.value?_eq, hwhole]
        exact hread.value
  · rintro ⟨m, rfl, hvalid, hbytes, hends, hvalue⟩
    rw [m.unsignedText_eq, List.append_assoc] at hbytes
    have hhead := m.isDigitByte_head_tail hvalid.exponent hends
    obtain ⟨htake, hdrop⟩ := Text.cut_iff.mpr ⟨hbytes, hvalid.whole.2, hhead⟩
    obtain ⟨first, more, hwhole⟩ := List.exists_cons_of_ne_nil hvalid.whole.1
    have hzero : ¬ (first = '0'.toUInt8 ∧ more ≠ []) := by
      rintro ⟨rfl, hmore⟩
      have hlength := hvalid.zero (by rw [hwhole]; rfl)
      rw [hwhole, List.length_cons, Nat.add_eq_right, List.length_eq_zero_iff] at hlength
      exact hmore hlength
    rw [htake, hdrop, hwhole]
    dsimp only
    rw [if_neg hzero, ← hwhole]
    refine (readBehindWhole_eq_ok_iff m.whole hhead).mpr ⟨m, rfl, rfl, ?_⟩
    exact ⟨hvalid.fraction, hvalid.exponent, rfl, hends, hvalue⟩

end Exemplar.Json
