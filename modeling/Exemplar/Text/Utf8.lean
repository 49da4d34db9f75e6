/-!
# UTF-8

Text as bytes and back.  Reading stops at the first byte that no character begins with or
continues, and returns the bytes from there on.  The main statement: the bytes of a text are read
as that text.
-/

namespace Exemplar.Text.Utf8

/-- The bytes of a text. -/
def encode (cs : List Char) : List UInt8 :=
  cs.flatMap String.utf8EncodeChar

/-- The six payload bits of a continuation byte. -/
def tailBits? (b : UInt8) : Option Nat :=
  if 0x80 ≤ b.toNat ∧ b.toNat ≤ 0xBF then some (b.toNat - 0x80) else none

/-- The character with a code point, when the code point is a scalar value of at least `least`,
so that no shorter form would do. -/
def scalar? (least n : Nat) : Option Char :=
  if least ≤ n ∧ n.isValidChar then some (Char.ofNat n) else none

/-- The character that one byte is the whole of. -/
def ofOne? (a : UInt8) : Option Char :=
  if a.toNat ≤ 0x7F then some (Char.ofNat a.toNat) else none

/-- The character that two bytes are the whole of. -/
def ofTwo? (a b : UInt8) : Option Char := do
  let y ← tailBits? b
  if 0xC0 ≤ a.toNat ∧ a.toNat ≤ 0xDF then scalar? 0x80 ((a.toNat - 0xC0) * 64 + y) else none

/-- The character that three bytes are the whole of. -/
def ofThree? (a b c : UInt8) : Option Char := do
  let y ← tailBits? b
  let z ← tailBits? c
  if 0xE0 ≤ a.toNat ∧ a.toNat ≤ 0xEF then
    scalar? 0x800 ((a.toNat - 0xE0) * 4096 + y * 64 + z)
  else none

/-- The character that four bytes are the whole of. -/
def ofFour? (a b c d : UInt8) : Option Char := do
  let x ← tailBits? b
  let y ← tailBits? c
  let z ← tailBits? d
  if 0xF0 ≤ a.toNat ∧ a.toNat ≤ 0xF7 then
    scalar? 0x10000 ((a.toNat - 0xF0) * 262144 + x * 4096 + y * 64 + z)
  else none

/-- The characters that a byte sequence begins with, and the bytes from the first one on that
belongs to no character. -/
def decode : List UInt8 → List Char × List UInt8
  | [] => ([], [])
  | a :: as =>
    match ofOne? a with
    | some ch => (decode as).map (ch :: ·) id
    | none =>
      match as with
      | [] => ([], [a])
      | b :: bs =>
        match ofTwo? a b with
        | some ch => (decode bs).map (ch :: ·) id
        | none =>
          match bs with
          | [] => ([], [a, b])
          | c :: cs =>
            match ofThree? a b c with
            | some ch => (decode cs).map (ch :: ·) id
            | none =>
              match cs with
              | [] => ([], [a, b, c])
              | d :: ds =>
                match ofFour? a b c d with
                | some ch => (decode ds).map (ch :: ·) id
                | none => ([], a :: b :: c :: d :: ds)

/-! ## Reading what was written -/

private theorem toNat_byte {n : Nat} (h : n < 256) : (UInt8.ofNat n).toNat = n := by
  simp [Nat.mod_eq_of_lt h]

private theorem tailBits_byte (n : Nat) :
    tailBits? (UInt8.ofNat (n % 64 + 128)) = some (n % 64) := by
  have hn : n % 64 < 64 := Nat.mod_lt _ (by decide)
  rw [tailBits?, toNat_byte (by omega), if_pos (by omega), Nat.add_sub_cancel]

private theorem scalar_toNat {least n : Nat} {c : Char} (hn : n = c.toNat) (h : least ≤ n) :
    scalar? least n = some c := by
  subst hn
  rw [scalar?, if_pos ⟨h, c.valid⟩, Char.ofNat_toNat]

private theorem ofOne_eq_none {a : UInt8} (h : 0x80 ≤ a.toNat) : ofOne? a = none := by
  rw [ofOne?, if_neg (by omega)]

private theorem ofTwo_eq_none {a b : UInt8} (h : 0xE0 ≤ a.toNat) : ofTwo? a b = none := by
  rw [ofTwo?]
  cases tailBits? b with
  | none => rfl
  | some y => exact if_neg (by omega)

private theorem ofThree_eq_none {a b c : UInt8} (h : 0xF0 ≤ a.toNat) : ofThree? a b c = none := by
  rw [ofThree?]
  cases tailBits? b with
  | none => rfl
  | some y =>
    cases tailBits? c with
    | none => rfl
    | some z => exact if_neg (by omega)

private theorem decode_one {a : UInt8} {c : Char} (h : ofOne? a = some c) (rest : List UInt8) :
    decode (a :: rest) = (decode rest).map (c :: ·) id := by
  rw [decode.eq_def]
  simp only [h]

private theorem decode_two {a b : UInt8} {c : Char} (ha : 0x80 ≤ a.toNat)
    (h : ofTwo? a b = some c) (rest : List UInt8) :
    decode (a :: b :: rest) = (decode rest).map (c :: ·) id := by
  rw [decode.eq_def]
  simp only [ofOne_eq_none ha, h]

private theorem decode_three {a b d : UInt8} {c : Char} (ha : 0xE0 ≤ a.toNat)
    (h : ofThree? a b d = some c) (rest : List UInt8) :
    decode (a :: b :: d :: rest) = (decode rest).map (c :: ·) id := by
  rw [decode.eq_def]
  simp only [ofOne_eq_none (show 0x80 ≤ a.toNat by omega), ofTwo_eq_none ha, h]

private theorem decode_four {a b d e : UInt8} {c : Char} (ha : 0xF0 ≤ a.toNat)
    (h : ofFour? a b d e = some c) (rest : List UInt8) :
    decode (a :: b :: d :: e :: rest) = (decode rest).map (c :: ·) id := by
  rw [decode.eq_def]
  simp only [ofOne_eq_none (show 0x80 ≤ a.toNat by omega),
    ofTwo_eq_none (show 0xE0 ≤ a.toNat by omega), ofThree_eq_none ha, h]

private theorem toNat_lt (c : Char) : c.toNat < 0x110000 := by
  rcases c.valid with h | h
  · exact Nat.lt_trans h (by decide)
  · exact h.2

private theorem decode_encodeChar (c : Char) (rest : List UInt8) :
    decode (String.utf8EncodeChar c ++ rest) = (decode rest).map (c :: ·) id := by
  have hlt := toNat_lt c
  have hval : c.val.toNat = c.toNat := rfl
  simp only [String.utf8EncodeChar, hval]
  split
  · exact decode_one (by rw [ofOne?, toNat_byte (by omega), if_pos (by omega), Char.ofNat_toNat]) _
  · split
    · refine decode_two (by rw [toNat_byte (by omega)]; omega) ?_ _
      rw [ofTwo?, tailBits_byte, toNat_byte (by omega)]
      exact (if_pos (by omega)).trans (scalar_toNat (by omega) (by omega))
    · split
      · refine decode_three (by rw [toNat_byte (by omega)]; omega) ?_ _
        rw [ofThree?, tailBits_byte, tailBits_byte, toNat_byte (by omega)]
        exact (if_pos (by omega)).trans (scalar_toNat (by omega) (by omega))
      · refine decode_four (by rw [toNat_byte (by omega)]; omega) ?_ _
        rw [ofFour?, tailBits_byte, tailBits_byte, tailBits_byte, toNat_byte (by omega)]
        exact (if_pos (by omega)).trans (scalar_toNat (by omega) (by omega))

/-- The bytes of a text are read as that text, and nothing is left. -/
theorem decode_encode (cs : List Char) : decode (encode cs) = (cs, []) := by
  induction cs with
  | nil => rfl
  | cons c cs ih =>
    rw [encode, List.flatMap_cons, decode_encodeChar]
    change (decode (encode cs)).map _ _ = _
    rw [ih]
    rfl

end Exemplar.Text.Utf8
