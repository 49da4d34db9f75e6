import Exemplar.Text.Utf8

/-!
# Bytes that are text

What bytes hold that are read as text.  The main statement: they are the bytes of the characters
that are read, and those that are left over.
-/

namespace Exemplar.Text.Utf8

private theorem byte_of_tailBits? {b : UInt8} {y : Nat} (h : tailBits? b = some y) :
    y < 64 ∧ UInt8.ofNat (y + 128) = b := by
  rw [tailBits?, Option.ite_none_right_eq_some] at h
  obtain ⟨hrange, hy⟩ := h
  obtain rfl := Option.some.inj hy
  refine ⟨by omega, ?_⟩
  rw [Nat.sub_add_cancel hrange.1, UInt8.ofNat_toNat]

private theorem toNat_ofNat {n : Nat} (h : n.isValidChar) : (Char.ofNat n).toNat = n := by
  rw [Char.ofNat, dif_pos h]
  rfl

private theorem toNat_of_scalar? {least n : Nat} {c : Char} (h : scalar? least n = some c) :
    c.toNat = n ∧ least ≤ n := by
  rw [scalar?, Option.ite_none_right_eq_some] at h
  obtain ⟨⟨hleast, hvalid⟩, hc⟩ := h
  rw [← Option.some.inj hc]
  exact ⟨toNat_ofNat hvalid, hleast⟩

private theorem ofNat_eq_of_toNat {n : Nat} {a : UInt8} (h : n = a.toNat) : UInt8.ofNat n = a := by
  rw [h, UInt8.ofNat_toNat]

private theorem encodeChar_of_ofOne? {a : UInt8} {c : Char} (h : ofOne? a = some c) :
    String.utf8EncodeChar c = [a] := by
  rw [ofOne?, Option.ite_none_right_eq_some] at h
  obtain ⟨hrange, hc⟩ := h
  have hvalid : a.toNat.isValidChar := .inl (by omega)
  have hval : c.val.toNat = a.toNat := by
    rw [← Option.some.inj hc]
    exact toNat_ofNat hvalid
  simp only [String.utf8EncodeChar, hval]
  rw [if_pos hrange, UInt8.ofNat_toNat]

private theorem encodeChar_of_ofTwo? {a b : UInt8} {c : Char} (h : ofTwo? a b = some c) :
    String.utf8EncodeChar c = [a, b] := by
  simp only [ofTwo?, bind, Option.bind_eq_some_iff, Option.ite_none_right_eq_some] at h
  obtain ⟨y, hy, hrange, hscalar⟩ := h
  obtain ⟨hlt, rfl⟩ := byte_of_tailBits? hy
  obtain ⟨hc, hleast⟩ := toNat_of_scalar? hscalar
  have hval : c.val.toNat = c.toNat := rfl
  have ha : UInt8.ofNat (c.toNat / 64 % 32 + 192) = a := ofNat_eq_of_toNat (by omega)
  have hb : c.toNat % 64 = y := by omega
  simp only [String.utf8EncodeChar, hval]
  rw [if_neg (by omega), if_pos (by omega), ha, hb]

private theorem encodeChar_of_ofThree? {a b d : UInt8} {c : Char} (h : ofThree? a b d = some c) :
    String.utf8EncodeChar c = [a, b, d] := by
  simp only [ofThree?, bind, Option.bind_eq_some_iff, Option.ite_none_right_eq_some] at h
  obtain ⟨y, hy, z, hz, hrange, hscalar⟩ := h
  obtain ⟨hlt, rfl⟩ := byte_of_tailBits? hy
  obtain ⟨hlt', rfl⟩ := byte_of_tailBits? hz
  obtain ⟨hc, hleast⟩ := toNat_of_scalar? hscalar
  have hval : c.val.toNat = c.toNat := rfl
  have ha : UInt8.ofNat (c.toNat / 4096 % 16 + 224) = a := ofNat_eq_of_toNat (by omega)
  have hb : c.toNat / 64 % 64 = y := by omega
  have hd : c.toNat % 64 = z := by omega
  simp only [String.utf8EncodeChar, hval]
  rw [if_neg (by omega), if_neg (by omega), if_pos (by omega), ha, hb, hd]

private theorem encodeChar_of_ofFour? {a b d e : UInt8} {c : Char} (h : ofFour? a b d e = some c) :
    String.utf8EncodeChar c = [a, b, d, e] := by
  simp only [ofFour?, bind, Option.bind_eq_some_iff, Option.ite_none_right_eq_some] at h
  obtain ⟨x, hx, y, hy, z, hz, hrange, hscalar⟩ := h
  obtain ⟨hlt, rfl⟩ := byte_of_tailBits? hx
  obtain ⟨hlt', rfl⟩ := byte_of_tailBits? hy
  obtain ⟨hlt'', rfl⟩ := byte_of_tailBits? hz
  obtain ⟨hc, hleast⟩ := toNat_of_scalar? hscalar
  have hval : c.val.toNat = c.toNat := rfl
  have ha : UInt8.ofNat (c.toNat / 262144 % 8 + 240) = a := ofNat_eq_of_toNat (by omega)
  have hb : c.toNat / 4096 % 64 = x := by omega
  have hd : c.toNat / 64 % 64 = y := by omega
  have he : c.toNat % 64 = z := by omega
  simp only [String.utf8EncodeChar, hval]
  rw [if_neg (by omega), if_neg (by omega), if_neg (by omega), ha, hb, hd, he]

/-- The bytes of the characters that are read, and those that are left over, are all bytes. -/
theorem encode_decode (bytes : List UInt8) :
    encode (decode bytes).1 ++ (decode bytes).2 = bytes := by
  have hcons (c : Char) (p : List Char × List UInt8) :
      encode (p.map (c :: ·) id).1 ++ (p.map (c :: ·) id).2 =
        String.utf8EncodeChar c ++ (encode p.1 ++ p.2) := by
    rw [← List.append_assoc]
    rfl
  fun_induction decode bytes with
  | case2 a as c hc ih => rw [hcons, ih, encodeChar_of_ofOne? hc]; rfl
  | case4 a _ b bs c hc ih => rw [hcons, ih, encodeChar_of_ofTwo? hc]; rfl
  | case6 a _ b _ d ds c hc ih => rw [hcons, ih, encodeChar_of_ofThree? hc]; rfl
  | case8 a _ b _ d _ e es c hc ih => rw [hcons, ih, encodeChar_of_ofFour? hc]; rfl
  | case1 | case3 | case5 | case7 | case9 => rfl

/-! ## Texts of seven bits -/

/-- The bytes of two texts in a row are those of the first and those of the second. -/
theorem encode_append (cs ds : List Char) : encode (cs ++ ds) = encode cs ++ encode ds :=
  List.flatMap_append

/-- The bytes of a text of one character are those of the character. -/
theorem encode_singleton (c : Char) : encode [c] = String.utf8EncodeChar c :=
  List.append_nil _

/-- A character of seven bits is one byte, and the bytes of any other have the eighth bit. -/
theorem encodeChar_cases (c : Char) :
    (c.toNat < 0x80 ∧ String.utf8EncodeChar c = [c.toUInt8]) ∨
      (0x80 ≤ c.toNat ∧ ∀ b ∈ String.utf8EncodeChar c, 0x80 ≤ b.toNat) := by
  have hval : c.val.toNat = c.toNat := rfl
  by_cases hascii : c.toNat < 0x80
  · refine .inl ⟨hascii, ?_⟩
    simp only [String.utf8EncodeChar, hval]
    rw [if_pos (by omega)]
    rfl
  · refine .inr ⟨by omega, fun b hb => ?_⟩
    simp only [String.utf8EncodeChar, hval] at hb
    rw [if_neg (by omega)] at hb
    split at hb
    · simp only [List.mem_cons, List.not_mem_nil, or_false] at hb
      rcases hb with rfl | rfl <;> rw [UInt8.toNat_ofNat'] <;> omega
    · split at hb
      · simp only [List.mem_cons, List.not_mem_nil, or_false] at hb
        rcases hb with rfl | rfl | rfl <;> rw [UInt8.toNat_ofNat'] <;> omega
      · simp only [List.mem_cons, List.not_mem_nil, or_false] at hb
        rcases hb with rfl | rfl | rfl | rfl <;> rw [UInt8.toNat_ofNat'] <;> omega

/-- A text of seven bits has a byte for each character. -/
theorem encode_of_ascii {cs : List Char} (h : ∀ c ∈ cs, c.toNat < 0x80) :
    encode cs = cs.map Char.toUInt8 := by
  induction cs with
  | nil => rfl
  | cons c cs ih =>
    rw [List.forall_mem_cons] at h
    rw [encode, List.flatMap_cons, List.map_cons]
    rcases encodeChar_cases c with ⟨-, hbyte⟩ | ⟨hc, -⟩
    · rw [hbyte]
      exact congrArg _ (ih h.2)
    · exact absurd h.1 (by omega)

end Exemplar.Text.Utf8
