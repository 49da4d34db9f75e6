import Mathlib.Tactic.SplitIfs
import Exemplar.Text.Utf8

/-!
# The order of bytes

Texts compared by their bytes and by their characters.  The main statement: both comparisons come
out the same, so the order by code points is the order of bytes.
-/

namespace Exemplar.Text.Utf8

private theorem byte_order {m n : Nat} (hm : m < 256) (hn : n < 256) :
    (UInt8.ofNat m < UInt8.ofNat n ↔ m < n) ∧ (UInt8.ofNat m = UInt8.ofNat n ↔ m = n) := by
  rw [UInt8.lt_iff_toNat_lt, ← UInt8.toNat_inj, UInt8.toNat_ofNat', UInt8.toNat_ofNat',
    Nat.mod_eq_of_lt hm, Nat.mod_eq_of_lt hn]
  exact ⟨Iff.rfl, Iff.rfl⟩

private theorem encodeChar_append_lt {c d : Char} (h : c < d) (xs ys : List UInt8) :
    String.utf8EncodeChar c ++ xs < String.utf8EncodeChar d ++ ys := by
  have hlt : c.val.toNat < d.val.toNat := h
  have hd : d.val.toNat < 0x110000 := by
    rcases d.valid with h | h
    · exact Nat.lt_trans h (by decide)
    · exact h.2
  -- The payloads of the bytes are digits to base 64, the highest first.
  have hdigits : ∀ n : Nat, n / 4096 = n / 64 / 64 ∧ n / 262144 = n / 64 / 64 / 64 := fun n => by
    rw [Nat.div_div_eq_div_mul, Nat.div_div_eq_div_mul]
    exact ⟨rfl, rfl⟩
  simp only [String.utf8EncodeChar, hdigits]
  generalize c.val.toNat = m at *
  generalize d.val.toNat = n at *
  split_ifs <;>
    simp (disch := omega) only [List.cons_append, List.nil_append, List.cons_lt_cons_iff,
      byte_order] <;>
    omega

private theorem encode_lt_encode {cs ds : List Char} (h : cs < ds) : encode cs < encode ds := by
  induction cs generalizing ds with
  | nil =>
    cases ds with
    | nil => exact absurd h (List.lt_irrefl [])
    | cons d ds =>
      cases hd : encode (d :: ds) with
      | nil =>
        rw [encode, List.flatMap_cons, List.append_eq_nil_iff] at hd
        exact absurd hd.1 String.utf8EncodeChar_ne_nil
      | cons b bs => exact List.nil_lt_cons b bs
  | cons c cs ih =>
    cases ds with
    | nil => exact absurd h (List.not_lt_nil _)
    | cons d ds =>
      rcases List.cons_lt_cons_iff.mp h with hcd | ⟨rfl, htail⟩
      · exact encodeChar_append_lt hcd _ _
      · exact List.append_left_lt (ih htail)

/-- Texts stand in the order of their bytes exactly as they stand in that of their characters. -/
theorem encode_lt_encode_iff (cs ds : List Char) : encode cs < encode ds ↔ cs < ds := by
  refine ⟨fun h => ?_, encode_lt_encode⟩
  by_cases hlt : cs < ds
  · exact hlt
  · rcases List.le_iff_lt_or_eq.mp (List.not_lt.mp hlt) with hgt | rfl
    · exact absurd h (List.lt_asymm (encode_lt_encode hgt))
    · exact absurd h (List.lt_irrefl _)

end Exemplar.Text.Utf8
