import Mathlib.Data.Nat.Cast.Field
import Mathlib.Data.Rat.Cast.Order
import Mathlib.Tactic.FieldSimp
import Mathlib.Tactic.NormNum
import Exemplar.Json.Value

/-!
# The value of a number

JSON numbers as rationals.  The main statement: a number is taken for an integer of 64 bits exactly
when its value is one.
-/

namespace Exemplar

namespace Binary64

/-- The number as a rational. -/
def value (x : Binary64) : ℚ :=
  (if x.negative then -1 else 1) * (x.mantissa * 2 ^ x.exponent)

private theorem numerator_div_denominator (x : Binary64) :
    (x.numerator : ℚ) / x.denominator = x.mantissa * 2 ^ x.exponent := by
  rw [numerator, denominator]
  rcases le_total 0 x.exponent with h | h
  · obtain ⟨n, hn⟩ := Int.eq_ofNat_of_zero_le h
    have hneg : (-x.exponent).toNat = 0 := by omega
    rw [hneg, hn]
    simp
  · obtain ⟨n, hn⟩ := Int.eq_ofNat_of_zero_le (show 0 ≤ -x.exponent by omega)
    have hpos : x.exponent.toNat = 0 := by omega
    have hexp : x.exponent = -(n : Int) := by omega
    rw [hpos, hexp]
    simp [div_eq_mul_inv]

private theorem value_eq_div (x : Binary64) : x.value = x.signedNumerator / x.denominator := by
  rw [value, ← numerator_div_denominator, signedNumerator]
  cases x.negative <;> simp [neg_div]

private theorem denominator_pos (x : Binary64) : (0 : ℚ) < x.denominator :=
  Nat.cast_pos.mpr (pow_pos (by decide) _)

/-- Numbers are compared by their values. -/
theorem le_iff_value_le (x y : Binary64) : x ≤ y ↔ x.value ≤ y.value := by
  change x.signedNumerator * y.denominator ≤ y.signedNumerator * x.denominator ↔ _
  rw [value_eq_div, value_eq_div, div_le_div_iff₀ x.denominator_pos y.denominator_pos]
  norm_cast

/-- Numbers are compared strictly by their values. -/
theorem lt_iff_value_lt (x y : Binary64) : x < y ↔ x.value < y.value := by
  change x.signedNumerator * y.denominator < y.signedNumerator * x.denominator ↔ _
  rw [value_eq_div, value_eq_div, div_lt_div_iff₀ x.denominator_pos y.denominator_pos]
  norm_cast

private theorem value_eq_int_iff (x : Binary64) (n : Int) :
    x.value = n ↔ x.signedNumerator = n * x.denominator := by
  rw [value_eq_div, div_eq_iff x.denominator_pos.ne']
  norm_cast

/-- A number is whole exactly when its value is an integer. -/
theorem isWhole_iff (x : Binary64) : x.isWhole = true ↔ ∃ n : Int, x.value = n := by
  have hdvd : x.isWhole = true ↔ (x.denominator : Int) ∣ x.signedNumerator := by
    have habs : x.signedNumerator.natAbs = x.numerator := by
      rw [signedNumerator]
      split <;> omega
    rw [isWhole, beq_iff_eq, ← Nat.dvd_iff_mod_eq_zero, ← habs, ← Int.natCast_dvd]
  rw [hdvd]
  constructor
  · rintro ⟨n, hn⟩
    exact ⟨n, (x.value_eq_int_iff n).mpr (hn.trans (mul_comm _ _))⟩
  · rintro ⟨n, hn⟩
    exact ⟨n, ((x.value_eq_int_iff n).mp hn).trans (mul_comm _ _)⟩

private theorem truncate_of_value {x : Binary64} {n : Int} (h : x.value = n) : x.truncate = n := by
  have hden : (x.denominator : Int) ≠ 0 := by exact_mod_cast x.denominator_pos.ne'
  rw [truncate, (x.value_eq_int_iff n).mp h, Int.mul_tdiv_cancel _ hden]

/-! ## The bounds of integers of 64 bits -/

/-- The least integer is a number itself. -/
theorem value_ofInt_int64Min : (ofInt Text.int64Min).value = -2 ^ 63 := by
  have h : ofInt Text.int64Min =
      { negative := true, mantissa := Nat.pow 2 52, exponent := 11 } := by
    decide
  rw [h, value]
  norm_num

private theorem value_ofInt_int64Max : (ofInt Text.int64Max).value = 2 ^ 63 := by
  have h : ofInt Text.int64Max =
      { negative := false, mantissa := Nat.pow 2 52, exponent := 11 } := by
    decide
  rw [h, value]
  norm_num

/-- A number is taken for an integer of 64 bits exactly when its value is one. -/
theorem isWholeInt64_iff (x : Binary64) :
    x.isWholeInt64 = true ↔ ∃ n : Int, x.value = n ∧ Text.IsInt64 n := by
  rw [isWholeInt64, Bool.and_eq_true, Bool.and_eq_true, decide_eq_true_iff, decide_eq_true_iff,
    isWhole_iff, le_iff_value_le, lt_iff_value_lt, value_ofInt_int64Min, value_ofInt_int64Max]
  constructor
  · rintro ⟨⟨⟨n, hn⟩, hlow⟩, hhigh⟩
    rw [hn] at hlow hhigh
    have hlow' : (-2 ^ 63 : Int) ≤ n := by exact_mod_cast hlow
    have hhigh' : n < (2 ^ 63 : Int) := by exact_mod_cast hhigh
    refine ⟨n, hn, ?_⟩
    rw [Text.IsInt64, Text.int64Min, Text.int64Max]
    omega
  · rintro ⟨n, hn, hrange⟩
    rw [Text.IsInt64, Text.int64Min, Text.int64Max] at hrange
    have hlow : (-2 ^ 63 : Int) ≤ n := by omega
    have hhigh : n < (2 ^ 63 : Int) := by omega
    rw [hn]
    exact ⟨⟨⟨n, rfl⟩, by exact_mod_cast hlow⟩, by exact_mod_cast hhigh⟩

/-- An integer of 64 bits is cast to itself. -/
theorem toInt64_of_value {x : Binary64} {n : Int} (h : x.value = n) (hn : Text.IsInt64 n) :
    x.toInt64 = n := by
  rw [toInt64, truncate_of_value h, min_eq_right hn.2, max_eq_right hn.1]

private theorem roundDiv_bounds (num den : Nat) :
    num / den ≤ roundDiv num den ∧ roundDiv num den ≤ num / den + 1 := by
  rw [roundDiv]
  split
  · omega
  · split <;> omega

private theorem exists_ofParts (mantissa : Nat) (exponent : Int) (hlow : 2 ^ 52 ≤ mantissa)
    (hhigh : mantissa < 2 ^ 53) (hexp : 0 ≤ exponent ∧ exponent ≤ 971) :
    ∃ x, ofParts? false mantissa exponent = some x ∧ x.value = mantissa * 2 ^ exponent := by
  rw [ofParts?, dif_pos ⟨hhigh, by omega, hexp.2, .inl hlow⟩]
  refine ⟨_, rfl, ?_⟩
  rw [value]
  simp

private theorem exists_ofRatio {n : Nat} (hlow : 2 ^ 63 ≤ n) (hhigh : n < 2 ^ 64) :
    ∃ x, ofRatio? false n 1 = some x ∧ 2 ^ 63 ≤ x.value := by
  have hunit : unitOf n 1 = 11 := by
    have hlog : Nat.log2 n = 63 := (Nat.log2_eq_iff (by omega)).mpr ⟨hlow, hhigh⟩
    have hone : Nat.log2 1 = 0 := by decide
    have hfull : 9223372036854775808 ≤ n := hlow
    rw [unitOf, hlog, hone]
    simp [hfull]
  have hround : ofRatio? false n 1 =
      if roundDiv n (2 ^ 11) < 2 ^ 53 then ofParts? false (roundDiv n (2 ^ 11)) 11
      else ofParts? false (roundDiv n (2 ^ 11) / 2) 12 := by
    rw [ofRatio?, if_neg (by omega), hunit]
    simp
  have hbounds := roundDiv_bounds n (2 ^ 11)
  rw [hround]
  generalize roundDiv n (2 ^ 11) = m at hbounds ⊢
  have hm : 2 ^ 52 ≤ m := by omega
  split
  · next hfits =>
    obtain ⟨x, hx, hvalue⟩ := exists_ofParts m 11 hm hfits (by decide)
    refine ⟨x, hx, ?_⟩
    have hm : (2 ^ 52 : ℚ) ≤ m := by exact_mod_cast hm
    calc (2 ^ 63 : ℚ) = 2 ^ 52 * 2 ^ (11 : Int) := by norm_num
      _ ≤ m * 2 ^ (11 : Int) := mul_le_mul_of_nonneg_right hm (by positivity)
      _ = x.value := hvalue.symm
  · next hcarry =>
    have hm : m / 2 = 2 ^ 52 := by omega
    obtain ⟨x, hx, hvalue⟩ := exists_ofParts (m / 2) 12 (by omega) (by omega) (by decide)
    refine ⟨x, hx, ?_⟩
    rw [hvalue, hm]
    norm_num

private theorem le_value_ofInt {n : Int} (hlow : 2 ^ 63 ≤ n) (hhigh : n < 2 ^ 64) :
    2 ^ 63 ≤ (ofInt n).value := by
  obtain ⟨m, rfl⟩ := Int.eq_ofNat_of_zero_le (show 0 ≤ n by omega)
  obtain ⟨x, hx, hle⟩ := exists_ofRatio (n := m) (by exact_mod_cast hlow) (by exact_mod_cast hhigh)
  have hsign : decide ((m : Int) < 0) = false := decide_eq_false (by omega)
  rw [ofInt, hsign, Int.natAbs_natCast, hx]
  exact hle

end Binary64

namespace Json.Number

/-- The number as a rational. -/
def value : Number → ℚ
  | .integer n _ => n
  | .double x => x.value

/-- A number is taken for an integer of 64 bits exactly when its value is one. -/
theorem toInt64?_eq_some_iff (x : Number) (n : Int) :
    x.toInt64? = some n ↔ x.value = n ∧ Text.IsInt64 n := by
  cases x with
  | integer m range =>
    by_cases hm : Text.IsInt64 m
    · rw [toInt64?, asInt64?, if_pos hm, value, Int.cast_inj, Option.some.injEq]
      exact ⟨fun h => ⟨h, h ▸ hm⟩, And.left⟩
    · have hnot : ¬ (Binary64.ofInt m).isWholeInt64 = true := by
        intro hwhole
        obtain ⟨k, hvalue, hk⟩ := (Binary64.isWholeInt64_iff _).mp hwhole
        rw [Text.IsInt64, Text.int64Min, Text.int64Max] at hm hk
        have hle := Binary64.le_value_ofInt (n := m) (by omega) (by omega)
        rw [hvalue] at hle
        have hle : (2 ^ 63 : Int) ≤ k := by exact_mod_cast hle
        omega
      rw [toInt64?, asInt64?, if_neg hm, toBinary64, if_neg hnot, value, Int.cast_inj]
      exact ⟨fun h => (by cases h), fun h => absurd (h.1 ▸ h.2) hm⟩
  | double x =>
    have hcast : (Number.double x).toInt64? = if x.isWholeInt64 then some x.toInt64 else none := rfl
    rw [hcast, value]
    constructor
    · intro h
      split at h
      · next hwhole =>
        obtain ⟨k, hvalue, hk⟩ := x.isWholeInt64_iff.mp hwhole
        rw [Binary64.toInt64_of_value hvalue hk, Option.some.injEq] at h
        exact h ▸ ⟨hvalue, hk⟩
      · cases h
    · rintro ⟨hvalue, hn⟩
      rw [if_pos (x.isWholeInt64_iff.mpr ⟨n, hvalue, hn⟩), Binary64.toInt64_of_value hvalue hn]

end Json.Number

end Exemplar
