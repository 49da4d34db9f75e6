import Mathlib.Data.List.Basic
import Mathlib.Data.List.Induction
import Mathlib.Tactic.IntervalCases
import Exemplar.Text.Digits

/-!
# Numbers and their digits

The decimal digits of a number, as many as it needs or in a fixed number of places with zeros in
front.  The main statements: digits spell the number that they were made from, and the numbers in a
fixed number of places are all digit texts of that length.
-/

namespace Exemplar.Text

/-! ## As many digits as needed -/

/-- The decimal digits of a number spell the number. -/
theorem digitsValue_decimal (n : Nat) : digitsValue (decimal n) = n := by
  have hvalue := Nat.ofDigitChars_ten_toDigits (n := n)
  rwa [Nat.ofDigitChars_eq_foldl] at hvalue

/-- Different numbers have different digits. -/
theorem decimal_injective {m n : Nat} (h : decimal m = decimal n) : m = n := by
  rw [← digitsValue_decimal m, h, digitsValue_decimal]

/-- The decimal digits of a number are digits. -/
theorem isDigit_of_mem_decimal {n : Nat} {c : Char} (h : c ∈ decimal n) : isDigit c = true := by
  have hdigit := Nat.isDigit_of_mem_toDigits (by decide) (by decide) h
  rw [Char.isDigit_iff_toNat] at hdigit
  exact Bool.and_eq_true_iff.mpr ⟨decide_eq_true hdigit.1, decide_eq_true hdigit.2⟩

/-- A number has digits. -/
theorem decimal_ne_nil (n : Nat) : decimal n ≠ [] :=
  Nat.toDigits_ne_nil

/-- A number is spelled with digits only, and at least one. -/
theorem decimal_spells (n : Nat) : decimal n ≠ [] ∧ (decimal n).all isDigit = true :=
  ⟨decimal_ne_nil n, List.all_eq_true.mpr fun _ hc => isDigit_of_mem_decimal hc⟩

/-- The sign in front of the digits of an integer is split off. -/
theorem splitSign_intDecimal (n : Int) :
    splitSign (intDecimal n) = (decide (n < 0), decimal n.natAbs) := by
  rw [intDecimal]
  split
  · next hneg => rw [splitSign, decide_eq_true hneg]
  · next hneg =>
    rw [decide_eq_false hneg]
    unfold splitSign
    split
    · next heq =>
      have hdigit := isDigit_of_mem_decimal (c := '-') (heq ▸ List.mem_cons_self)
      cases hdigit
    · next heq =>
      have hdigit := isDigit_of_mem_decimal (c := '+') (heq ▸ List.mem_cons_self)
      cases hdigit
    · rfl

/-- The sign of an integer and the value of its digits make up the integer. -/
theorem signed_digitsValue_decimal (n : Int) :
    (if decide (n < 0) then -(digitsValue (decimal n.natAbs) : Int)
      else digitsValue (decimal n.natAbs)) = n := by
  rw [digitsValue_decimal]
  by_cases hneg : n < 0
  · rw [decide_eq_true hneg, if_pos rfl]
    omega
  · rw [decide_eq_false hneg, if_neg Bool.false_ne_true]
    omega

/-- The decimal of an integer of 64 bits spells that integer. -/
theorem int64?_intDecimal {n : Int} (h : IsInt64 n) : int64? (intDecimal n) = some n := by
  rw [int64?, splitSign_intDecimal]
  dsimp only
  rw [if_pos (decimal_spells _), signed_digitsValue_decimal, if_pos h]

/-- The decimal of an integer is its standard text. -/
theorem toString_eq_intDecimal (n : Int) : toString n = String.ofList (intDecimal n) := by
  rw [Int.toString_eq_repr, Int.repr_eq_if, intDecimal]
  by_cases hneg : n < 0
  · have habs : (-n).toNat = n.natAbs := by omega
    rw [if_neg (by omega), if_pos hneg, habs, Nat.repr_eq_ofList_toDigits,
      ← List.singleton_append, String.ofList_append]
    rfl
  · have habs : n.toNat = n.natAbs := by omega
    rw [if_pos (by omega), if_neg hneg, habs, Nat.repr_eq_ofList_toDigits]
    rfl

/-! ## Hexadecimal digits -/

/-- The characters of a code point in hexadecimal are hexadecimal digits. -/
theorem exists_digit_of_mem_hex4 {n : Nat} {c : Char} (h : c ∈ hex4 n) :
    ∃ d < 16, Nat.digitChar d = c := by
  rw [hex4, List.mem_map] at h
  obtain ⟨d, hd, rfl⟩ := h
  refine ⟨d, ?_, rfl⟩
  simp only [List.mem_cons, List.not_mem_nil, or_false] at hd
  omega

/-- The hexadecimal digits of a code point are no controls, quotes or backslashes. -/
theorem plain_of_mem_hex4 {n : Nat} {c : Char} (h : c ∈ hex4 n) :
    0x20 ≤ c.toNat ∧ c ≠ '\\' ∧ c ≠ '"' := by
  have hdigits : ∀ d < 16, 0x20 ≤ (Nat.digitChar d).toNat ∧ Nat.digitChar d ≠ '\\' ∧
      Nat.digitChar d ≠ '"' := by decide
  obtain ⟨d, hd, rfl⟩ := exists_digit_of_mem_hex4 h
  exact hdigits d hd

/-! ## A fixed number of places -/

/-- The decimal digits of a number in a given number of places; higher ones are left out. -/
def padded : (width n : Nat) → List Char
  | 0, _ => []
  | width + 1, n => padded width (n / 10) ++ [Nat.digitChar (n % 10)]

/-- The digits take the places that they are given. -/
@[simp] theorem length_padded (width n : Nat) : (padded width n).length = width := by
  induction width generalizing n with
  | zero => rfl
  | succ width ih => rw [padded, List.length_append, ih, List.length_singleton]

private theorem digitChar_of_lt {d : Nat} (h : d < 10) :
    isDigit (Nat.digitChar d) = true ∧ digitValue (Nat.digitChar d) = d := by
  interval_cases d <;> decide

/-- A digit is what its value is written as. -/
theorem digitChar_digitValue {c : Char} (h : isDigit c = true) :
    digitValue c < 10 ∧ Nat.digitChar (digitValue c) = c := by
  rw [isDigit, Bool.and_eq_true, decide_eq_true_iff, decide_eq_true_iff] at h
  obtain ⟨hlow, hhigh⟩ := h
  rw [digitValue]
  refine ⟨by omega, ?_⟩
  rw [← Char.ofNat_toNat c]
  generalize c.toNat = n at hlow hhigh
  interval_cases n <;> decide

/-- Padded numbers are made of digits. -/
theorem isDigit_of_mem_padded {width n : Nat} {c : Char} (h : c ∈ padded width n) :
    isDigit c = true := by
  induction width generalizing n with
  | zero => cases h
  | succ width ih =>
    rw [padded, List.mem_append, List.mem_singleton] at h
    rcases h with h | rfl
    · exact ih h
    · exact (digitChar_of_lt (Nat.mod_lt n (by decide))).1

/-- One more digit makes ten times the number, and the digit. -/
theorem digitsValue_concat (cs : List Char) (c : Char) :
    digitsValue (cs ++ [c]) = 10 * digitsValue cs + digitValue c := by
  rw [digitsValue, digitsValue, List.foldl_append, List.foldl_cons, List.foldl_nil]

/-- The digits of a number that fits spell the number. -/
theorem digitsValue_padded {width n : Nat} (h : n < 10 ^ width) :
    digitsValue (padded width n) = n := by
  induction width generalizing n with
  | zero =>
    rw [pow_zero, Nat.lt_one_iff] at h
    rw [h]
    rfl
  | succ width ih =>
    have hdigit := (digitChar_of_lt (Nat.mod_lt n (show 0 < 10 by decide))).2
    have hrest : n / 10 < 10 ^ width := by
      rw [pow_succ] at h
      omega
    rw [padded, digitsValue_concat, ih hrest, hdigit, Nat.div_add_mod]

/-- Digits spell a number that fits in their places, and are its digits. -/
theorem padded_digitsValue {cs : List Char} (h : ∀ c ∈ cs, isDigit c = true) :
    digitsValue cs < 10 ^ cs.length ∧ padded cs.length (digitsValue cs) = cs := by
  induction cs using List.reverseRecOn with
  | nil => exact ⟨Nat.one_pos, rfl⟩
  | append_singleton cs c ih =>
    obtain ⟨hlt, hcs⟩ := ih fun d hd => h d (List.mem_append_left _ hd)
    obtain ⟨hten, hc⟩ := digitChar_digitValue (h c (List.mem_append_right _ List.mem_cons_self))
    have hdiv : (10 * digitsValue cs + digitValue c) / 10 = digitsValue cs := by omega
    have hmod : (10 * digitsValue cs + digitValue c) % 10 = digitValue c := by omega
    rw [List.length_append, List.length_singleton, digitsValue_concat]
    refine ⟨?_, ?_⟩
    · rw [pow_succ]
      omega
    · rw [padded, hdiv, hmod, hcs, hc]

/-- Texts that begin with numbers in as many places begin with the same number only if they go on
alike. -/
theorem padded_append_inj {width m n : Nat} {xs ys : List Char} (hm : m < 10 ^ width)
    (hn : n < 10 ^ width) (h : padded width m ++ xs = padded width n ++ ys) :
    m = n ∧ xs = ys := by
  obtain ⟨hdigits, hrest⟩ := List.append_inj h (by rw [length_padded, length_padded])
  refine ⟨?_, hrest⟩
  rw [← digitsValue_padded hm, hdigits, digitsValue_padded hn]

/-! ## Leading zeros -/

private theorem head?_decimal_ne {n : Nat} (h : 0 < n) : (decimal n).head? ≠ some '0' := by
  induction n using Nat.strong_induction_on with
  | _ n ih =>
    by_cases hsmall : n < 10
    · rw [decimal, Nat.toDigits_of_lt_base hsmall]
      interval_cases n <;> decide
    · have hdigits := Nat.toDigits_of_base_le (b := 10) (by decide) (Nat.le_of_not_lt hsmall)
      have hhead := ih (n / 10) (by omega) (by omega)
      rw [decimal] at hhead
      rwa [decimal, hdigits, List.head?_append_of_ne_nil _ Nat.toDigits_ne_nil]

/-- The digits of a number begin with a zero only if that is all. -/
theorem decimal_leadingDigit (n : Nat) :
    (decimal n).head? ≠ some '0' ∨ (decimal n).length = 1 := by
  rcases Nat.eq_zero_or_pos n with rfl | h
  · exact .inr rfl
  · exact .inl (head?_decimal_ne h)

/-- Digits that begin with a zero only if that is all are the digits of the number that they
spell. -/
theorem decimal_digitsValue {cs : List Char} (hne : cs ≠ []) (hdigits : cs.all isDigit = true)
    (hlead : cs.head? ≠ some '0' ∨ cs.length = 1) : decimal (digitsValue cs) = cs := by
  induction cs using List.reverseRecOn with
  | nil => exact absurd rfl hne
  | append_singleton cs c ih =>
    rw [List.all_append, Bool.and_eq_true, List.all_cons, List.all_nil, Bool.and_true] at hdigits
    obtain ⟨hlt, hc⟩ := digitChar_digitValue hdigits.2
    have hlast : decimal (digitValue c) = [c] := by
      rw [decimal, Nat.toDigits_of_lt_base hlt, hc]
    by_cases hcs : cs = []
    · rw [hcs, List.nil_append, ← hlast]
      exact congrArg decimal (digitsValue_decimal _)
    · rw [List.head?_append_of_ne_nil _ hcs] at hlead
      have hhead : cs.head? ≠ some '0' := hlead.resolve_right fun hlength => by
        rw [List.length_append, List.length_singleton, Nat.add_eq_right] at hlength
        exact hcs (List.length_eq_zero_iff.mp hlength)
      have hfront := ih hcs hdigits.1 (.inl hhead)
      have hpos : 0 < digitsValue cs := Nat.pos_of_ne_zero fun hzero => by
        rw [hzero] at hfront
        exact hhead (hfront ▸ rfl)
      rw [digitsValue_concat, decimal, ← Nat.toDigits_append_toDigits (by decide) hpos hlt]
      exact congr (congrArg _ hfront) hlast

end Exemplar.Text
