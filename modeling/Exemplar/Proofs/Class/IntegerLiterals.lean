import Exemplar.Proofs.Class.Acceptance
import Exemplar.Proofs.Refinement.Timestamp

/-!
# Integers and their literals

Integers come as integers of 64 bits, signed or unsigned, as doubles, and as strings.  The main
statement: whichever way it comes, an integer of 64 bits, signed, is taken for one and written as
itself, and nothing else is.
-/

namespace Exemplar

/-! ## Integers in strings -/

namespace Refinement

private theorem mem_of_isTimestamp {cs : List Char} (h : isTimestamp cs = true) : 'T' ∈ cs := by
  obtain ⟨t, -, rfl⟩ := isTimestamp_eq_true_iff.mp h
  simp [DateTime.text]

private theorem Address.mem_of_isDotted {cs : List Char} (h : isDotted cs = true) : '.' ∈ cs := by
  by_contra hnot
  rw [isDotted, Text.split_eq_self hnot] at h
  cases h

private theorem Address.splitGap?_eq_none {cs : List Char} (h : ':' ∉ cs) :
    splitGap? cs = none := by
  induction cs with
  | nil => rfl
  | cons c cs ih =>
    rw [List.mem_cons, not_or] at h
    rw [splitGap?, ih h.2]
    · rfl
    · intro _ hc
      exact absurd hc.symm h.1

private theorem Address.groupCount?_groups {cs : List Char} (h : ':' ∉ cs) {n : Nat}
    (hn : groupCount? (groups cs) = some n) : n ≤ 2 := by
  rw [groups] at hn
  split at hn
  · obtain rfl := Option.some.inj hn
    decide
  · rw [Text.split_eq_self h, groupCount?] at hn
    split_ifs at hn
    · obtain rfl := Option.some.inj hn
      decide
    · obtain rfl := Option.some.inj hn
      decide

private theorem mem_of_isAddress {cs : List Char} (h : isAddress cs = true) :
    '.' ∈ cs ∨ ':' ∈ cs := by
  rw [isAddress, Bool.or_eq_true] at h
  rcases h with h | h
  · exact .inl (Address.mem_of_isDotted h)
  · by_contra hnot
    rw [not_or] at hnot
    rw [Address.isGrouped, Address.splitGap?_eq_none hnot.2] at h
    have hcount := Address.groupCount?_groups hnot.2 (beq_iff_eq.mp h)
    omega

/-- The characters of a decimal are digits and a minus sign. -/
theorem mem_intDecimal {n : Int} {c : Char} (h : c ∈ Text.intDecimal n) :
    c = '-' ∨ Text.isDigit c = true := by
  rw [Text.intDecimal] at h
  split at h
  · rcases List.mem_cons.mp h with rfl | h
    · exact .inl rfl
    · exact .inr (Text.isDigit_of_mem_decimal h)
  · exact .inr (Text.isDigit_of_mem_decimal h)

/-- The decimal of an integer of 64 bits is taken for that integer, and is neither a timestamp nor
an address. -/
theorem refine_toString {n : Int} (h : Text.IsInt64 n) :
    int64? (toString n) = some n ∧ refine (toString n) = ⟨.int64, true⟩ := by
  have hread : int64? (toString n) = some n := by
    rw [int64?, Text.toString_eq_intDecimal, String.toList_ofList, Text.int64?_intDecimal h]
  have hchars : ∀ c ∈ (toString n).toList, c = '-' ∨ Text.isDigit c = true := by
    intro c hc
    rw [Text.toString_eq_intDecimal, String.toList_ofList] at hc
    exact mem_intDecimal hc
  have htimestamp : ¬ isTimestamp (toString n).toList = true := by
    intro htimestamp
    rcases hchars _ (mem_of_isTimestamp htimestamp) with hc | hc <;> cases hc
  have haddress : ¬ isAddress (toString n).toList = true := by
    intro haddress
    rcases mem_of_isAddress haddress with hmem | hmem
    · rcases hchars _ hmem with hc | hc <;> cases hc
    · rcases hchars _ hmem with hc | hc <;> cases hc
  refine ⟨hread, ?_⟩
  rw [refine, if_neg htimestamp, if_neg haddress, hread]
  rfl

end Refinement

/-! ## Literals -/

namespace Class

/-- What stands behind the digits of an integer in a language. -/
def Dialect.integerSuffix : Dialect → String
  | java _ => "L"
  | typescript => ""

private theorem Dialect.intLiteral_eq (d : Dialect) (n : Int) :
    d.intLiteral n = toString n ++ d.integerSuffix := by
  rw [Text.toString_eq_intDecimal]
  cases d with
  | java package => rfl
  | typescript => exact String.append_empty.symm

private theorem literal_number_eq_ok_iff {d : Dialect} {n : Json.Number} {key text : String}
    {quoted : Bool} :
    literal d .int64 (.number n) key quoted = .ok text ↔
      ∃ i : Int, (n.value = i ∧ Text.IsInt64 i) ∧ text = toString i ++ d.integerSuffix := by
  rw [literal_eq_ok_iff, literal?, Option.map_eq_some_iff]
  refine exists_congr fun i => and_congr (n.toInt64?_eq_some_iff i) ?_
  rw [d.intLiteral_eq]
  exact eq_comm

/-- A number is of the kind of integers exactly if its value is an integer of 64 bits. -/
theorem classify_eq_int64_iff (n : Json.Number) :
    classify n = .int64 ↔ ∃ i : Int, n.value = i ∧ Text.IsInt64 i := by
  have hsome : n.toInt64?.isSome = true ↔ ∃ i : Int, n.value = i ∧ Text.IsInt64 i := by
    rw [Option.isSome_iff_exists]
    exact exists_congr n.toInt64?_eq_some_iff
  rw [classify_eq, ← hsome]
  split
  · next h => exact iff_of_true rfl h
  · next h => exact iff_of_false (by decide) h

private theorem isInt64_iff {n : Int} : Text.IsInt64 n ↔ -2 ^ 63 ≤ n ∧ n ≤ 2 ^ 63 - 1 := by
  rw [Text.IsInt64, Text.int64Min, Text.int64Max]
  norm_num

/-- A number is of the kind of integers exactly if its value is an integer of 64 bits, signed, and
exactly then it has a literal as an integer, which is that integer in decimals and the suffix of
the language.  A string that is such an integer in decimals is taken for a quoted one, and its
literal is that of every number with this value. -/
theorem integers_exact (d : Dialect) (key : String) (quoted : Bool) :
    (∀ n : Json.Number,
      (classify n = .int64 ↔ ∃ i : Int, n.value = i ∧ -2 ^ 63 ≤ i ∧ i ≤ 2 ^ 63 - 1) ∧
      (classify n = .int64 ↔ ∃ text, literal d .int64 (.number n) key quoted = .ok text) ∧
      ∀ text, literal d .int64 (.number n) key quoted = .ok text ↔
        ∃ i : Int, (n.value = i ∧ -2 ^ 63 ≤ i ∧ i ≤ 2 ^ 63 - 1) ∧
          text = toString i ++ d.integerSuffix) ∧
      ∀ m : Int, -2 ^ 63 ≤ m → m ≤ 2 ^ 63 - 1 →
        Refinement.refine (toString m) = ⟨.int64, true⟩ ∧
        literal d .int64 (.string (toString m)) key true = .ok (toString m ++ d.integerSuffix) ∧
        ∀ n : Json.Number, n.value = m →
          literal d .int64 (.string (toString m)) key true =
            literal d .int64 (.number n) key quoted := by
  simp only [← isInt64_iff]
  constructor
  · intro n
    refine ⟨classify_eq_int64_iff n, ?_, fun text => literal_number_eq_ok_iff⟩
    rw [classify_eq_int64_iff]
    constructor
    · rintro ⟨i, hi⟩
      exact ⟨_, literal_number_eq_ok_iff.mpr ⟨i, hi, rfl⟩⟩
    · rintro ⟨text, htext⟩
      obtain ⟨i, hi, -⟩ := literal_number_eq_ok_iff.mp htext
      exact ⟨i, hi⟩
  · intro m hlow hhigh
    have hm : Text.IsInt64 m := isInt64_iff.mpr ⟨hlow, hhigh⟩
    obtain ⟨hread, hrefine⟩ := Refinement.refine_toString hm
    have hstring : literal d .int64 (.string (toString m)) key true =
        .ok (toString m ++ d.integerSuffix) := by
      rw [literal_eq_ok_iff, literal?, if_pos rfl, hread, Option.map_some, d.intLiteral_eq]
    refine ⟨hrefine, hstring, ?_⟩
    intro n hn
    rw [hstring]
    exact (literal_number_eq_ok_iff.mpr ⟨m, ⟨hn, hm⟩, rfl⟩).symm

/-- The least integer of 64 bits, in a string and as a double. -/
theorem integers_exact_int64Min :
    Refinement.refine (toString (-2 ^ 63 : Int)) = ⟨.int64, true⟩ ∧
      literal (.java "app") .int64 (.string (toString (-2 ^ 63 : Int))) "n" true =
        literal (.java "app") .int64 (.number (.double (.ofInt Text.int64Min))) "n" false := by
  have h := (integers_exact (.java "app") "n" false).2 (-2 ^ 63) (by decide) (by decide)
  refine ⟨h.1, h.2.2 _ ?_⟩
  exact_mod_cast Binary64.value_ofInt_int64Min

end Class

end Exemplar
