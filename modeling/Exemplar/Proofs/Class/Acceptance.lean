import Exemplar.Class.Literal
import Exemplar.Proofs.Json.NumberValue
import Exemplar.Proofs.Shape.Tree

/-!
# Accepted values

Which values the kinds of scalars accept, without regard to how a language writes them.  The main
statements: a literal exists exactly for the accepted values, and the kind that an inference finds
for a scalar accepts that scalar.
-/

namespace Exemplar.Class

/-- Whether a kind accepts a value as a scalar.  Only quoted numbers and truth values are read from
strings. -/
def Accepts (quoted : Bool) : ScalarKind → Json.Value → Prop
  | .string, v | .timestamp, v | .ipAddress, v =>
    match v with
    | .null | .string _ => True
    | _ => False
  | .any, v =>
    match v with
    | .array _ | .object _ => False
    | _ => True
  | .bool, v =>
    match v with
    | .bool _ => True
    | .string s => quoted = true ∧ ∃ b, Refinement.bool? s = some b
    | _ => False
  | .int64, v =>
    match v with
    | .number n => ∃ i : Int, n.value = i ∧ Text.IsInt64 i
    | .string s => quoted = true ∧ ∃ i, Refinement.int64? s = some i
    | _ => False
  | .float64, v =>
    match v with
    | .number _ => True
    | .string s => quoted = true ∧ ∃ x, Refinement.float64? s = some x
    | _ => False

private theorem isSome_map_iff {α : Type} {x : Option α} {f : α → String} :
    (x.map f).isSome ↔ ∃ a, x = some a := by
  rw [Option.isSome_map, Option.isSome_iff_exists]

private theorem isSome_quoted_iff {α : Type} {quoted : Bool} {x : Option α} {f : α → String} :
    (if quoted then x.map f else none).isSome ↔ quoted = true ∧ ∃ a, x = some a := by
  cases quoted with
  | false => simp
  | true => rw [if_pos rfl, isSome_map_iff]; simp

/-- The literal for an optional value that was read from a string. -/
theorem exists_of_quoted {α : Type} {quoted : Bool} {x : Option α} {f : α → String}
    {text : String} (h : (if quoted then x.map f else none) = some text) : ∃ a, f a = text := by
  split at h
  · obtain ⟨a, -, ha⟩ := Option.map_eq_some_iff.mp h
    exact ⟨a, ha⟩
  · cases h

/-- A literal exists exactly for the values that the kind accepts, in every language. -/
theorem isSome_literal?_iff (d : Dialect) (quoted : Bool) (kind : ScalarKind) (v : Json.Value) :
    (literal? d quoted kind v).isSome ↔ Accepts quoted kind v := by
  match kind, v with
  | .string, .null | .string, .string _ | .timestamp, .null | .timestamp, .string _
  | .ipAddress, .null | .ipAddress, .string _ => simp [literal?, Accepts]
  | .string, .bool _ | .string, .number _ | .string, .array _ | .string, .object _
  | .timestamp, .bool _ | .timestamp, .number _ | .timestamp, .array _ | .timestamp, .object _
  | .ipAddress, .bool _ | .ipAddress, .number _ | .ipAddress, .array _ | .ipAddress, .object _ =>
    simp [literal?, Accepts]
  | .any, .null | .any, .bool _ | .any, .number _ | .any, .string _ | .any, .array _
  | .any, .object _ => simp [literal?, Accepts]
  | .bool, .string s => exact isSome_quoted_iff
  | .bool, .bool _ | .bool, .null | .bool, .number _ | .bool, .array _ | .bool, .object _ =>
    simp [literal?, Accepts]
  | .int64, .number n =>
    refine isSome_map_iff.trans (exists_congr fun i => ?_)
    exact n.toInt64?_eq_some_iff i
  | .int64, .string s => exact isSome_quoted_iff
  | .int64, .null | .int64, .bool _ | .int64, .array _ | .int64, .object _ =>
    simp [literal?, Accepts]
  | .float64, .string s => exact isSome_quoted_iff
  | .float64, .number _ | .float64, .null | .float64, .bool _ | .float64, .array _
  | .float64, .object _ => simp [literal?, Accepts]

/-- A literal is a text exactly if the kind accepts the value and it is written so. -/
theorem literal_eq_ok_iff {d : Dialect} {kind : ScalarKind} {v : Json.Value} {key text : String}
    {quoted : Bool} :
    literal d kind v key quoted = .ok text ↔ literal? d quoted kind v = some text := by
  rw [literal]
  cases literal? d quoted kind v with
  | some text' => simp
  | none => simp

instance (quoted : Bool) (kind : ScalarKind) (v : Json.Value) :
    Decidable (Accepts quoted kind v) :=
  decidable_of_iff _ (isSome_literal?_iff .typescript quoted kind v)

/-- A string is accepted by the kind that it is refined to, quoted or not as it was found. -/
theorem accepts_refine (s : String) :
    Accepts (Refinement.refine s).quoted (Refinement.refine s).kind (.string s) := by
  rw [Refinement.refine]
  split
  · exact trivial
  · split
    · exact trivial
    · split
      · next h => exact ⟨rfl, Option.isSome_iff_exists.mp h⟩
      · split
        · next h => exact ⟨rfl, Option.isSome_iff_exists.mp h⟩
        · split
          · next h => exact ⟨rfl, Option.isSome_iff_exists.mp h⟩
          · exact trivial

/-- A number is accepted by the kind that it is taken for. -/
theorem accepts_classify (n : Json.Number) : Accepts false (classify n) (.number n) := by
  rw [classify_eq]
  split
  · next h =>
    obtain ⟨i, hi⟩ := Option.isSome_iff_exists.mp h
    exact ⟨i, (n.toInt64?_eq_some_iff i).mp hi⟩
  · exact trivial

/-- A scalar is accepted by the kind that an inference finds for it. -/
theorem accepts_leafKind {o : InferOptions} {v : Json.Value} {r : Refinement.Refined}
    (h : leafKind? o v = some r) : Accepts r.quoted r.kind v := by
  match v with
  | .null | .bool _ =>
    obtain rfl := Option.some.inj h
    exact trivial
  | .number n =>
    obtain rfl := Option.some.inj h
    exact accepts_classify n
  | .string s =>
    obtain rfl := Option.some.inj h
    rw [stringKind]
    split
    · exact accepts_refine s
    · exact trivial
  | .array _ | .object _ => cases h

end Exemplar.Class
