import Mathlib.Data.List.Nodup
import Exemplar.Json.Value
import Exemplar.Proofs.Json.WellFormed
import Exemplar.Proofs.Text.Utf8Order
import Exemplar.Shape.KeyOrder

/-!
# Paths to values

What an inference reaches in a document, and by which keys.  The items of an array are reached
under the key of the array, so a path is a list of keys only; paths stand in the order in which
fields are emitted.  The main statements: sorted members stand in that order strictly, and a path
leads to one object at most.
-/

namespace Exemplar

/-! ## The order of fields -/

/-- Whether a key stands before another: `id` before all others, and these by their bytes. -/
def KeyBefore (a b : String) : Prop :=
  b ≠ leadingKey ∧ (a = leadingKey ∨ Text.Utf8.encode a.toList < Text.Utf8.encode b.toList)

private theorem keyBefore_iff {a b : String} : KeyBefore a b ↔ KeyLe a b ∧ a ≠ b := by
  rw [KeyBefore, KeyLe, Text.Utf8.encode_lt_encode_iff, ← String.lt_iff]
  constructor
  · rintro ⟨hb, rfl | hlt⟩
    · exact ⟨.inl rfl, hb.symm⟩
    · exact ⟨.inr ⟨hb, Std.le_of_lt hlt⟩, String.ne_of_lt hlt⟩
  · rintro ⟨rfl | ⟨hb, hle⟩, hne⟩
    · exact ⟨hne.symm, .inl rfl⟩
    · exact ⟨hb, .inr (Std.lt_of_le_of_ne hle hne)⟩

/-- Sorted entries with distinct keys stand strictly in the order of their keys. -/
theorem sortByKey_strict {α : Type} {es : List (String × α)} (h : (es.map Prod.fst).Nodup) :
    (sortByKey es).Pairwise fun x y => KeyBefore x.1 y.1 := by
  have hnodup : ((sortByKey es).map Prod.fst).Nodup := ((sortByKey_perm es).map _).nodup_iff.mpr h
  have hne : (sortByKey es).Pairwise fun x y => x.1 ≠ y.1 := List.pairwise_map.mp hnodup
  refine (sortByKey_sorted es).imp₂ ?_ hne
  intro x y hle hne
  exact keyBefore_iff.mpr ⟨hle, hne⟩

/-- Whether a path stands before another: at the first key in which they differ, or because the
other one goes on. -/
def PathBefore : List String → List String → Prop :=
  List.Lex KeyBefore

/-- Whether a path is the first of those with a property. -/
def IsFirst (P : List String → Prop) (path : List String) : Prop :=
  P path ∧ ∀ other, P other → other ≠ path → PathBefore path other

/-! ## What is reached -/

/-- Whether a value is reached from another one by a path of keys: through the members of objects,
through the members of the first object in an array, and through the first item in an array of
arrays, which stands under the key of that array. -/
inductive Reaches : Json.Value → List String → Json.Value → Prop
  | here (v : Json.Value) : Reaches v [] v
  | unwrapped {first : Json.Value} {path : List String} {w : Json.Value}
      (inner rest : List Json.Value) (h : Reaches first path w) :
      Reaches (.array (.array (first :: inner) :: rest)) path w
  | item {ms : List (String × Json.Value)} {key : String} {v : Json.Value} {path : List String}
      {w : Json.Value} (rest : List Json.Value) (hm : (key, v) ∈ ms) (h : Reaches v path w) :
      Reaches (.array (.object ms :: rest)) (key :: path) w
  | member {ms : List (String × Json.Value)} {key : String} {v : Json.Value} {path : List String}
      {w : Json.Value} (hm : (key, v) ∈ ms) (h : Reaches v path w) :
      Reaches (.object ms) (key :: path) w

/-- The members of an object, or of the object that an array begins with. -/
def Json.Value.record? : Json.Value → Option (List (String × Json.Value))
  | .object ms | .array (.object ms :: _) => some ms
  | _ => none

/-- A value has a record exactly if it is an object or an array that begins with one. -/
theorem record?_eq_some_iff {v : Json.Value} {ms : List (String × Json.Value)} :
    v.record? = some ms ↔ v = .object ms ∨ ∃ rest, v = .array (.object ms :: rest) := by
  constructor
  · intro h
    match v with
    | .object _ => exact .inl (congrArg _ (Option.some.inj h))
    | .array (.object _ :: rest) =>
      obtain rfl := Option.some.inj h
      exact .inr ⟨rest, rfl⟩
    | .null | .bool _ | .number _ | .string _ | .array [] => cases h
    | .array (.null :: _) | .array (.bool _ :: _) | .array (.number _ :: _)
    | .array (.string _ :: _) | .array (.array _ :: _) => cases h
  · rintro (rfl | ⟨rest, rfl⟩) <;> rfl

/-- Whether a path leads to an object, or to an array that begins with one, with these members. -/
def HasRecord (v : Json.Value) (path : List String) (ms : List (String × Json.Value)) : Prop :=
  ∃ w, Reaches v path w ∧ w.record? = some ms

/-- What an object leads to, the array that begins with it leads to as well. -/
theorem HasRecord.objects {ms ns : List (String × Json.Value)} {path : List String}
    (h : HasRecord (.object ms) path ns) (rest : List Json.Value) :
    HasRecord (.array (.object ms :: rest)) path ns := by
  obtain ⟨w, hreach, hw⟩ := h
  cases hreach with
  | here => exact ⟨_, .here _, hw⟩
  | member hm hreach => exact ⟨w, .item rest hm hreach, hw⟩

/-! ## Well-formed values -/

private theorem Json.Value.WellFormed.member_unique {ms : List (String × Json.Value)}
    (h : (Json.Value.object ms).WellFormed) {key : String} {v w : Json.Value}
    (hv : (key, v) ∈ ms) (hw : (key, w) ∈ ms) : v = w := by
  have hkeys : (ms.map Prod.fst).Nodup := h.1
  exact congrArg Prod.snd (List.inj_on_of_nodup_map hkeys hv hw rfl)

/-- A path in a well-formed value leads to one object at most. -/
theorem HasRecord.unique {v : Json.Value} (hv : v.WellFormed) {path : List String}
    {ms ns : List (String × Json.Value)} (hms : HasRecord v path ms) (hns : HasRecord v path ns) :
    ms = ns := by
  obtain ⟨w, hw, hms⟩ := hms
  obtain ⟨w', hw', hns⟩ := hns
  induction hw with
  | here v =>
    obtain rfl | ⟨rest, rfl⟩ := record?_eq_some_iff.mp hms
    · cases hw'
      exact Option.some.inj hns
    · cases hw'
      exact Option.some.inj hns
  | unwrapped inner rest _ ih =>
    cases hw' with
    | here => cases hns
    | unwrapped _ _ hw' => exact ih hv.1.1 hms hw'
  | item rest hm _ ih =>
    cases hw' with
    | item _ hm' hw' =>
      obtain rfl := hv.1.member_unique hm hm'
      exact ih (hv.1.member hm) hms hw'
  | member hm _ ih =>
    cases hw' with
    | member hm' hw' =>
      obtain rfl := hv.member_unique hm hm'
      exact ih (hv.member hm) hms hw'

end Exemplar
