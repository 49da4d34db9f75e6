import Exemplar.Proofs.Json.Reordering

/-!
# Functions that keep the shape of values

The shape of a value is what is left of it when its objects are taken in the order of their keys
and its arrays for their first items.  Two functions keep it: sorting the members of all objects,
and cutting all arrays to their first items.
-/

namespace Exemplar.Json

/-- Whether a value has no parts that could be changed: a scalar or the empty array. -/
def Value.isLeaf : Value → Bool
  | .null | .bool _ | .number _ | .string _ | .array [] => true
  | .array (_ :: _) | .object _ => false

/-- Whether a function changes no value without parts, and changes the first item of an array and
the members of an object in their place, objects up to the order of their members. -/
structure KeepsShape (g : Value → Value) : Prop where
  leaf : ∀ v, v.isLeaf = true → g v = v
  array : ∀ first rest, ∃ rest', g (.array (first :: rest)) = .array (g first :: rest')
  object : ∀ ms, ∃ ns, g (.object ms) = .object ns ∧
    sortByKey ns = (sortByKey ms).map fun m => (m.1, g m.2)

namespace KeepsShape

variable {g : Value → Value}

/-- A relation holds between a value and what such a function makes of it if it does for values
without parts, for arrays and for objects. -/
theorem relates {R : Value → Value → Prop} (hg : KeepsShape g) (hleaf : ∀ v, R v v)
    (harray : ∀ first rest rest', R (.array (first :: rest)) (.array (g first :: rest')))
    (hobject : ∀ ms ns, sortByKey ns = ((sortByKey ms).map fun m => (m.1, g m.2)) →
      R (.object ms) (.object ns)) (v : Value) : R v (g v) := by
  match v with
  | .null | .bool _ | .number _ | .string _ | .array [] =>
    rw [hg.leaf _ rfl]
    exact hleaf _
  | .array (first :: rest) =>
    obtain ⟨rest', h⟩ := hg.array first rest
    rw [h]
    exact harray first rest rest'
  | .object ms =>
    obtain ⟨ns, h, hns⟩ := hg.object ms
    rw [h]
    exact hobject ms ns hns

/-- A function that keeps shapes keeps the kind of a value. -/
theorem kind_eq (hg : KeepsShape g) (v : Value) : (g v).kind = v.kind :=
  hg.relates (R := fun v w => w.kind = v.kind) (fun _ => rfl) (fun _ _ _ => rfl)
    (fun _ _ _ => rfl) v

end KeepsShape

/-- Sorting the members of all objects keeps the shape of a value. -/
theorem keepsShape_sorted : KeepsShape Value.sorted where
  leaf v hv := by
    match v with
    | .null | .bool _ | .number _ | .string _ | .array [] => rfl
    | .array (_ :: _) | .object _ => cases hv
  array _ rest := ⟨itemsSorted rest, rfl⟩
  object ms := by
    refine ⟨_, rfl, ?_⟩
    rw [sortByKey_sortByKey, sortByKey_membersSorted]

/-! ## Heads of arrays -/

mutual

/-- A value with every array in it, at every depth, cut to its first item. -/
def Value.heads : Value → Value
  | .null => .null
  | .bool b => .bool b
  | .number n => .number n
  | .string s => .string s
  | .array [] => .array []
  | .array (first :: _) => .array [first.heads]
  | .object members => .object (membersHeads members)
termination_by structural v => v

/-- Members with every array inside their values cut to its first item. -/
def membersHeads : List (String × Value) → List (String × Value)
  | [] => []
  | (key, v) :: ms => (key, v.heads) :: membersHeads ms
termination_by structural ms => ms

end

example : (Value.array [.array [.bool true, .null], .array []]).heads =
    .array [.array [.bool true]] :=
  rfl

private theorem membersHeads_eq_map (ms : List (String × Value)) :
    membersHeads ms = ms.map fun m => (m.1, m.2.heads) := by
  induction ms with
  | nil => rfl
  | cons m ms ih => rw [membersHeads, ih, List.map_cons]

/-- Cutting all arrays to their first items keeps the shape of a value. -/
theorem keepsShape_heads : KeepsShape Value.heads where
  leaf v hv := by
    match v with
    | .null | .bool _ | .number _ | .string _ | .array [] => rfl
    | .array (_ :: _) | .object _ => cases hv
  array _ _ := ⟨[], rfl⟩
  object ms := by
    refine ⟨_, rfl, ?_⟩
    rw [membersHeads_eq_map]
    exact sortByKey_map (fun m : String × Value => (m.1, m.2.heads)) (fun _ => rfl) ms

end Exemplar.Json
