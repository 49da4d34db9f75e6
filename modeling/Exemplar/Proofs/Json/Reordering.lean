import Exemplar.Json.Value
import Exemplar.Shape.KeyOrder

/-!
# The order of members

Values that differ only in the order in which the members of their objects stand, and a form of
each value in which all members are sorted.  The main statement: values that differ only in this
order have one sorted form.
-/

namespace Exemplar

/-! ## Sorting sorted entries -/

private theorem sortByKey_of_pairwise {α : Type} {es : List (String × α)}
    (h : es.Pairwise fun x y => KeyLe x.1 y.1) : sortByKey es = es := by
  induction es with
  | nil => rfl
  | cons e es ih =>
    rw [List.pairwise_cons] at h
    change insertByKey e (sortByKey es) = e :: es
    rw [ih h.2]
    cases es with
    | nil => rfl
    | cons x es => rw [insertByKey, if_pos (h.1 x List.mem_cons_self)]

/-- Sorting twice is sorting once. -/
theorem sortByKey_sortByKey {α : Type} (es : List (String × α)) :
    sortByKey (sortByKey es) = sortByKey es :=
  sortByKey_of_pairwise (sortByKey_sorted es)

private theorem lookup_insertByKey {α : Type} (key : String) (e : String × α)
    (es : List (String × α)) : (insertByKey e es).lookup key = (e :: es).lookup key := by
  induction es with
  | nil => rfl
  | cons x es ih =>
    rw [insertByKey]
    split
    · rfl
    · next hle =>
      rw [List.lookup_cons, ih, List.lookup_cons, List.lookup_cons, List.lookup_cons]
      -- The two entries change places, so their keys must differ.
      cases hx : key == x.1 with
      | false => rfl
      | true =>
        cases he : key == e.1 with
        | false => rfl
        | true =>
          rw [← eq_of_beq hx, ← eq_of_beq he] at hle
          exact absurd ((KeyLe.total key key).elim id id) hle

/-- Sorting keeps what stands under each key. -/
theorem lookup_sortByKey {α : Type} (key : String) (es : List (String × α)) :
    (sortByKey es).lookup key = es.lookup key := by
  induction es with
  | nil => rfl
  | cons e es ih =>
    change (insertByKey e (sortByKey es)).lookup key = _
    rw [lookup_insertByKey, List.lookup_cons, List.lookup_cons, ih]

namespace Json

/-! ## Values up to the order of members -/

mutual

/-- Values that differ only in the order of the members of their objects, at any depth. -/
inductive Reordered : Value → Value → Prop
  | null : Reordered .null .null
  | bool (b : Bool) : Reordered (.bool b) (.bool b)
  | number (n : Number) : Reordered (.number n) (.number n)
  | string (s : String) : Reordered (.string s) (.string s)
  | array {xs ys : List Value} (items : ItemsReordered xs ys) : Reordered (.array xs) (.array ys)
  | object {ms ns ns' : List (String × Value)} (members : MembersReordered ms ns)
      (order : ns.Perm ns') : Reordered (.object ms) (.object ns')

/-- Items that differ so one by one. -/
inductive ItemsReordered : List Value → List Value → Prop
  | nil : ItemsReordered [] []
  | cons {x y : Value} {xs ys : List Value} (first : Reordered x y) (rest : ItemsReordered xs ys) :
      ItemsReordered (x :: xs) (y :: ys)

/-- Members under the same keys whose values differ so one by one. -/
inductive MembersReordered : List (String × Value) → List (String × Value) → Prop
  | nil : MembersReordered [] []
  | cons {x y : Value} {ms ns : List (String × Value)} (key : String) (first : Reordered x y)
      (rest : MembersReordered ms ns) : MembersReordered ((key, x) :: ms) ((key, y) :: ns)

end

mutual

/-- A value with the members of all its objects in the order of their keys. -/
def Value.sorted : Value → Value
  | .null => .null
  | .bool b => .bool b
  | .number n => .number n
  | .string s => .string s
  | .array items => .array (itemsSorted items)
  | .object members => .object (sortByKey (membersSorted members))
termination_by structural v => v

/-- Items with all members inside them sorted. -/
def itemsSorted : List Value → List Value
  | [] => []
  | v :: vs => v.sorted :: itemsSorted vs
termination_by structural vs => vs

/-- Members with all members inside their values sorted. -/
def membersSorted : List (String × Value) → List (String × Value)
  | [] => []
  | (key, v) :: ms => (key, v.sorted) :: membersSorted ms
termination_by structural ms => ms

end

/-- Items are sorted one by one. -/
theorem itemsSorted_eq_map (vs : List Value) : itemsSorted vs = vs.map Value.sorted := by
  induction vs with
  | nil => rfl
  | cons v vs ih => rw [itemsSorted, ih, List.map_cons]

private theorem membersSorted_eq_map (ms : List (String × Value)) :
    membersSorted ms = ms.map fun m => (m.1, m.2.sorted) := by
  induction ms with
  | nil => rfl
  | cons m ms ih => rw [membersSorted, ih, List.map_cons]

/-- The sorted members of an object are its members in order, each sorted inside. -/
theorem sortByKey_membersSorted (ms : List (String × Value)) :
    sortByKey (membersSorted ms) = (sortByKey ms).map fun m => (m.1, m.2.sorted) := by
  rw [membersSorted_eq_map]
  exact sortByKey_map (fun m : String × Value => (m.1, m.2.sorted)) (fun _ => rfl) ms

/-- What stands under a key in a sorted object is what stood there, sorted. -/
theorem lookup_sorted (key : String) (ms : List (String × Value)) :
    (sortByKey (membersSorted ms)).lookup key = (ms.lookup key).map Value.sorted := by
  rw [lookup_sortByKey, membersSorted_eq_map]
  induction ms with
  | nil => rfl
  | cons m ms ih =>
    rw [List.map_cons, List.lookup_cons, List.lookup_cons, ih]
    cases key == m.1 <;> rfl

/-! ## One sorted form -/

private theorem MembersReordered.keys_eq {ms ns : List (String × Value)} :
    MembersReordered ms ns → ms.map Prod.fst = ns.map Prod.fst
  | .nil => rfl
  | .cons key _ rest => congrArg (key :: ·) rest.keys_eq

mutual

/-- Values that differ only in the order of members have one sorted form. -/
theorem Reordered.sorted_eq {v w : Value} (h : Reordered v w) (hv : v.WellFormed) :
    v.sorted = w.sorted := by
  match h with
  | .null | .bool _ | .number _ | .string _ => rfl
  | .array items => exact congrArg Value.array (items.sorted_eq hv)
  | @Reordered.object ms ns ns' members order =>
    have hsorted : membersSorted ms = membersSorted ns := members.sorted_eq hv.2
    have hperm : (membersSorted ns).Perm (membersSorted ns') := by
      rw [membersSorted_eq_map, membersSorted_eq_map]
      exact order.map _
    have hkeys : ((membersSorted ns).map Prod.fst).Nodup := by
      rw [membersSorted_eq_map, List.map_map]
      exact members.keys_eq ▸ hv.1
    rw [Value.sorted, Value.sorted, hsorted, sortByKey_eq_of_perm hperm hkeys]

private theorem ItemsReordered.sorted_eq {xs ys : List Value} (h : ItemsReordered xs ys)
    (hxs : itemsWellFormed xs) : itemsSorted xs = itemsSorted ys := by
  match h with
  | .nil => rfl
  | .cons first rest => rw [itemsSorted, itemsSorted, first.sorted_eq hxs.1, rest.sorted_eq hxs.2]

private theorem MembersReordered.sorted_eq {ms ns : List (String × Value)}
    (h : MembersReordered ms ns)
    (hms : membersWellFormed ms) : membersSorted ms = membersSorted ns := by
  match h with
  | .nil => rfl
  | .cons key first rest =>
    rw [membersSorted, membersSorted, first.sorted_eq hms.1, rest.sorted_eq hms.2]

end

end Json

end Exemplar
