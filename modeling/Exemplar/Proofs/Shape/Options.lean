import Exemplar.Proofs.Shape.Tree

/-!
# One value under two choices of options

Two inferences of one value that differ in their options alone.  The main statement: if one function
takes the fields for scalars, arrays and objects under one choice to those under the other, then it
does so with the fields of every value, and the two inferences fail alike.
-/

namespace Exemplar

variable {o o' : InferOptions} {f : Field → Field}

/-- Whether a function takes each way in which a field comes about under one choice of options to
that under another one: scalars, arrays of scalars, arrays of objects and objects. -/
structure TakesFields (o o' : InferOptions) (f : Field → Field) : Prop where
  scalar : ∀ {v r r'}, leafKind? o v = some r → leafKind? o' v = some r' → ∀ key,
    f (scalarField key r.kind v r.quoted) = scalarField key r'.kind v r'.quoted
  scalars : ∀ key kind items,
    f (arrayField key (.scalar kind) items) = arrayField key (.scalar kind) items
  objects : ∀ key name fields items, f (arrayField key (.object (some name) fields) items) =
    arrayField key (.object (some name) (fields.map f)) items
  object : ∀ key fields, f (objectField key (.object (nestName? o.nesting key) fields)) =
    objectField key (.object (nestName? o'.nesting key) (fields.map f))

private theorem exists_leafKind {v : Json.Value} {r : Refinement.Refined}
    (h : leafKind? o v = some r) (o' : InferOptions) : ∃ r', leafKind? o' v = some r' := by
  match v with
  | .null | .bool _ | .number _ | .string _ => exact ⟨_, rfl⟩
  | .array _ | .object _ => cases h

private theorem treeFields_of_members {ms : List (String × Json.Value)}
    (h : ∀ m ∈ ms, treeField o' m.1 m.2 = (treeField o m.1 m.2).map f) :
    treeFields o' ms = (treeFields o ms).map (List.map f) := by
  rw [treeFields_eq, treeFields_eq, map_mapM]
  exact mapM_congr fun m hm => h m ((sortByKey_perm ms).mem_iff.mp hm)

private theorem TakesFields.treeField_eq (h : TakesFields o o' f) (key : String) (v : Json.Value) :
    treeField o' key v = (treeField o key v).map f := by
  refine value_induct (o := o)
    (motive := fun key v => treeField o' key v = (treeField o key v).map f)
    ⟨?scalar, ?scalars, ?objects, ?stuck, ?nested, ?object⟩ key v
  case scalar =>
    intro key v r hr
    obtain ⟨r', hr'⟩ := exists_leafKind hr o'
    rw [treeField_scalar hr, treeField_scalar hr', Except.map, h.scalar hr hr']
  case scalars =>
    intro key items kind hkind
    rw [treeField_scalars hkind, treeField_scalars hkind, Except.map, h.scalars]
  case objects =>
    intro key ms rest ih
    rw [treeField_objects, treeField_objects, treeFields_of_members ih, map_map_outcome,
      map_map_outcome]
    simp only [h.objects]
  case stuck => exact fun _ _ => rfl
  case nested => exact fun _ _ _ _ ih => ih
  case object =>
    intro key ms ih
    rw [treeField_object, treeField_object, treeFields_of_members ih, map_map_outcome,
      map_map_outcome]
    simp only [h.object]

/-- The root of a value is taken to its root by a function on nodes that takes the fields of root
objects along. -/
theorem TakesFields.treeRoot_eq (h : TakesFields o o' f) {g : Node → Node}
    (hobject : ∀ fields, g (.object none fields) = .object none (fields.map f))
    (harray : ∀ fields, g (.array (.object none fields)) = .array (.object none (fields.map f)))
    (v : Json.Value) : treeRoot o' v = (treeRoot o v).map g := by
  have hfields : ∀ ms, treeFields o' ms = (treeFields o ms).map (List.map f) :=
    fun ms => treeFields_of_members fun m _ => h.treeField_eq m.1 m.2
  match v with
  | .null | .bool _ | .number _ | .string _ | .array [] => rfl
  | .array (.null :: _) | .array (.bool _ :: _) | .array (.number _ :: _)
  | .array (.string _ :: _) | .array (.array _ :: _) => rfl
  | .object ms =>
    rw [treeRoot, treeRoot, hfields, map_map_outcome, map_map_outcome]
    simp only [hobject]
  | .array (.object ms :: rest) =>
    rw [treeRoot, treeRoot, hfields, map_map_outcome, map_map_outcome]
    simp only [harray]

end Exemplar
