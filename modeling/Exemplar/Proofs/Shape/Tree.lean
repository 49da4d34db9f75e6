import Exemplar.Proofs.Outcome
import Exemplar.Shape.Inference

/-!
# The tree of an inference

Inference without a registry: the shape alone, or the first error.  The members of an object are
read one after the other in the order of their keys.  An induction over the values for which there
is a tree has one case for each way in which a field comes about.
-/

namespace Exemplar

/-- The name that an object which a field holds directly is given. -/
def nestName? (nesting : Nesting) (key : String) : Option String :=
  match nesting with
  | .inline => none
  | .named => some (Ident.ofKey key)

mutual

/-- The field for a value under a key, as a tree. -/
def treeField (o : InferOptions) (key : String) : Json.Value → Except Error Field
  | .null => .ok (scalarField key .any .null)
  | .bool b => .ok (scalarField key .bool (.bool b))
  | .number n => .ok (scalarField key (classify n) (.number n))
  | .string s =>
    .ok (scalarField key (stringKind o s).kind (.string s) (stringKind o s).quoted)
  | .array [] => .ok (arrayField key (.scalar .any) [])
  | .array (.null :: rest) => .ok (arrayField key (.scalar .any) (.null :: rest))
  | .array (.bool b :: rest) => .ok (arrayField key (.scalar .bool) (.bool b :: rest))
  | .array (.number n :: rest) => .ok (arrayField key (.scalar (classify n)) (.number n :: rest))
  | .array (.string s :: rest) => .ok (arrayField key (.scalar .string) (.string s :: rest))
  | .array (.object ms :: rest) =>
    ((sortByKey (treeMembers o ms)).mapM Prod.snd).map fun fields =>
      arrayField key (.object (some (Ident.ofKey key)) fields) (.object ms :: rest)
  | .array (.array [] :: _) =>
    .error (.shapeMismatch key .nonEmptyNestedArray (.value .emptyArray))
  | .array (.array (first :: _) :: _) => treeField o key first
  | .object ms =>
    ((sortByKey (treeMembers o ms)).mapM Prod.snd).map fun fields =>
      objectField key (.object (nestName? o.nesting key) fields)
termination_by structural v => v

/-- The fields for the members of an object, each under its key. -/
def treeMembers (o : InferOptions) :
    List (String × Json.Value) → List (String × Except Error Field)
  | [] => []
  | (key, v) :: ms => (key, treeField o key v) :: treeMembers o ms
termination_by structural ms => ms

end

/-- The fields of an object as trees. -/
def treeFields (o : InferOptions) (members : List (String × Json.Value)) :
    Except Error (List Field) :=
  (sortByKey (treeMembers o members)).mapM Prod.snd

/-- The root of a document as a tree. -/
def treeRoot (o : InferOptions) : Json.Value → Except Error Node
  | .object ms => (treeFields o ms).map (.object none)
  | .array (.object ms :: _) => (treeFields o ms).map fun fields => .array (.object none fields)
  | .array (first :: _) => .error (.rootShape (.value first.kind))
  | v => .error (.rootShape (.value v.kind))

/-! ## The fields of an object -/

private theorem treeMembers_eq (o : InferOptions) (ms : List (String × Json.Value)) :
    treeMembers o ms = ms.map fun m => (m.1, treeField o m.1 m.2) := by
  induction ms with
  | nil => rfl
  | cons m ms ih => rw [treeMembers, ih, List.map_cons]

/-- The fields of an object are those of its members in the order of their keys. -/
theorem treeFields_eq (o : InferOptions) (ms : List (String × Json.Value)) :
    treeFields o ms = (sortByKey ms).mapM fun m => treeField o m.1 m.2 := by
  have hsort := sortByKey_map (fun m : String × Json.Value => (m.1, treeField o m.1 m.2))
    (fun _ => rfl) ms
  rw [treeFields, treeMembers_eq, hsort, List.mapM_map]
  rfl

/-- The field for an array of objects. -/
theorem treeField_objects (o : InferOptions) (key : String) (ms : List (String × Json.Value))
    (rest : List Json.Value) :
    treeField o key (.array (.object ms :: rest)) = (treeFields o ms).map fun fields =>
      arrayField key (.object (some (Ident.ofKey key)) fields) (.object ms :: rest) := rfl

/-- The field for an object. -/
theorem treeField_object (o : InferOptions) (key : String) (ms : List (String × Json.Value)) :
    treeField o key (.object ms) = (treeFields o ms).map fun fields =>
      objectField key (.object (nestName? o.nesting key) fields) := rfl

/-- Each field of an object comes from the member that stands at its place when the members are
sorted. -/
theorem treeFields_ok {o : InferOptions} {ms : List (String × Json.Value)} {fields : List Field}
    (h : treeFields o ms = .ok fields) :
    List.Forall₂ (fun m f => treeField o m.1 m.2 = .ok f) (sortByKey ms) fields := by
  rw [treeFields_eq] at h
  exact mapM_eq_ok_iff.mp h

/-! ## Induction over values -/

/-- What a scalar is taken for, and whether it is quoted; none for an array or an object. -/
def leafKind? (o : InferOptions) : Json.Value → Option Refinement.Refined
  | .null => some ⟨.any, false⟩
  | .bool _ => some ⟨.bool, false⟩
  | .number n => some ⟨classify n, false⟩
  | .string s => some (stringKind o s)
  | .array _ | .object _ => none

/-- What the items of an array are taken for if it does not begin with an array or an object. -/
def elementKind? : List Json.Value → Option ScalarKind
  | [] | .null :: _ => some .any
  | .bool _ :: _ => some .bool
  | .number n :: _ => some (classify n)
  | .string _ :: _ => some .string
  | .array _ :: _ | .object _ :: _ => none

/-- The field for a scalar. -/
theorem treeField_scalar {o : InferOptions} {v : Json.Value} {r : Refinement.Refined}
    (h : leafKind? o v = some r) (key : String) :
    treeField o key v = .ok (scalarField key r.kind v r.quoted) := by
  match v with
  | .null | .bool _ | .number _ | .string _ =>
    obtain rfl := Option.some.inj h
    rfl
  | .array _ | .object _ => cases h

/-- The field for an array of scalars. -/
theorem treeField_scalars {items : List Json.Value} {kind : ScalarKind}
    (h : elementKind? items = some kind) (o : InferOptions) (key : String) :
    treeField o key (.array items) = .ok (arrayField key (.scalar kind) items) := by
  match items with
  | [] | .null :: _ | .bool _ :: _ | .number _ :: _ | .string _ :: _ =>
    obtain rfl := Option.some.inj h
    rfl
  | .array _ :: _ | .object _ :: _ => cases h

/-- The cases of an induction over values under keys, on the way that an inference takes through
them: scalars, arrays of scalars, arrays of objects, arrays of arrays and objects. -/
structure ValueCases (o : InferOptions) (motive : String → Json.Value → Prop) : Prop where
  scalar : ∀ key v r, leafKind? o v = some r → motive key v
  scalars : ∀ key items kind, elementKind? items = some kind → motive key (.array items)
  objects : ∀ key ms rest, (∀ m ∈ ms, motive m.1 m.2) →
    motive key (.array (.object ms :: rest))
  stuck : ∀ key rest, motive key (.array (.array [] :: rest))
  nested : ∀ key first inner rest, motive key first →
    motive key (.array (.array (first :: inner) :: rest))
  object : ∀ key ms, (∀ m ∈ ms, motive m.1 m.2) → motive key (.object ms)

mutual

/-- A property holds of every value under every key if it does for scalars and for arrays of
scalars, for objects and arrays of objects whose members have it, for an array that begins with an
empty one, and for an array of arrays if it does for the first inner item. -/
theorem value_induct {o : InferOptions} {motive : String → Json.Value → Prop}
    (cases : ValueCases o motive) (key : String) (v : Json.Value) : motive key v := by
  match v with
  | .null | .bool _ | .number _ | .string _ => exact cases.scalar key _ _ rfl
  | .array [] | .array (.null :: _) | .array (.bool _ :: _) | .array (.number _ :: _)
  | .array (.string _ :: _) => exact cases.scalars key _ _ rfl
  | .array (.object ms :: rest) => exact cases.objects key ms rest (members_induct cases ms)
  | .array (.array [] :: rest) => exact cases.stuck key rest
  | .array (.array (first :: inner) :: rest) =>
    exact cases.nested key first inner rest (value_induct cases key first)
  | .object ms => exact cases.object key ms (members_induct cases ms)
termination_by structural v

private theorem members_induct {o : InferOptions} {motive : String → Json.Value → Prop}
    (cases : ValueCases o motive) (ms : List (String × Json.Value)) :
    ∀ m ∈ ms, motive m.1 m.2 := by
  match ms with
  | [] =>
    intro m hm
    cases hm
  | (key, v) :: ms =>
    intro m hm
    rcases List.mem_cons.mp hm with rfl | hm
    · exact value_induct cases key v
    · exact members_induct cases ms m hm
termination_by structural ms

end

/-! ## Induction over values that have a tree -/

/-- The cases of an induction over values that have a tree: scalars, arrays of scalars, arrays of
objects, arrays of arrays and objects. -/
structure TreeCases (o : InferOptions) (motive : String → Json.Value → Field → Prop) : Prop where
  scalar : ∀ key v r, leafKind? o v = some r →
    motive key v (scalarField key r.kind v r.quoted)
  scalars : ∀ key items kind, elementKind? items = some kind →
    motive key (.array items) (arrayField key (.scalar kind) items)
  objects : ∀ key ms rest fields, treeFields o ms = .ok fields →
    List.Forall₂ (fun m f => motive m.1 m.2 f) (sortByKey ms) fields →
    motive key (.array (.object ms :: rest))
      (arrayField key (.object (some (Ident.ofKey key)) fields) (.object ms :: rest))
  nested : ∀ key first inner rest f, motive key first f →
    motive key (.array (.array (first :: inner) :: rest)) f
  object : ∀ key ms fields, treeFields o ms = .ok fields →
    List.Forall₂ (fun m f => motive m.1 m.2 f) (sortByKey ms) fields →
    motive key (.object ms) (objectField key (.object (nestName? o.nesting key) fields))

section Induction

variable {o : InferOptions} {motive : String → Json.Value → Field → Prop}

private theorem forall₂_of_members {ms : List (String × Json.Value)} {fields : List Field}
    (hms : ∀ m ∈ ms, ∀ f, treeField o m.1 m.2 = .ok f → motive m.1 m.2 f)
    (h : treeFields o ms = .ok fields) :
    List.Forall₂ (fun m f => motive m.1 m.2 f) (sortByKey ms) fields := by
  have hfields := treeFields_ok h
  rw [List.forall₂_iff_get] at hfields ⊢
  refine ⟨hfields.1, fun i hi hi' => ?_⟩
  exact hms _ ((sortByKey_perm ms).mem_iff.mp (List.get_mem _ _)) _ (hfields.2 i hi hi')

/-- A property holds of a value, its key and its field if it does for scalars, for arrays of
scalars, for objects and arrays of objects whose fields have it, and for an array of arrays if it
does for the first inner item. -/
theorem treeField_induct (cases : TreeCases o motive) (key : String) (v : Json.Value) (f : Field)
    (h : treeField o key v = .ok f) : motive key v f := by
  refine value_induct (o := o)
    (motive := fun key v => ∀ f, treeField o key v = .ok f → motive key v f)
    ⟨?scalar, ?scalars, ?objects, ?stuck, ?nested, ?object⟩ key v f h
  case scalar =>
    intro key v r hr f h
    rw [treeField_scalar hr] at h
    obtain rfl := Except.ok.inj h
    exact cases.scalar key v r hr
  case scalars =>
    intro key items kind hkind f h
    rw [treeField_scalars hkind] at h
    obtain rfl := Except.ok.inj h
    exact cases.scalars key items kind hkind
  case objects =>
    intro key ms rest ih f h
    obtain ⟨fields, hfields, rfl⟩ := map_eq_ok_iff.mp h
    exact cases.objects key ms rest fields hfields (forall₂_of_members ih hfields)
  case stuck =>
    intro key rest f h
    cases h
  case nested =>
    intro key first inner rest ih f h
    exact cases.nested key first inner rest f (ih f h)
  case object =>
    intro key ms ih f h
    obtain ⟨fields, hfields, rfl⟩ := map_eq_ok_iff.mp h
    exact cases.object key ms fields hfields (forall₂_of_members ih hfields)

end Induction

end Exemplar
