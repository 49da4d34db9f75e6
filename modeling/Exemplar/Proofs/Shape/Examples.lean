import Exemplar.Proofs.Json.Shape
import Exemplar.Proofs.Shape.Registry
import Exemplar.Shape.Root

/-!
# Examples in a model

Models that differ in their examples alone.  The main statement: the model of a value to which a
function is applied that keeps its shape is the model of the value with the function applied to the
examples.
-/

namespace Exemplar

/-! ## Changing examples -/

mutual

/-- A node with a function applied to each example in it. -/
def Node.mapExamples (g : Json.Value → Json.Value) : Node → Node
  | .scalar kind => .scalar kind
  | .array element => .array (element.mapExamples g)
  | .object name? fields => .object name? (fieldsMapExamples g fields)
termination_by structural node => node

/-- Fields with a function applied to each example in them. -/
def fieldsMapExamples (g : Json.Value → Json.Value) : List Field → List Field
  | [] => []
  | ⟨key, node, example?, quoted⟩ :: fields =>
    ⟨key, node.mapExamples g, example?.map g, quoted⟩ :: fieldsMapExamples g fields
termination_by structural fields => fields

end

/-- A field with a function applied to each example in it. -/
def fieldMapExamples (g : Json.Value → Json.Value) (f : Field) : Field where
  key := f.key
  node := f.node.mapExamples g
  example? := f.example?.map g
  quoted := f.quoted

/-- A named object with a function applied to each example in it. -/
def NamedObject.mapExamples (g : Json.Value → Json.Value) (o : NamedObject) : NamedObject where
  typeName := o.typeName
  fields := fieldsMapExamples g o.fields

/-- A model with a function applied to each example in it. -/
def Model.mapExamples (g : Json.Value → Json.Value) (model : Model) : Model where
  root := model.root.mapExamples g
  named := model.named.map (NamedObject.mapExamples g)

variable (g : Json.Value → Json.Value)

/-- Fields are changed one by one. -/
theorem fieldsMapExamples_eq_map (fs : List Field) :
    fieldsMapExamples g fs = fs.map (fieldMapExamples g) := by
  induction fs with
  | nil => rfl
  | cons f fs ih => rw [List.map_cons, ← ih]; rfl

mutual

private theorem Node.preorder_mapExamples (node : Node) :
    (node.mapExamples g).preorder = node.preorder.map (NamedObject.mapExamples g) := by
  match node with
  | .scalar _ => rfl
  | .array element => exact element.preorder_mapExamples
  | .object none fields => exact fieldsPreorder_mapExamples fields
  | .object (some typeName) fields =>
    rw [Node.preorder, List.map_cons, ← fieldsPreorder_mapExamples fields]
    rfl
termination_by structural node

private theorem fieldsPreorder_mapExamples (fs : List Field) :
    fieldsPreorder (fieldsMapExamples g fs) =
      (fieldsPreorder fs).map (NamedObject.mapExamples g) := by
  match fs with
  | [] => rfl
  | ⟨key, node, example?, quoted⟩ :: fs =>
    rw [fieldsPreorder, List.map_append, ← node.preorder_mapExamples,
      ← fieldsPreorder_mapExamples fs]
    rfl
termination_by structural fs

end

/-- The root fields of a changed node are its root fields, changed. -/
theorem Node.rootFields_mapExamples (node : Node) :
    (node.mapExamples g).rootFields =
      node.rootFields.map fun r => { r with fields := fieldsMapExamples g r.fields } := by
  match node with
  | .scalar _ | .object _ _ | .array (.scalar _) | .array (.array _) | .array (.object _ _) => rfl

mutual

private theorem Node.mapExamples_mapExamples (g h : Json.Value → Json.Value) (node : Node) :
    (node.mapExamples g).mapExamples h = node.mapExamples (h ∘ g) := by
  match node with
  | .scalar _ => rfl
  | .array element =>
    simp only [Node.mapExamples, element.mapExamples_mapExamples g h]
  | .object _ fields =>
    simp only [Node.mapExamples, fieldsMapExamples_fieldsMapExamples g h fields]
termination_by structural node

private theorem fieldsMapExamples_fieldsMapExamples (g h : Json.Value → Json.Value)
    (fs : List Field) :
    fieldsMapExamples h (fieldsMapExamples g fs) = fieldsMapExamples (h ∘ g) fs := by
  match fs with
  | [] => rfl
  | ⟨key, node, example?, quoted⟩ :: fs =>
    simp only [fieldsMapExamples, node.mapExamples_mapExamples g h,
      fieldsMapExamples_fieldsMapExamples g h fs, Option.map_map]
termination_by structural fs

end

/-- Two changes of the examples in a model are one. -/
theorem Model.mapExamples_mapExamples (g h : Json.Value → Json.Value) (model : Model) :
    (model.mapExamples g).mapExamples h = model.mapExamples (h ∘ g) := by
  have hnamed : ∀ o : NamedObject,
      (o.mapExamples g).mapExamples h = o.mapExamples (h ∘ g) := by
    intro o
    simp only [NamedObject.mapExamples, fieldsMapExamples_fieldsMapExamples]
  simp only [Model.mapExamples, Node.mapExamples_mapExamples, List.map_map, Function.comp_def,
    hnamed]

/-- A model with null in the place of each example. -/
def Model.eraseExamples (model : Model) : Model :=
  model.mapExamples fun _ => .null

/-- Changing the examples of a model does not change what is left when they are erased. -/
theorem Model.eraseExamples_mapExamples (g : Json.Value → Json.Value) (model : Model) :
    (model.mapExamples g).eraseExamples = model.eraseExamples :=
  model.mapExamples_mapExamples g fun _ => .null

/-! ## The tree of a value of the same shape -/

variable {g : Json.Value → Json.Value}

private theorem apply_of_leafKind (hg : Json.KeepsShape g) {o : InferOptions} {v : Json.Value}
    {r : Refinement.Refined} (h : leafKind? o v = some r) : g v = v := by
  match v with
  | .null | .bool _ | .number _ | .string _ => exact hg.leaf _ rfl
  | .array _ | .object _ => cases h

private theorem exists_items_of_elementKind (hg : Json.KeepsShape g) {items : List Json.Value}
    {kind : ScalarKind} (h : elementKind? items = some kind) :
    ∃ items', g (.array items) = .array items' ∧ elementKind? items' = some kind := by
  match items with
  | [] => exact ⟨[], hg.leaf _ rfl, h⟩
  | .null :: rest | .bool _ :: rest | .number _ :: rest | .string _ :: rest =>
    obtain ⟨rest', hrest⟩ := hg.array _ rest
    refine ⟨_, hrest, ?_⟩
    rw [hg.leaf _ rfl]
    exact h
  | .array _ :: _ | .object _ :: _ => cases h

private theorem treeFields_of_shape {o : InferOptions} {ms ns : List (String × Json.Value)}
    (hns : sortByKey ns = (sortByKey ms).map fun m => (m.1, g m.2))
    (h : ∀ m ∈ ms, treeField o m.1 (g m.2) =
      (treeField o m.1 m.2).map (fieldMapExamples g)) :
    treeFields o ns = (treeFields o ms).map (fieldsMapExamples g) := by
  have hmap : fieldsMapExamples g = List.map (fieldMapExamples g) :=
    funext (fieldsMapExamples_eq_map _)
  rw [treeFields_eq, treeFields_eq, hns, List.mapM_map, hmap, map_mapM]
  exact mapM_congr fun m hm => h m ((sortByKey_perm ms).mem_iff.mp hm)

private theorem treeField_of_shape (hg : Json.KeepsShape g) (o : InferOptions) (key : String)
    (v : Json.Value) : treeField o key (g v) = (treeField o key v).map (fieldMapExamples g) := by
  refine value_induct (o := o)
    (motive := fun key v => treeField o key (g v) = (treeField o key v).map (fieldMapExamples g))
    ⟨?scalar, ?scalars, ?objects, ?stuck, ?nested, ?object⟩ key v
  case scalar =>
    intro key v r hr
    have hv := apply_of_leafKind hg hr
    rw [hv, treeField_scalar hr]
    simp only [Except.map, fieldMapExamples, scalarField, Node.mapExamples, Option.map_some, hv]
  case scalars =>
    intro key items kind hkind
    obtain ⟨items', hitems, hkind'⟩ := exists_items_of_elementKind hg hkind
    rw [hitems, treeField_scalars hkind, treeField_scalars hkind']
    simp only [Except.map, fieldMapExamples, arrayField, Node.mapExamples, Option.map_some, hitems]
  case objects =>
    intro key ms rest ih
    obtain ⟨rest', harray⟩ := hg.array (.object ms) rest
    obtain ⟨ns, hobject, hns⟩ := hg.object ms
    rw [hobject] at harray
    rw [harray, treeField_objects, treeField_objects, treeFields_of_shape hns ih, map_map_outcome,
      map_map_outcome]
    simp only [fieldMapExamples, arrayField, Node.mapExamples, Option.map_some, harray]
  case stuck =>
    intro key rest
    obtain ⟨rest', harray⟩ := hg.array (.array []) rest
    rw [harray, hg.leaf _ rfl]
    rfl
  case nested =>
    intro key first inner rest ih
    obtain ⟨inner', hinner⟩ := hg.array first inner
    obtain ⟨rest', harray⟩ := hg.array (.array (first :: inner)) rest
    rw [harray, hinner]
    exact ih
  case object =>
    intro key ms ih
    obtain ⟨ns, hobject, hns⟩ := hg.object ms
    rw [hobject, treeField_object, treeField_object, treeFields_of_shape hns ih, map_map_outcome,
      map_map_outcome]
    rfl

private theorem treeRoot_of_shape (hg : Json.KeepsShape g) (o : InferOptions) (v : Json.Value) :
    treeRoot o (g v) = (treeRoot o v).map (Node.mapExamples g) := by
  have hfields : ∀ {ms ns : List (String × Json.Value)},
      sortByKey ns = ((sortByKey ms).map fun m => (m.1, g m.2)) →
        treeFields o ns = (treeFields o ms).map (fieldsMapExamples g) :=
    fun hns => treeFields_of_shape hns fun m _ => treeField_of_shape hg o m.1 m.2
  match v with
  | .null | .bool _ | .number _ | .string _ | .array [] =>
    rw [hg.leaf _ rfl]
    rfl
  | .object ms =>
    obtain ⟨ns, hobject, hns⟩ := hg.object ms
    rw [hobject, treeRoot, treeRoot, hfields hns, map_map_outcome, map_map_outcome]
    rfl
  | .array (.object ms :: rest) =>
    obtain ⟨rest', harray⟩ := hg.array (.object ms) rest
    obtain ⟨ns, hobject, hns⟩ := hg.object ms
    rw [harray, hobject, treeRoot, treeRoot, hfields hns, map_map_outcome, map_map_outcome]
    rfl
  | .array (.array (first :: inner) :: rest) =>
    obtain ⟨rest', harray⟩ := hg.array (.array (first :: inner)) rest
    obtain ⟨inner', hinner⟩ := hg.array first inner
    rw [harray, hinner]
    rfl
  | .array (.null :: rest) | .array (.bool _ :: rest) | .array (.number _ :: rest)
  | .array (.string _ :: rest) | .array (.array [] :: rest) =>
    obtain ⟨rest', harray⟩ := hg.array _ rest
    rw [harray, hg.leaf _ rfl]
    rfl

/-- The model of a value of the same shape is its model with changed examples. -/
theorem infer_of_shape (hg : Json.KeepsShape g) (o : InferOptions) (v : Json.Value) :
    infer o (g v) = (infer o v).map (Model.mapExamples g) := by
  rw [infer_eq, infer_eq, treeRoot_of_shape hg, map_map_outcome, map_map_outcome]
  refine congrArg (fun f => (treeRoot o v).map f) (funext fun root => ?_)
  rw [Node.preorder_mapExamples]
  rfl

end Exemplar
