import Exemplar.Proofs.Shape.Registry

/-!
# All fields of a model

Properties of every field in a tree, at any depth.  The main statement: a property that holds of
each way in which a field comes about holds of all fields of a model, those of the registry
included.
-/

namespace Exemplar

mutual

/-- Whether a property holds of every field in a node, at any depth. -/
def Node.AllFields (P : Field → Prop) : Node → Prop
  | .scalar _ => True
  | .array element => element.AllFields P
  | .object _ fields => AllFieldsIn P fields
termination_by structural node => node

/-- Whether a property holds of all fields of a list and of every field inside them. -/
def AllFieldsIn (P : Field → Prop) : List Field → Prop
  | [] => True
  | ⟨key, node, example?, quoted⟩ :: fields =>
    P ⟨key, node, example?, quoted⟩ ∧ node.AllFields P ∧ AllFieldsIn P fields
termination_by structural fields => fields

end

/-- Whether a property holds of every field of a model. -/
structure Model.AllFields (P : Field → Prop) (model : Model) : Prop where
  root : model.root.AllFields P
  named : ∀ entry ∈ model.named, AllFieldsIn P entry.fields

variable {P : Field → Prop}

mutual

private theorem Node.AllFields.of_mem_preorder {node : Node} (h : node.AllFields P)
    {entry : NamedObject} (hentry : entry ∈ node.preorder) : AllFieldsIn P entry.fields := by
  match node with
  | .scalar _ => cases hentry
  | .array element =>
    have helement : element.AllFields P := h
    exact helement.of_mem_preorder hentry
  | .object none fields =>
    have hfields : AllFieldsIn P fields := h
    exact hfields.of_mem_preorder hentry
  | .object (some typeName) fields =>
    have hfields : AllFieldsIn P fields := h
    rcases List.mem_cons.mp hentry with rfl | hentry
    · exact hfields
    · exact hfields.of_mem_preorder hentry
termination_by structural node

private theorem AllFieldsIn.of_mem_preorder {fs : List Field} (h : AllFieldsIn P fs)
    {entry : NamedObject} (hentry : entry ∈ fieldsPreorder fs) : AllFieldsIn P entry.fields := by
  match fs with
  | [] => cases hentry
  | ⟨_, node, _, _⟩ :: fs =>
    have hnode : node.AllFields P := h.2.1
    have hrest : AllFieldsIn P fs := h.2.2
    rcases List.mem_append.mp hentry with hentry | hentry
    · exact hnode.of_mem_preorder hentry
    · exact hrest.of_mem_preorder hentry
termination_by structural fs

end

/-! ## Fields that are found -/

/-- Whether a property holds of each way in which a field comes about in values of a sort that their
parts are of: scalars, arrays of scalars, arrays of objects and objects. -/
structure HoldsOfFound (o : InferOptions) (Q : Json.Value → Prop) (P : Field → Prop) : Prop where
  first : ∀ {v rest}, Q (.array (v :: rest)) → Q v
  member : ∀ {ms m}, Q (.object ms) → m ∈ ms → Q m.2
  scalar : ∀ {v r}, leafKind? o v = some r → Q v → ∀ key, P (scalarField key r.kind v r.quoted)
  scalars : ∀ {items}, Q (.array items) → ∀ key kind, P (arrayField key (.scalar kind) items)
  objects : ∀ {items}, Q (.array items) → ∀ key name fields,
    P (arrayField key (.object (some name) fields) items)
  object : ∀ key name? fields, P (objectField key (.object name? fields))

variable {o : InferOptions} {Q : Json.Value → Prop}

private theorem allFieldsIn_of_members (h : HoldsOfFound o Q P) {ms : List (String × Json.Value)}
    (hQ : Q (.object ms)) {fields : List Field}
    (hfields : List.Forall₂ (fun m f => Q m.2 → P f ∧ f.node.AllFields P) (sortByKey ms) fields) :
    AllFieldsIn P fields := by
  have hmembers : ∀ m ∈ sortByKey ms, Q m.2 :=
    fun m hm => h.member hQ ((sortByKey_perm ms).mem_iff.mp hm)
  generalize sortByKey ms = members at hfields hmembers
  induction hfields with
  | nil => exact trivial
  | cons hf _ ih =>
    obtain ⟨hfield, hinside⟩ := hf (hmembers _ List.mem_cons_self)
    exact ⟨hfield, hinside, ih fun m hm => hmembers m (List.mem_cons_of_mem _ hm)⟩

private theorem HoldsOfFound.of_treeField (h : HoldsOfFound o Q P) {key : String} {v : Json.Value}
    {f : Field} (hf : treeField o key v = .ok f) : Q v → P f ∧ f.node.AllFields P := by
  refine treeField_induct (motive := fun _ v f => Q v → P f ∧ f.node.AllFields P)
    ⟨?scalar, ?scalars, ?objects, ?nested, ?object⟩ key v f hf
  case scalar => exact fun key v r hr hQ => ⟨h.scalar hr hQ key, trivial⟩
  case scalars => exact fun key items kind _ hQ => ⟨h.scalars hQ key kind, trivial⟩
  case objects =>
    intro key ms rest fields _ ih hQ
    exact ⟨h.objects hQ key _ fields, allFieldsIn_of_members h (h.first hQ) ih⟩
  case nested => exact fun _ _ _ _ _ ih hQ => ih (h.first (h.first hQ))
  case object =>
    intro key ms fields _ ih hQ
    exact ⟨h.object key _ fields, allFieldsIn_of_members h hQ ih⟩

/-- The property holds of every field of the model of a document. -/
theorem HoldsOfFound.of_infer (h : HoldsOfFound o Q P) {v : Json.Value} (hQ : Q v) {model : Model}
    (hmodel : infer o v = .ok model) : model.AllFields P := by
  rw [infer_eq] at hmodel
  obtain ⟨root, hroot, rfl⟩ := map_eq_ok_iff.mp hmodel
  obtain ⟨ms, fields, hfields, hshape⟩ := treeRoot_ok hroot
  have hall : Q (.object ms) → AllFieldsIn P fields := fun hQ =>
    allFieldsIn_of_members h hQ ((treeFields_ok hfields).imp fun _ _ hf => h.of_treeField hf)
  have htree : root.AllFields P := by
    rcases hshape with ⟨rfl, rfl⟩ | ⟨⟨rest, rfl⟩, rfl⟩
    · exact hall hQ
    · exact hall (h.first hQ)
  exact ⟨htree, fun entry hentry => htree.of_mem_preorder hentry⟩

end Exemplar
