import Exemplar.Proofs.Shape.Registry
import Exemplar.Shape.Root

/-!
# Fields at any depth

The fields of a tree at every depth.  The main statements: the fields of named objects are among
them, and each of them is the tree of some member of the document.
-/

namespace Exemplar

mutual

/-- The fields inside a node, at any depth. -/
def Node.deepFields : Node → List Field
  | .scalar _ => []
  | .array element => element.deepFields
  | .object _ fields => deepFields fields
termination_by structural node => node

/-- Fields and the fields inside them, at any depth. -/
def deepFields : List Field → List Field
  | [] => []
  | ⟨key, node, example?, quoted⟩ :: fields =>
    ⟨key, node, example?, quoted⟩ :: (node.deepFields ++ deepFields fields)
termination_by structural fields => fields

end

private theorem mem_deepFields_iff {f : Field} {fs : List Field} :
    f ∈ deepFields fs ↔ ∃ g ∈ fs, f = g ∨ f ∈ g.node.deepFields := by
  induction fs with
  | nil => simp [deepFields]
  | cons g fs ih =>
    change f ∈ g :: (g.node.deepFields ++ deepFields fs) ↔ _
    rw [List.mem_cons, List.mem_append, ih, List.exists_mem_cons_iff, or_assoc]

private theorem mem_deepFields_of_mem {f : Field} {fs : List Field} (h : f ∈ fs) :
    f ∈ deepFields fs :=
  mem_deepFields_iff.mpr ⟨f, h, .inl rfl⟩

mutual

private theorem Node.deepFields_trans {node : Node} {f : Field} (hf : f ∈ node.deepFields)
    {g : Field} (hg : g ∈ f.node.deepFields) : g ∈ node.deepFields := by
  match node with
  | .scalar _ => cases hf
  | .array element => exact element.deepFields_trans hf hg
  | .object _ fields => exact deepFields_trans fields hf hg
termination_by structural node

/-- What stands inside a field at some depth is at some depth itself. -/
theorem deepFields_trans (fs : List Field) {f : Field} (hf : f ∈ deepFields fs) {g : Field}
    (hg : g ∈ f.node.deepFields) : g ∈ deepFields fs := by
  match fs with
  | [] => cases hf
  | ⟨key, node, example?, quoted⟩ :: fs =>
    refine List.mem_cons_of_mem _ (List.mem_append.mpr ?_)
    rcases List.mem_cons.mp hf with rfl | hf
    · exact .inl hg
    · rcases List.mem_append.mp hf with hf | hf
      · exact .inl (node.deepFields_trans hf hg)
      · exact .inr (deepFields_trans fs hf hg)
termination_by structural fs

end

mutual

private theorem Node.mem_deepFields_of_preorder {node : Node} {o : NamedObject}
    (ho : o ∈ node.preorder) {f : Field} (hf : f ∈ o.fields) : f ∈ node.deepFields := by
  match node with
  | .scalar _ => cases ho
  | .array element => exact element.mem_deepFields_of_preorder ho hf
  | .object none fields => exact mem_deepFields_of_fieldsPreorder fields ho hf
  | .object (some typeName) fields =>
    rcases List.mem_cons.mp ho with rfl | ho
    · exact mem_deepFields_of_mem hf
    · exact mem_deepFields_of_fieldsPreorder fields ho hf
termination_by structural node

private theorem mem_deepFields_of_fieldsPreorder (fs : List Field) {o : NamedObject}
    (ho : o ∈ fieldsPreorder fs) {f : Field} (hf : f ∈ o.fields) : f ∈ deepFields fs := by
  match fs with
  | [] => cases ho
  | ⟨key, node, example?, quoted⟩ :: fs =>
    refine List.mem_cons_of_mem _ (List.mem_append.mpr ?_)
    rcases List.mem_append.mp ho with ho | ho
    · exact .inl (node.mem_deepFields_of_preorder ho hf)
    · exact .inr (mem_deepFields_of_fieldsPreorder fs ho hf)
termination_by structural fs

end

/-! ## Fields of an inference -/

private theorem exists_treeField_of_forall₂ {o : InferOptions} {ms : List (String × Json.Value)}
    {fields : List Field} (hfields : treeFields o ms = .ok fields)
    (ih : List.Forall₂ (fun (_ : String × Json.Value) (f : Field) =>
      ∀ g ∈ f.node.deepFields, ∃ key v, treeField o key v = .ok g) (sortByKey ms) fields) :
    ∀ g ∈ deepFields fields, ∃ key v, treeField o key v = .ok g := by
  have hpairs := treeFields_ok hfields
  rw [List.forall₂_iff_get] at hpairs ih
  intro g hg
  obtain ⟨f, hf, hg⟩ := mem_deepFields_iff.mp hg
  obtain ⟨i, rfl⟩ := List.mem_iff_get.mp hf
  have hi : i.1 < (sortByKey ms).length := by
    rw [hpairs.1]
    exact i.2
  rcases hg with rfl | hg
  · exact ⟨_, _, hpairs.2 i.1 hi i.2⟩
  · exact ih.2 i.1 hi i.2 g hg

private theorem treeField_deepFields {o : InferOptions} {key : String} {v : Json.Value} {f : Field}
    (h : treeField o key v = .ok f) :
    ∀ g ∈ f.node.deepFields, ∃ key v, treeField o key v = .ok g := by
  refine treeField_induct
    (motive := fun _ _ f => ∀ g ∈ f.node.deepFields, ∃ key v, treeField o key v = .ok g)
    ⟨?scalar, ?scalars, ?objects, ?nested, ?object⟩ key v f h
  case scalar => exact fun _ _ _ _ g hg => by cases hg
  case scalars => exact fun _ _ _ _ g hg => by cases hg
  case objects => exact fun _ _ _ _ hfields ih => exists_treeField_of_forall₂ hfields ih
  case nested => exact fun _ _ _ _ _ ih => ih
  case object => exact fun _ _ _ hfields ih => exists_treeField_of_forall₂ hfields ih

private theorem treeFields_deepFields {o : InferOptions} {ms : List (String × Json.Value)}
    {fields : List Field} (h : treeFields o ms = .ok fields) :
    ∀ g ∈ deepFields fields, ∃ key v, treeField o key v = .ok g := by
  refine exists_treeField_of_forall₂ h ?_
  exact (treeFields_ok h).imp fun _ _ hf => treeField_deepFields hf

/-! ## Fields of a model -/

/-- The fields that are declared for a model: those of its root, and those of its named objects in
their order. -/
def Model.declared (model : Model) : List Field :=
  (match model.root with
    | .object _ fields | .array (.object _ fields) => fields
    | _ => []) ++ model.named.flatMap (·.fields)

/-- The declared fields of a model begin with those that its root declares. -/
theorem declared_of_rootFields {model : Model} {root : RootFields}
    (h : model.root.rootFields = .ok root) :
    model.declared = root.fields ++ model.named.flatMap (·.fields) := by
  obtain ⟨node, named⟩ := model
  match node with
  | .object _ _ | .array (.object _ _) =>
    obtain rfl := Except.ok.inj h
    rfl
  | .scalar _ | .array (.scalar _) | .array (.array _) => cases h

/-- The root of the model of a document can be declared. -/
theorem infer_rootFields {o : InferOptions} {v : Json.Value} {model : Model}
    (h : infer o v = .ok model) : ∃ root, model.root.rootFields = .ok root := by
  obtain ⟨ms, fields, -, -, hshape⟩ := infer_ok h
  rcases hshape with ⟨-, hroot⟩ | ⟨-, hroot⟩ <;> rw [hroot] <;> exact ⟨_, rfl⟩

/-- The fields inside a root are those that it declares and those inside them. -/
theorem rootFields_deepFields {node : Node} {root : RootFields}
    (h : node.rootFields = .ok root) : node.deepFields = deepFields root.fields := by
  match node with
  | .object _ _ | .array (.object _ _) =>
    obtain rfl := Except.ok.inj h
    rfl
  | .scalar _ | .array (.scalar _) | .array (.array _) => cases h

/-- The named objects of the model of a document are those in the fields of its root. -/
theorem infer_named_eq {o : InferOptions} {v : Json.Value} {model : Model}
    (h : infer o v = .ok model) {root : RootFields} (hroot : model.root.rootFields = .ok root) :
    model.named = fieldsPreorder root.fields := by
  obtain ⟨ms, fields, -, hnamed, hshape⟩ := infer_ok h
  rcases hshape with ⟨-, heq⟩ | ⟨-, heq⟩ <;>
  · rw [heq] at hroot
    obtain rfl := Except.ok.inj hroot
    exact hnamed

/-- Every field of the model of a document, at any depth, is the tree of some member. -/
theorem infer_deepFields {o : InferOptions} {v : Json.Value} {model : Model}
    (h : infer o v = .ok model) :
    ∀ f ∈ model.root.deepFields, ∃ key v, treeField o key v = .ok f := by
  obtain ⟨ms, fields, hfields, -, hshape⟩ := infer_ok h
  intro f hf
  refine treeFields_deepFields hfields f ?_
  rcases hshape with ⟨-, hroot⟩ | ⟨-, hroot⟩ <;>
  · rw [hroot] at hf
    exact hf

/-- The fields of a named object, at any depth, are fields of the model. -/
theorem infer_named_deepFields {o : InferOptions} {v : Json.Value} {model : Model}
    (h : infer o v = .ok model) {named : NamedObject} (hnamed : named ∈ model.named) {f : Field}
    (hf : f ∈ deepFields named.fields) : f ∈ model.root.deepFields := by
  rw [infer_eq] at h
  obtain ⟨root, -, rfl⟩ := map_eq_ok_iff.mp h
  obtain ⟨g, hg, hf⟩ := mem_deepFields_iff.mp hf
  have hdeep := root.mem_deepFields_of_preorder hnamed hg
  rcases hf with rfl | hf
  · exact hdeep
  · exact root.deepFields_trans hdeep hf

/-- The fields that are declared for the model of a document are fields of its root at some
depth. -/
theorem infer_declared_subset {o : InferOptions} {v : Json.Value} {model : Model}
    (h : infer o v = .ok model) : model.declared ⊆ model.root.deepFields := by
  obtain ⟨root, hroot⟩ := infer_rootFields h
  intro f hf
  rw [declared_of_rootFields hroot] at hf
  rcases List.mem_append.mp hf with hf | hf
  · rw [rootFields_deepFields hroot]
    exact mem_deepFields_of_mem hf
  · obtain ⟨named, hnamed, hf⟩ := List.mem_flatMap.mp hf
    exact infer_named_deepFields h hnamed (mem_deepFields_of_mem hf)

/-- Every field that is declared for the model of a document is the tree of some member. -/
theorem infer_declared {o : InferOptions} {v : Json.Value} {model : Model}
    (h : infer o v = .ok model) : ∀ f ∈ model.declared, ∃ key v, treeField o key v = .ok f :=
  fun f hf => infer_deepFields h f (infer_declared_subset h hf)

end Exemplar
