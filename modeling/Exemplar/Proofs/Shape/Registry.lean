import Exemplar.Proofs.Shape.Tree

/-!
# The registry of an inference

What an inference registers.  A run from any registry finds the tree, and it leaves the registry
with exactly the named objects of the tree appended, in pre-order.  The main statement: the
registry of a model is the pre-order of its tree, the root is not in it, and every named object
has the identifier of the key it stands under.
-/

namespace Exemplar

/-! ## Named objects in pre-order -/

mutual

/-- The named objects of a node in pre-order, depth first, fields in their order. -/
def Node.preorder : Node → List NamedObject
  | .scalar _ => []
  | .array element => element.preorder
  | .object none fields => fieldsPreorder fields
  | .object (some typeName) fields => { typeName, fields } :: fieldsPreorder fields
termination_by structural node => node

/-- The named objects of fields, one field after the other. -/
def fieldsPreorder : List Field → List NamedObject
  | [] => []
  | ⟨_, node, _, _⟩ :: fields => node.preorder ++ fieldsPreorder fields
termination_by structural fields => fields

end

/-- The named objects of a field. -/
def fieldPreorder (f : Field) : List NamedObject :=
  f.node.preorder

/-- A first field comes with its named objects. -/
theorem fieldsPreorder_cons (f : Field) (fs : List Field) :
    fieldsPreorder (f :: fs) = fieldPreorder f ++ fieldsPreorder fs := rfl

/-! ## What a run registers -/

/-- The step that ends as `x` does, and appends to any registry the objects that `named` lists for
the result. -/
def appending {α : Type} (named : α → List NamedObject) (x : Except Error α) : Inference α :=
  fun r => x.map fun a => (a, r ++ named a)

variable {α : Type} {named : α → List NamedObject}

private theorem pure_eq_appending {a : α} (h : named a = []) :
    (pure a : Inference α) = appending named (.ok a) := by
  funext r
  change Except.ok (a, r) = Except.ok (a, r ++ named a)
  rw [h, List.append_nil]

private theorem throw_eq_appending (named : α → List NamedObject) (e : Error) :
    (throw e : Inference α) = appending named (.error e) := rfl

private theorem appending_bind_pure {β : Type} (named : α → List NamedObject)
    (inner : β → List NamedObject) (x : Except Error α) (f : α → β)
    (h : ∀ a, inner (f a) = named a) :
    (appending named x >>= fun a => (pure (f a) : Inference β)) = appending inner (x.map f) := by
  funext r
  cases x with
  | error e => rfl
  | ok a =>
    change Except.ok (f a, r ++ named a) = Except.ok (f a, r ++ inner (f a))
    rw [h]

private theorem inOrder_appending (es : List (String × Except Error Field)) :
    inOrder (es.map fun e => (e.1, appending fieldPreorder e.2)) =
      appending fieldsPreorder (es.mapM Prod.snd) := by
  induction es with
  | nil => exact pure_eq_appending rfl
  | cons e es ih =>
    obtain ⟨key, x⟩ := e
    funext r
    rw [List.map_cons, inOrder, ih, List.mapM_cons]
    cases x with
    | error e => rfl
    | ok f =>
      change (appending fieldsPreorder (es.mapM Prod.snd) >>= fun fields =>
        (pure (f :: fields) : Inference (List Field))) (r ++ fieldPreorder f) = _
      cases es.mapM Prod.snd with
      | error e => rfl
      | ok fs =>
        change Except.ok (f :: fs, r ++ fieldPreorder f ++ fieldsPreorder fs) =
          Except.ok (f :: fs, r ++ fieldsPreorder (f :: fs))
        rw [fieldsPreorder_cons, List.append_assoc]

private theorem inOrder_sortByKey_appending (es : List (String × Except Error Field)) :
    inOrder (sortByKey (es.map fun e => (e.1, appending fieldPreorder e.2))) =
      appending fieldsPreorder ((sortByKey es).mapM Prod.snd) := by
  have hsort := sortByKey_map
    (fun e : String × Except Error Field =>
      (e.1, appending fieldPreorder e.2)) (fun _ => rfl) es
  rw [hsort, inOrder_appending]

private theorem register_appending (key : String) (x : Except Error (List Field)) :
    register key (appending fieldsPreorder x) =
      appending Node.preorder (x.map (.object (some (Ident.ofKey key)))) := by
  funext r
  cases x with
  | error e => rfl
  | ok fs =>
    change Except.ok (Node.object (some (Ident.ofKey key)) fs,
        Registry.fill r.length fs (r ++ [⟨Ident.ofKey key, []⟩] ++ fieldsPreorder fs)) =
      Except.ok (Node.object (some (Ident.ofKey key)) fs,
        r ++ ⟨Ident.ofKey key, fs⟩ :: fieldsPreorder fs)
    rw [List.append_assoc, List.singleton_append, Registry.fill_reserved]

private theorem nest_appending (nesting : Nesting) (key : String) (x : Except Error (List Field)) :
    nest nesting key (appending fieldsPreorder x) =
      appending Node.preorder (x.map (.object (nestName? nesting key))) := by
  cases nesting with
  | inline => exact appending_bind_pure fieldsPreorder Node.preorder x (.object none) fun _ => rfl
  | named => exact register_appending key x

/-! ## Runs -/

mutual

private theorem inferField_eq (o : InferOptions) (key : String) (v : Json.Value) :
    inferField o key v = appending fieldPreorder (treeField o key v) := by
  match v with
  | .null | .bool _ | .number _ | .string _ => exact pure_eq_appending rfl
  | .array [] | .array (.null :: _) | .array (.bool _ :: _) | .array (.number _ :: _)
  | .array (.string _ :: _) => exact pure_eq_appending rfl
  | .array (.object ms :: rest) =>
    rw [inferField, treeField_objects, inferMembers_eq, inOrder_sortByKey_appending, ← treeFields,
      register_appending,
      appending_bind_pure Node.preorder fieldPreorder _ (fun n => arrayField key n _) fun _ => rfl]
    cases treeFields o ms <;> rfl
  | .array (.array [] :: _) => exact throw_eq_appending _ _
  | .array (.array (first :: _) :: _) => exact inferField_eq o key first
  | .object ms =>
    rw [inferField, treeField_object, inferMembers_eq, inOrder_sortByKey_appending, ← treeFields,
      nest_appending,
      appending_bind_pure Node.preorder fieldPreorder _ (objectField key) fun _ => rfl]
    cases treeFields o ms <;> rfl
termination_by structural v

private theorem inferMembers_eq (o : InferOptions) (ms : List (String × Json.Value)) :
    inferMembers o ms =
      (treeMembers o ms).map fun e => (e.1, appending fieldPreorder e.2) := by
  match ms with
  | [] => rfl
  | (key, v) :: ms => rw [inferMembers, treeMembers, List.map_cons, inferField_eq, inferMembers_eq]
termination_by structural ms

end

private theorem inferFields_eq (o : InferOptions) (ms : List (String × Json.Value)) :
    inferFields o ms = appending fieldsPreorder (treeFields o ms) := by
  rw [inferFields, inferMembers_eq, inOrder_sortByKey_appending, treeFields]

private theorem inferRoot_eq (o : InferOptions) (v : Json.Value) :
    inferRoot o v = appending Node.preorder (treeRoot o v) := by
  match v with
  | .null | .bool _ | .number _ | .string _ | .array [] => exact throw_eq_appending _ _
  | .array (.null :: _) | .array (.bool _ :: _) | .array (.number _ :: _)
  | .array (.string _ :: _) | .array (.array _ :: _) => exact throw_eq_appending _ _
  | .object ms =>
    rw [inferRoot, treeRoot, inferFields_eq]
    exact appending_bind_pure fieldsPreorder Node.preorder _ (.object none) fun _ => rfl
  | .array (.object ms :: rest) =>
    rw [inferRoot, treeRoot, inferFields_eq]
    exact appending_bind_pure fieldsPreorder Node.preorder _ (fun fs => .array (.object none fs))
      fun _ => rfl

/-- The model of a document is its tree with the named objects of that in pre-order. -/
theorem infer_eq (o : InferOptions) (v : Json.Value) :
    infer o v = (treeRoot o v).map fun root => { root, named := root.preorder } := by
  rw [infer, inferRoot_eq]
  cases treeRoot o v <;> rfl

/-- A root is an object without a name or an array of them. -/
theorem treeRoot_ok {o : InferOptions} {v : Json.Value} {root : Node}
    (h : treeRoot o v = .ok root) :
    ∃ ms fields, treeFields o ms = .ok fields ∧
      (v = .object ms ∧ root = .object none fields ∨
        (∃ rest, v = .array (.object ms :: rest)) ∧ root = .array (.object none fields)) := by
  match v with
  | .null | .bool _ | .number _ | .string _ | .array [] => cases h
  | .array (.null :: _) | .array (.bool _ :: _) | .array (.number _ :: _)
  | .array (.string _ :: _) | .array (.array _ :: _) => cases h
  | .object ms =>
    obtain ⟨fields, hfields, rfl⟩ := map_eq_ok_iff.mp h
    exact ⟨ms, fields, hfields, .inl ⟨rfl, rfl⟩⟩
  | .array (.object ms :: rest) =>
    obtain ⟨fields, hfields, rfl⟩ := map_eq_ok_iff.mp h
    exact ⟨ms, fields, hfields, .inr ⟨⟨rest, rfl⟩, rfl⟩⟩

/-! ## Names and keys -/

mutual

/-- Whether every named object of a node that stands under a key is named after the key that it
stands under. -/
def Node.NamedByKey (key : String) : Node → Prop
  | .scalar _ => True
  | .array element => element.NamedByKey key
  | .object name? fields =>
    (∀ name, name? = some name → name = Ident.ofKey key) ∧ FieldsNamedByKey fields
termination_by structural node => node

/-- Whether every named object in fields is named after the key that it stands under. -/
def FieldsNamedByKey : List Field → Prop
  | [] => True
  | ⟨key, node, _, _⟩ :: fields => node.NamedByKey key ∧ FieldsNamedByKey fields
termination_by structural fields => fields

end

private theorem fieldsNamedByKey_of_forall₂ {ms : List (String × Json.Value)} {fields : List Field}
    (h : List.Forall₂ (fun m f => f.key = m.1 ∧ f.node.NamedByKey m.1) ms fields) :
    FieldsNamedByKey fields := by
  induction h with
  | nil => exact trivial
  | cons hf _ ih =>
    obtain ⟨hkey, hnode⟩ := hf
    exact ⟨hkey ▸ hnode, ih⟩

/-- A field has the key of its member, and the objects in it are named by their keys. -/
theorem treeField_namedByKey {o : InferOptions} {key : String} {v : Json.Value} {f : Field}
    (h : treeField o key v = .ok f) : f.key = key ∧ f.node.NamedByKey key := by
  refine treeField_induct (motive := fun key _ f => f.key = key ∧ f.node.NamedByKey key)
    ⟨?scalar, ?scalars, ?objects, ?nested, ?object⟩ key v f h
  case scalar => exact fun _ _ _ _ => ⟨rfl, trivial⟩
  case scalars => exact fun _ _ _ _ => ⟨rfl, trivial⟩
  case objects =>
    intro key ms rest fields _ ih
    exact ⟨rfl, fun name hname => (Option.some.inj hname).symm, fieldsNamedByKey_of_forall₂ ih⟩
  case nested => exact fun _ _ _ _ _ ih => ih
  case object =>
    intro key ms fields _ ih
    refine ⟨rfl, fun name hname => ?_, fieldsNamedByKey_of_forall₂ ih⟩
    cases hnesting : o.nesting with
    | inline =>
      rw [hnesting] at hname
      cases hname
    | named =>
      rw [hnesting] at hname
      exact (Option.some.inj hname).symm

private theorem treeFields_namedByKey {o : InferOptions} {ms : List (String × Json.Value)}
    {fields : List Field} (h : treeFields o ms = .ok fields) : FieldsNamedByKey fields :=
  fieldsNamedByKey_of_forall₂ ((treeFields_ok h).imp fun _ _ hf => treeField_namedByKey hf)

mutual

private theorem Node.NamedByKey.exists_key {key : String} {node : Node} (h : node.NamedByKey key)
    {o : NamedObject} (ho : o ∈ node.preorder) : ∃ key, o.typeName = Ident.ofKey key := by
  match node with
  | .scalar _ => cases ho
  | .array element =>
    have helement : element.NamedByKey key := h
    exact helement.exists_key ho
  | .object none fields =>
    have hfields : FieldsNamedByKey fields := h.2
    exact hfields.exists_key ho
  | .object (some typeName) fields =>
    have hfields : FieldsNamedByKey fields := h.2
    rcases List.mem_cons.mp ho with rfl | ho
    · exact ⟨key, h.1 typeName rfl⟩
    · exact hfields.exists_key ho
termination_by structural node

private theorem FieldsNamedByKey.exists_key {fs : List Field} (h : FieldsNamedByKey fs)
    {o : NamedObject} (ho : o ∈ fieldsPreorder fs) : ∃ key, o.typeName = Ident.ofKey key := by
  match fs with
  | [] => cases ho
  | ⟨key, node, example?, quoted⟩ :: fs =>
    have hnode : node.NamedByKey key := h.1
    have hrest : FieldsNamedByKey fs := h.2
    rcases List.mem_append.mp ho with ho | ho
    · exact hnode.exists_key ho
    · exact hrest.exists_key ho
termination_by structural fs

end

/-! ## The registry of a model -/

/-- A document with a model is an object or an array that begins with one.  The root has the fields
found for that object, and the named objects are those in these fields. -/
theorem infer_ok {o : InferOptions} {v : Json.Value} {model : Model}
    (h : infer o v = .ok model) :
    ∃ ms fields, treeFields o ms = .ok fields ∧ model.named = fieldsPreorder fields ∧
      (v = .object ms ∧ model.root = .object none fields ∨
        (∃ rest, v = .array (.object ms :: rest)) ∧
          model.root = .array (.object none fields)) := by
  rw [infer_eq] at h
  obtain ⟨root, hroot, rfl⟩ := map_eq_ok_iff.mp h
  obtain ⟨ms, fields, hfields, hshape⟩ := treeRoot_ok hroot
  refine ⟨ms, fields, hfields, ?_, hshape⟩
  rcases hshape with ⟨-, rfl⟩ | ⟨-, rfl⟩ <;> rfl

/-- Every named object of the model of a document is named after a key. -/
theorem infer_named_key {o : InferOptions} {v : Json.Value} {model : Model}
    (h : infer o v = .ok model) {named : NamedObject} (hnamed : named ∈ model.named) :
    ∃ key, named.typeName = Ident.ofKey key := by
  obtain ⟨ms, fields, hfields, heq, -⟩ := infer_ok h
  rw [heq] at hnamed
  exact (treeFields_namedByKey hfields).exists_key hnamed

/-- The registry of a model lists exactly the named objects of its tree, in pre-order and with
their own fields.  The root is an object without a name or an array of them, so it is not listed;
every listed object is named after its key; and entries that were there before the run stay as they
are. -/
theorem infer_named_eq_preorder {o : InferOptions} {v : Json.Value} {model : Model}
    (h : infer o v = .ok model) :
    model.named = model.root.preorder ∧
      (∃ fields, (model.root = .object none fields ∨ model.root = .array (.object none fields)) ∧
        model.root.preorder = fieldsPreorder fields ∧ FieldsNamedByKey fields) ∧
      ∀ registry, (inferRoot o v).run registry =
        .ok (model.root, registry ++ model.root.preorder) := by
  rw [infer_eq] at h
  obtain ⟨root, hroot, rfl⟩ := map_eq_ok_iff.mp h
  obtain ⟨ms, fields, hfields, hshape⟩ := treeRoot_ok hroot
  refine ⟨rfl, ⟨fields, ?_, ?_, treeFields_namedByKey hfields⟩, ?_⟩
  · exact hshape.imp And.right And.right
  · rcases hshape with ⟨-, rfl⟩ | ⟨-, rfl⟩ <;> rfl
  · intro registry
    rw [inferRoot_eq, hroot]
    rfl

/-- A document in which objects stand in objects, in arrays and in arrays of arrays. -/
def sectionsDocument : Json.Value :=
  .object
    [("b_section", .object [("leaf", .object [("x", .null)])]),
     ("a_list", .array [.object [("inner", .array [.object [("y", .null)]])]]),
     ("c", .array [.array [.object [("z", .null)]]])]

/-- Parents are listed before the objects in them, and sections in the order of their keys. -/
theorem infer_named_eq_preorder_sections :
    ∃ model, infer { nesting := .named } sectionsDocument = .ok model ∧
      model.named.map (·.typeName) = ["AList", "Inner", "BSection", "Leaf", "C"] ∧
      model.named = model.root.preorder :=
  ⟨_, rfl, rfl,
    (infer_named_eq_preorder (o := { nesting := .named }) (v := sectionsDocument) rfl).1⟩

end Exemplar
