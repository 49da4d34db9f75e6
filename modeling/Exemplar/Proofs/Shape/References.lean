import Exemplar.Proofs.Shape.Depth

/-!
# Objects that are referred to by name

The named object that the type of a field refers to, directly or through arrays.  The main
statement: an object that a field of a model refers to, at any depth, has an entry of its own with
the very fields it was found with.
-/

namespace Exemplar

/-- The named object that the type of a node refers to, through arrays. -/
def Node.referred? : Node → Option NamedObject
  | .array element => element.referred?
  | .object (some typeName) fields => some { typeName, fields }
  | .scalar _ | .object none _ => none
termination_by structural node => node

private theorem Node.mem_preorder_of_referred? {node : Node} {o : NamedObject}
    (h : node.referred? = some o) : o ∈ node.preorder := by
  match node with
  | .scalar _ | .object none _ => cases h
  | .array element => exact element.mem_preorder_of_referred? h
  | .object (some typeName) fields =>
    obtain rfl := Option.some.inj h
    exact List.mem_cons_self
termination_by structural node

mutual

private theorem Node.preorder_subset {node : Node} {f : Field} (hf : f ∈ node.deepFields) :
    f.node.preorder ⊆ node.preorder := by
  match node with
  | .scalar _ => cases hf
  | .array element => exact element.preorder_subset hf
  | .object none fields => exact fieldsPreorder_subset fields hf
  | .object (some _) fields =>
    exact List.Subset.trans (fieldsPreorder_subset fields hf) (List.subset_cons_self _ _)
termination_by structural node

private theorem fieldsPreorder_subset (fs : List Field) {f : Field} (hf : f ∈ deepFields fs) :
    f.node.preorder ⊆ fieldsPreorder fs := by
  match fs with
  | [] => cases hf
  | ⟨key, node, example?, quoted⟩ :: fs =>
    rw [fieldsPreorder]
    rcases List.mem_cons.mp hf with rfl | hf
    · exact List.subset_append_left _ _
    · rcases List.mem_append.mp hf with hf | hf
      · exact List.Subset.trans (node.preorder_subset hf) (List.subset_append_left _ _)
      · exact List.Subset.trans (fieldsPreorder_subset fs hf) (List.subset_append_right _ _)
termination_by structural fs

end

/-- An object that a field of the model of a document refers to has an entry. -/
theorem infer_referred {o : InferOptions} {v : Json.Value} {model : Model}
    (h : infer o v = .ok model) {f : Field} (hf : f ∈ model.root.deepFields) {x : NamedObject}
    (hx : f.node.referred? = some x) : x ∈ model.named := by
  obtain ⟨root, hroot⟩ := infer_rootFields h
  rw [rootFields_deepFields hroot] at hf
  rw [infer_named_eq h hroot]
  exact fieldsPreorder_subset root.fields hf (Node.mem_preorder_of_referred? hx)

end Exemplar
