import Exemplar.Proofs.Shape.Fields
import Exemplar.Proofs.Shape.Options

/-!
# Models without refined strings

A string may be taken for what it spells, or left a string.  The main statement: that choice shows
at strings alone.  Without refinement an inference fails as it does with it, and finds the same
model, but that every field whose example is a string holds a plain string and is not quoted.
-/

namespace Exemplar

/-! ## Plain strings -/

/-- Whether the example of a field is a string. -/
def showsString : Option Json.Value → Bool
  | some (.string _) => true
  | _ => false

mutual

/-- A node in which every field whose example is a string holds a plain string. -/
def Node.unrefined : Node → Node
  | .scalar kind => .scalar kind
  | .array element => .array element.unrefined
  | .object name? fields => .object name? (fieldsUnrefined fields)
termination_by structural node => node

/-- Fields of which every one whose example is a string holds a plain string, not quoted; so do
those inside the others, which stay as they are but for that. -/
def fieldsUnrefined : List Field → List Field
  | [] => []
  | ⟨key, node, example?, quoted⟩ :: fields =>
    (if showsString example? then ⟨key, .scalar .string, example?, false⟩
      else ⟨key, node.unrefined, example?, quoted⟩) :: fieldsUnrefined fields
termination_by structural fields => fields

end

/-- A field that holds a plain string if its example is one, as do the fields inside it. -/
def fieldUnrefined (f : Field) : Field :=
  if showsString f.example? then { f with node := .scalar .string, quoted := false }
  else { f with node := f.node.unrefined }

/-- A named object in whose fields every string is plain. -/
def NamedObject.unrefined (o : NamedObject) : NamedObject where
  typeName := o.typeName
  fields := fieldsUnrefined o.fields

/-- A model in which every string is plain. -/
def Model.unrefined (model : Model) : Model where
  root := model.root.unrefined
  named := model.named.map NamedObject.unrefined

private theorem fieldsUnrefined_eq_map (fs : List Field) :
    fieldsUnrefined fs = fs.map fieldUnrefined := by
  induction fs with
  | nil => rfl
  | cons f fs ih =>
    rw [List.map_cons, ← ih]
    rfl

/-! ## The registry -/

/-- Whether a field holds a scalar if its example is a string. -/
def StringIsScalar (f : Field) : Prop :=
  showsString f.example? = true → ∃ kind, f.node = .scalar kind

private theorem holdsOfFound_stringIsScalar (o : InferOptions) :
    HoldsOfFound o (fun _ => True) StringIsScalar where
  first _ := trivial
  member _ _ := trivial
  scalar _ _ _ _ := ⟨_, rfl⟩
  scalars _ _ _ h := by cases h
  objects _ _ _ _ h := by cases h
  object _ _ _ h := by cases h

mutual

private theorem Node.preorder_unrefined {node : Node} (h : node.AllFields StringIsScalar) :
    node.unrefined.preorder = node.preorder.map NamedObject.unrefined := by
  match node with
  | .scalar _ => rfl
  | .array element =>
    have helement : element.AllFields StringIsScalar := h
    have ih := Node.preorder_unrefined helement
    exact ih
  | .object none fields =>
    have ih := fieldsPreorder_unrefined h
    exact ih
  | .object (some typeName) fields =>
    have ih := fieldsPreorder_unrefined h
    rw [Node.preorder, List.map_cons, ← ih]
    rfl
termination_by structural node

private theorem fieldsPreorder_unrefined {fs : List Field} (h : AllFieldsIn StringIsScalar fs) :
    fieldsPreorder (fieldsUnrefined fs) = (fieldsPreorder fs).map NamedObject.unrefined := by
  match fs with
  | [] => rfl
  | ⟨key, node, example?, quoted⟩ :: fs =>
    have hnode := Node.preorder_unrefined h.2.1
    have hrest := fieldsPreorder_unrefined h.2.2
    rw [fieldsUnrefined, fieldsPreorder_cons, fieldsPreorder_cons, List.map_append, ← hrest]
    by_cases hstring : showsString example? = true
    · obtain ⟨kind, hkind⟩ := h.1 hstring
      rw [if_pos hstring, fieldPreorder, fieldPreorder, hkind]
      rfl
    · rw [if_neg hstring, fieldPreorder, fieldPreorder, hnode]
termination_by structural fs

end

/-! ## The two runs -/

private theorem takesFields_unrefined (nesting : Nesting) :
    TakesFields { nesting, refineStrings := true } { nesting, refineStrings := false }
      fieldUnrefined where
  scalar {v r r'} hr hr' key := by
    match v with
    | .null | .bool _ | .number _ =>
      obtain rfl := Option.some.inj (hr.symm.trans hr')
      rfl
    | .string s =>
      obtain rfl := Option.some.inj hr
      obtain rfl := Option.some.inj hr'
      rfl
    | .array _ | .object _ => cases hr
  scalars _ _ _ := rfl
  objects key name fields items := by
    rw [← fieldsUnrefined_eq_map]
    rfl
  object key fields := by
    rw [← fieldsUnrefined_eq_map]
    rfl

/-- Without refinement of strings an inference fails on a value with the error that it fails with if
they are refined.  Otherwise it finds the same tree and the same registry, but that every field
whose example is a string holds a plain string and is not quoted. -/
theorem infer_unrefined_eq (nesting : Nesting) (v : Json.Value) :
    infer { nesting, refineStrings := false } v =
      (infer { nesting, refineStrings := true } v).map Model.unrefined := by
  have hroot : treeRoot { nesting, refineStrings := false } v =
      (treeRoot { nesting, refineStrings := true } v).map Node.unrefined := by
    refine (takesFields_unrefined nesting).treeRoot_eq (fun fields => ?_) (fun fields => ?_) v
    · rw [← fieldsUnrefined_eq_map, Node.unrefined]
    · rw [← fieldsUnrefined_eq_map, Node.unrefined, Node.unrefined]
  cases hmodel : infer { nesting, refineStrings := true } v with
  | error e =>
    rw [infer_eq] at hmodel ⊢
    rw [hroot]
    cases htree : treeRoot { nesting, refineStrings := true } v with
    | error e' =>
      rw [htree] at hmodel
      exact hmodel
    | ok root =>
      rw [htree] at hmodel
      cases hmodel
  | ok model =>
    have hall := ((holdsOfFound_stringIsScalar _).of_infer trivial hmodel).root
    rw [infer_eq] at hmodel
    obtain ⟨root, htree, rfl⟩ := map_eq_ok_iff.mp hmodel
    rw [infer_eq, hroot, htree]
    simp only [Except.map, Node.preorder_unrefined hall, Model.unrefined]

end Exemplar
