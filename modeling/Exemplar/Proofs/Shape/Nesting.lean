import Exemplar.Proofs.Shape.Options
import Exemplar.Proofs.Shape.Registry

/-!
# The two ways of nesting

Named nesting gives a name to every object that a field holds directly and registers it; inline
nesting does not.  The main statement: apart from that the two find the same model.  The inline
model is the named one without these names and without the entries that were registered for them.
-/

namespace Exemplar

/-! ## Names under fields -/

/-- A node whose object, if it is one, has no name. -/
def Node.unnamed : Node → Node
  | .object _ fields => .object none fields
  | node => node

mutual

/-- A node in which no object that a field holds directly has a name.  The items of arrays keep
their names. -/
def Node.inlined : Node → Node
  | .scalar kind => .scalar kind
  | .array element => .array element.inlined
  | .object name? fields => .object name? (fieldsInlined fields)
termination_by structural node => node

/-- Fields in which no object that a field holds directly has a name. -/
def fieldsInlined : List Field → List Field
  | [] => []
  | ⟨key, node, example?, quoted⟩ :: fields =>
    ⟨key, node.inlined.unnamed, example?, quoted⟩ :: fieldsInlined fields
termination_by structural fields => fields

end

/-- A field that holds no named object directly, nor do the fields inside it. -/
def fieldInlined (f : Field) : Field where
  key := f.key
  node := f.node.inlined.unnamed
  example? := f.example?
  quoted := f.quoted

/-- A named object in whose fields no object that a field holds directly has a name. -/
def NamedObject.inlined (o : NamedObject) : NamedObject where
  typeName := o.typeName
  fields := fieldsInlined o.fields

private theorem fieldsInlined_eq_map (fs : List Field) :
    fieldsInlined fs = fs.map fieldInlined := by
  induction fs with
  | nil => rfl
  | cons f fs ih =>
    rw [List.map_cons, ← ih]
    rfl

/-! ## Entries of objects under fields -/

mutual

/-- The named objects of a node in pre-order, each with whether a field holds it directly. -/
def Node.placed (underField : Bool) : Node → List (NamedObject × Bool)
  | .scalar _ => []
  | .array element => element.placed false
  | .object none fields => fieldsPlaced fields
  | .object (some typeName) fields => ({ typeName, fields }, underField) :: fieldsPlaced fields
termination_by structural node => node

/-- The named objects of fields in pre-order, each with whether a field holds it directly. -/
def fieldsPlaced : List Field → List (NamedObject × Bool)
  | [] => []
  | ⟨_, node, _, _⟩ :: fields => node.placed true ++ fieldsPlaced fields
termination_by structural fields => fields

end

mutual

private theorem Node.map_fst_placed (underField : Bool) (node : Node) :
    (node.placed underField).map Prod.fst = node.preorder := by
  match node with
  | .scalar _ => rfl
  | .array element => exact element.map_fst_placed false
  | .object none fields => exact map_fst_fieldsPlaced fields
  | .object (some typeName) fields =>
    rw [Node.placed, List.map_cons, map_fst_fieldsPlaced fields, Node.preorder]
termination_by structural node

private theorem map_fst_fieldsPlaced (fs : List Field) :
    (fieldsPlaced fs).map Prod.fst = fieldsPreorder fs := by
  match fs with
  | [] => rfl
  | ⟨_, node, _, _⟩ :: fs =>
    rw [fieldsPlaced, List.map_append, node.map_fst_placed true, map_fst_fieldsPlaced fs,
      fieldsPreorder]
termination_by structural fs

end

/-- The entries of objects that stand in arrays, without names under fields: what is left of placed
entries when those of objects that a field holds directly are deleted. -/
def inlinedEntries (placed : List (NamedObject × Bool)) : List NamedObject :=
  (placed.filter fun p => !p.2).map fun p => p.1.inlined

private theorem inlinedEntries_append (ps qs : List (NamedObject × Bool)) :
    inlinedEntries (ps ++ qs) = inlinedEntries ps ++ inlinedEntries qs := by
  simp only [inlinedEntries, List.filter_append, List.map_append]

mutual

private theorem Node.preorder_inlined (node : Node) :
    node.inlined.preorder = inlinedEntries (node.placed false) ∧
      node.inlined.unnamed.preorder = inlinedEntries (node.placed true) := by
  match node with
  | .scalar _ => exact ⟨rfl, rfl⟩
  | .array element =>
    have helement := element.preorder_inlined.1
    exact ⟨helement, helement⟩
  | .object none fields =>
    have hfields := preorder_fieldsInlined fields
    exact ⟨hfields, hfields⟩
  | .object (some typeName) fields =>
    have hfields := preorder_fieldsInlined fields
    refine ⟨?_, hfields⟩
    change NamedObject.mk typeName (fieldsInlined fields) :: fieldsPreorder (fieldsInlined fields) =
      NamedObject.mk typeName (fieldsInlined fields) :: inlinedEntries (fieldsPlaced fields)
    rw [hfields]
termination_by structural node

private theorem preorder_fieldsInlined (fs : List Field) :
    fieldsPreorder (fieldsInlined fs) = inlinedEntries (fieldsPlaced fs) := by
  match fs with
  | [] => rfl
  | ⟨_, node, _, _⟩ :: fs =>
    rw [fieldsInlined, fieldsPreorder, fieldsPlaced, inlinedEntries_append,
      node.preorder_inlined.2, preorder_fieldsInlined fs]
termination_by structural fs

end

/-! ## The two runs -/

variable {refineStrings : Bool}

private theorem takesFields_inlined :
    TakesFields { nesting := .named, refineStrings } { nesting := .inline, refineStrings }
      fieldInlined where
  scalar {v r r'} hr hr' key := by
    have heq : leafKind? { nesting := .named, refineStrings } v =
        leafKind? { nesting := .inline, refineStrings } v := by
      cases v <;> rfl
    obtain rfl := Option.some.inj (hr.symm.trans (heq.trans hr'))
    rfl
  scalars _ _ _ := rfl
  objects key name fields items := by
    rw [← fieldsInlined_eq_map]
    rfl
  object key fields := by
    rw [← fieldsInlined_eq_map]
    rfl

private theorem treeRoot_inline (v : Json.Value) :
    treeRoot { nesting := .inline, refineStrings } v =
      (treeRoot { nesting := .named, refineStrings } v).map Node.inlined := by
  refine takesFields_inlined.treeRoot_eq (fun fields => ?_) (fun fields => ?_) v
  · rw [← fieldsInlined_eq_map, Node.inlined]
  · rw [← fieldsInlined_eq_map, Node.inlined, Node.inlined]

/-- Inline nesting fails on a value with the error that named nesting fails with.  Otherwise its
root is the named root without the names of objects that a field holds directly, and its registry
is the named one without the entries of these objects and without such names in the fields of the
other entries, in the same order. -/
theorem infer_inline_eq (refineStrings : Bool) (v : Json.Value) :
    infer { nesting := .inline, refineStrings } v =
        (infer { nesting := .named, refineStrings } v).map (fun model =>
          { root := model.root.inlined, named := inlinedEntries (model.root.placed false) }) ∧
      ∀ model, infer { nesting := .named, refineStrings } v = .ok model →
        (model.root.placed false).map Prod.fst = model.named := by
  constructor
  · rw [infer_eq, infer_eq, treeRoot_inline, map_map_outcome, map_map_outcome]
    simp only [(Node.preorder_inlined _).1]
  · intro model h
    rw [infer_eq] at h
    obtain ⟨root, -, rfl⟩ := map_eq_ok_iff.mp h
    exact root.map_fst_placed false

/-- Of the sections of a document only those in arrays are registered under inline nesting. -/
theorem infer_inline_eq_sections :
    ∃ named inline, infer { nesting := .named } sectionsDocument = .ok named ∧
      infer { nesting := .inline } sectionsDocument = .ok inline ∧
      (named.root.placed false).map Prod.fst = named.named ∧
      named.named.map (·.typeName) = ["AList", "Inner", "BSection", "Leaf", "C"] ∧
      inline.named.map (·.typeName) = ["AList", "Inner"] := by
  have h := infer_inline_eq true sectionsDocument
  exact ⟨_, _, rfl, h.1, h.2 _ rfl, rfl, rfl⟩

end Exemplar
