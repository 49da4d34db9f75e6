import Exemplar.Proofs.Shape.References
import Exemplar.Proofs.Struct.Columns

/-!
# References in files of structs

The named types that a file of structs writes.  The main statement: a line with a field of a named
type ends, before the tag, with the name of the object that the type refers to, and the
declaration of that object with its very fields stands in the same file.
-/

namespace Exemplar.Struct

/-! ## Types -/

private theorem exists_typeOpening_eq_of_referred (node : Node) {o : NamedObject}
    (h : node.referred? = some o) :
    ∃ n, typeOpening node = (List.replicate n ['[', ']']).flatten ++ o.typeName.toList := by
  match node with
  | .scalar _ | .object none _ => cases h
  | .array element =>
    obtain ⟨n, hn⟩ := exists_typeOpening_eq_of_referred element h
    refine ⟨n + 1, ?_⟩
    rw [typeOpening_array, hn, List.replicate_succ, List.flatten_cons]
    rfl
  | .object (some typeName) fields =>
    obtain rfl := Option.some.inj h
    exact ⟨0, typeOpening_named typeName fields⟩
termination_by structural node

private theorem typeLines?_eq_none_of_referred (depth : Nat) (node : Node) {o : NamedObject}
    (h : node.referred? = some o) : typeLines? depth node = none := by
  match node with
  | .scalar _ | .object none _ => cases h
  | .array element => exact typeLines?_eq_none_of_referred depth element h
  | .object (some typeName) fields => rfl
termination_by structural node

/-! ## Lines -/

/-- Whether a line with the field of a named type has the identifier of the field and its type for
code. -/
def Line.WritesReference (l : Line) : Prop :=
  ∀ f o, l.field? = some f → f.node.referred? = some o →
    l.code = (Ident.ofKey f.key).toList ++ ' ' :: typeOpening f.node

private theorem lineCases_writesReference :
    LineCases (fun _ => True) fun _ ls => ∀ l ∈ ls, l.WritesReference where
  nil _ l hl := by cases hl
  append _ ls ms hls hms l hl := (List.mem_append.mp hl).elim (hls l) (hms l)
  field := by
    intro depth f _ hbody l hl
    unfold linesOfField at hl
    cases hlines : typeLines? (depth + 1) f.node with
    | none =>
      simp only [hlines, List.mem_singleton] at hl
      subst hl
      rintro g o ⟨⟩ -
      rfl
    | some body =>
      simp only [hlines, List.mem_cons, List.mem_append, List.not_mem_nil, or_false] at hl
      rcases hl with rfl | hl | rfl
      · rintro g o ⟨⟩
      · exact hbody body hlines l hl
      · -- The end of a struct has the field, but its type refers to no named object.
        rintro g o ⟨⟩ hreferred
        rw [typeLines?_eq_none_of_referred (depth + 1) f.node hreferred] at hlines
        cases hlines

/-! ## Files -/

private theorem writesReference_declarationLines (name : String) (isArray : Bool)
    (fields : List Field) :
    ∀ l ∈ declarationLines name isArray fields, l.WritesReference := by
  intro l hl
  simp only [declarationLines, List.mem_cons, List.mem_append, List.not_mem_nil, or_false] at hl
  rcases hl with rfl | hl | rfl
  · rintro f o ⟨⟩
  · exact linesOfFields_induct lineCases_writesReference 1 fields (fun _ _ => trivial) l hl
  · rintro f o ⟨⟩

private theorem writesReference_fileLines (root : RootFields) (named : List NamedObject)
    (rootName : String) : ∀ l ∈ fileLines root named rootName, l.WritesReference := by
  intro l hl
  rcases List.mem_append.mp hl with hl | hl
  · exact writesReference_declarationLines rootName root.isArray root.fields l hl
  · obtain ⟨o, -, hl⟩ := List.mem_flatMap.mp hl
    exact writesReference_declarationLines o.typeName false o.fields l hl

private theorem declarationLines_infix_fileLines (root : RootFields) {named : List NamedObject}
    (rootName : String) {o : NamedObject} (ho : o ∈ named) :
    declarationLines o.typeName false o.fields <:+: fileLines root named rootName := by
  obtain ⟨before, after, rfl⟩ := List.append_of_mem ho
  unfold fileLines
  rw [List.flatMap_append, List.flatMap_cons, ← List.append_assoc, ← List.append_assoc]
  exact List.infix_append _ _ _

/-- Whether the named types of a file have their declarations: a line with the field of a named
type is written with the name of the object that the type refers to, and the declaration of that
object stands in the file. -/
def ReferencesDeclared (ls : List Line) : Prop :=
  ∀ l ∈ ls, ∀ f o, l.field? = some f → f.node.referred? = some o →
    (∃ n, l.code = (Ident.ofKey f.key).toList ++
      ' ' :: ((List.replicate n ['[', ']']).flatten ++ o.typeName.toList)) ∧
    declarationLines o.typeName false o.fields <:+: ls

/-- The named types in the file of a document's model have their declarations. -/
theorem referencesDeclared_of_infer {o : InferOptions} {v : Json.Value} {model : Model}
    (h : infer o v = .ok model) {root : RootFields} (hroot : model.root.rootFields = .ok root)
    (rootName : String) : ReferencesDeclared (fileLines root model.named rootName) := by
  intro l hl f x hfield hx
  have hcode := writesReference_fileLines root model.named rootName l hl f x hfield hx
  obtain ⟨n, htype⟩ := exists_typeOpening_eq_of_referred f.node hx
  refine ⟨⟨n, by rw [hcode, htype]⟩, ?_⟩
  have hperm := perm_taggedFields_fileLines hroot rootName
  rw [← infer_named_eq h hroot] at hperm
  have hdeep : f ∈ model.root.deepFields :=
    hperm.mem_iff.mp (List.mem_filterMap.mpr ⟨l, hl, hfield⟩)
  exact declarationLines_infix_fileLines root rootName (infer_referred h hdeep hx)

end Exemplar.Struct
