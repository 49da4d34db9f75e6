import Exemplar.Proofs.Shape.Examples
import Exemplar.Struct.Emit

/-!
# Examples in struct declarations

What a file of structs takes from the examples of a model.  The main statement: two models that
differ only in examples, of which each shows the same text as its counterpart, are written alike.
-/

namespace Exemplar.Struct

/-- The text that an example shows: that of a scalar, or of the first item of an array. -/
def shownExample? : Json.Value → Option (List Char)
  | .array [] => none
  | .array (first :: _) => scalarExample? first
  | v => scalarExample? v

private theorem example?_eq_bind (f : Field) : example? f = f.example?.bind shownExample? := by
  match f with
  | ⟨_, _, none, _⟩ | ⟨_, _, some (.array []), _⟩ | ⟨_, _, some (.array (_ :: _)), _⟩ => rfl
  | ⟨_, _, some .null, _⟩ | ⟨_, _, some (.bool _), _⟩ | ⟨_, _, some (.number _), _⟩
  | ⟨_, _, some (.string _), _⟩ | ⟨_, _, some (.object _), _⟩ => rfl

variable {g : Json.Value → Json.Value}

private theorem comment_mapExamples (hg : ∀ v, shownExample? (g v) = shownExample? v)
    (examples : Bool) (f : Field) :
    comment examples (fieldMapExamples g f) = comment examples f := by
  have hexample : example? (fieldMapExamples g f) = example? f := by
    rw [example?_eq_bind, example?_eq_bind, fieldMapExamples]
    cases f.example? with
    | none => rfl
    | some v => exact hg v
  rw [comment, comment, hexample]

mutual

private theorem typeText_mapExamples (hg : ∀ v, shownExample? (g v) = shownExample? v)
    (examples : Bool) (node : Node) :
    typeText examples (node.mapExamples g) = typeText examples node := by
  match node with
  | .scalar kind => rw [Node.mapExamples]
  | .array element =>
    simp only [Node.mapExamples, typeText, typeText_mapExamples hg examples element]
  | .object (some _) _ => simp only [Node.mapExamples, typeText]
  | .object none fields =>
    simp only [Node.mapExamples, typeText, fieldsLines_mapExamples hg examples fields]
termination_by structural node

private theorem fieldsLines_mapExamples (hg : ∀ v, shownExample? (g v) = shownExample? v)
    (examples : Bool) (fs : List Field) :
    fieldsLines examples (fieldsMapExamples g fs) = fieldsLines examples fs := by
  match fs with
  | [] => rfl
  | ⟨key, node, found?, quoted⟩ :: fs =>
    have hcomment := comment_mapExamples hg examples ⟨key, node, found?, quoted⟩
    rw [fieldMapExamples] at hcomment
    rw [fieldsMapExamples, fieldsLines, fieldsLines, typeText_mapExamples hg examples node,
      fieldsLines_mapExamples hg examples fs, fieldLinesOf, fieldLinesOf, hcomment]
termination_by structural fs

end

private theorem declaration_mapExamples (hg : ∀ v, shownExample? (g v) = shownExample? v)
    (style : Style) (name : String) (isArray : Bool) (fs : List Field) :
    declaration style name isArray (fieldsMapExamples g fs) =
      declaration style name isArray fs := by
  rw [declaration, declaration, fieldsLines_mapExamples hg]

variable (g)

mutual

private theorem mentions_mapExamples (kind : ScalarKind) (node : Node) :
    mentions kind (node.mapExamples g) = mentions kind node := by
  match node with
  | .scalar _ | .object (some _) _ => rfl
  | .array element => exact mentions_mapExamples kind element
  | .object none fields => exact fieldsMention_mapExamples kind fields
termination_by structural node

private theorem fieldsMention_mapExamples (kind : ScalarKind) (fs : List Field) :
    fieldsMention kind (fieldsMapExamples g fs) = fieldsMention kind fs := by
  match fs with
  | [] => rfl
  | ⟨key, node, found?, quoted⟩ :: fs =>
    rw [fieldsMapExamples, fieldsMention, fieldsMention, mentions_mapExamples kind node,
      fieldsMention_mapExamples kind fs]
termination_by structural fs

end

private theorem imports_mapExamples (root : List Field) (named : List NamedObject) :
    imports (fieldsMapExamples g root) (named.map (NamedObject.mapExamples g)) =
      imports root named := by
  simp only [imports, fieldsMention_mapExamples, List.any_map, Function.comp_def,
    NamedObject.mapExamples]

variable {g}

private theorem source_mapExamples (hg : ∀ v, shownExample? (g v) = shownExample? v) (style : Style)
    (model : Model) (rootName : String) :
    source style (model.mapExamples g) rootName = source style model rootName := by
  rw [source, source, Model.mapExamples, Node.rootFields_mapExamples]
  cases model.root.rootFields with
  | error e => rfl
  | ok root =>
    have hhead : preamble style (fieldsMapExamples g root.fields)
        (model.named.map (NamedObject.mapExamples g)) = preamble style root.fields model.named := by
      rw [preamble, preamble, imports_mapExamples]
    change (do
      let head ← preamble style (fieldsMapExamples g root.fields)
        (model.named.map (NamedObject.mapExamples g))
      let first ← declaration style rootName root.isArray (fieldsMapExamples g root.fields)
      let others ← (model.named.map (NamedObject.mapExamples g)).mapM fun o : NamedObject =>
        (declaration style o.typeName false o.fields).map ("\n" ++ ·)
      Except.ok (head ++ first ++ String.join others)) = _
    rw [hhead, declaration_mapExamples hg, List.mapM_map]
    simp only [Function.comp_def, NamedObject.mapExamples, declaration_mapExamples hg]
    rfl

/-- A model with changed examples has the same file. -/
theorem emit_mapExamples (hg : ∀ v, shownExample? (g v) = shownExample? v) (style : Style)
    (model : Model) (rootName : String) :
    emit style (model.mapExamples g) rootName = emit style model rootName := by
  rw [emit, emit, source_mapExamples hg]

/-- A function that keeps shapes does not change what an example shows. -/
theorem shownExample?_of_shape (hg : Json.KeepsShape g) (v : Json.Value) :
    shownExample? (g v) = shownExample? v := by
  have hscalar : ∀ v, scalarExample? (g v) = scalarExample? v :=
    hg.relates (R := fun v w => scalarExample? w = scalarExample? v) (fun _ => rfl)
      (fun _ _ _ => rfl) (fun _ _ _ => rfl)
  exact hg.relates (R := fun v w => shownExample? w = shownExample? v) (fun _ => rfl)
    (fun first _ _ => hscalar first) (fun _ _ _ => rfl) v

end Exemplar.Struct
