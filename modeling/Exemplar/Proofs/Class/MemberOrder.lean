import Exemplar.Class.Emit
import Exemplar.Proofs.Shape.Examples

/-!
# The order of members in class declarations

Class declarations take values from the examples of a model: literals for scalars, and statements
for the items of an array, whose members are looked up by key.  The main statement: a model with
sorted examples is written like the model itself.
-/

namespace Exemplar.Class

private theorem literal_sorted (d : Dialect) (kind : ScalarKind) (v : Json.Value) (key : String)
    (quoted : Bool) : literal d kind v.sorted key quoted = literal d kind v key quoted := by
  match v with
  | .null | .bool _ | .number _ | .string _ => rfl
  | .array items =>
    have hkind := Json.keepsShape_sorted.kind_eq (.array items)
    rw [Json.Value.sorted] at hkind ⊢
    cases kind <;> rw [literal, literal, hkind] <;> rfl
  | .object members => cases kind <;> rfl

private theorem isNull_sorted (v : Json.Value) : v.sorted.isNull = v.isNull := by
  match v with
  | .null | .bool _ | .number _ | .string _ | .array _ | .object _ => rfl

private theorem items_sorted (v : Json.Value) : v.sorted.items = v.items.map Json.Value.sorted := by
  match v with
  | .null | .bool _ | .number _ | .string _ | .object _ => rfl
  | .array items => exact Json.itemsSorted_eq_map items

private theorem fieldStatements_sorted (d : Dialect) (var : String)
    (ms : List (String × Json.Value)) (f : Field) :
    fieldStatements d var (sortByKey (Json.membersSorted ms))
        (fieldMapExamples Json.Value.sorted f) = fieldStatements d var ms f := by
  obtain ⟨key, node, found?, quoted⟩ := f
  rw [fieldStatements, fieldStatements, fieldMapExamples, Json.lookup_sorted]
  cases ms.lookup key with
  | none => rfl
  | some v =>
    cases node with
    | scalar kind =>
      simp only [Option.map_some, Node.mapExamples, isNull_sorted, literal_sorted]
    | array element => rfl
    | object name? fields => rfl

private theorem itemStatements_sorted (d : Dialect) (typeName key : String) (fs : List Field)
    (index : Nat) (v : Json.Value) :
    itemStatements d typeName key (fieldsMapExamples Json.Value.sorted fs) index v.sorted =
      itemStatements d typeName key fs index v := by
  match v with
  | .null | .bool _ | .number _ | .string _ | .array [] | .array (_ :: _) => rfl
  | .object ms =>
    have hsetters :
        (fieldsMapExamples Json.Value.sorted fs).mapM
            (fieldStatements d (itemVar index) (sortByKey (Json.membersSorted ms))) =
          fs.mapM (fieldStatements d (itemVar index) ms) := by
      rw [fieldsMapExamples_eq_map, List.mapM_map]
      exact mapM_congr fun f _ => fieldStatements_sorted d (itemVar index) ms f
    rw [Json.Value.sorted, itemStatements, itemStatements, hsetters]

private theorem arrayStatements_sorted (d : Dialect) (typeName key : String) (vs : List Json.Value)
    (fs : List Field) :
    arrayStatements d typeName key (vs.map Json.Value.sorted)
        (fieldsMapExamples Json.Value.sorted fs) = arrayStatements d typeName key vs fs := by
  have hfrom : ∀ index, statementsFrom d typeName key (fieldsMapExamples Json.Value.sorted fs)
      index (vs.map Json.Value.sorted) = statementsFrom d typeName key fs index vs := by
    induction vs with
    | nil => exact fun _ => rfl
    | cons v vs ih =>
      intro index
      rw [List.map_cons, statementsFrom, statementsFrom, itemStatements_sorted, ih]
  exact hfrom 0

private theorem member_sorted (d : Dialect) (f : Field) :
    member d (fieldMapExamples Json.Value.sorted f) = member d f := by
  obtain ⟨key, node, found?, quoted⟩ := f
  have hfound : (found?.map Json.Value.sorted).getD .null = (found?.getD .null).sorted := by
    cases found? <;> rfl
  match node with
  | .scalar kind =>
    simp only [member, fieldMapExamples, Node.mapExamples, hfound, literal_sorted]
  | .array (.scalar kind) =>
    simp only [member, fieldMapExamples, Node.mapExamples, hfound, items_sorted, List.mapM_map,
      Function.comp_def, literal_sorted]
  | .array (.object (some typeName) fields) =>
    simp only [member, fieldMapExamples, Node.mapExamples, hfound, items_sorted,
      arrayStatements_sorted, List.length_map]
  | .array (.object none _) | .array (.array _) | .object (some _) _ | .object none _ => rfl

private theorem body_sorted (d : Dialect) (fs : List Field) :
    body d (fieldsMapExamples Json.Value.sorted fs) = body d fs := by
  rw [body, body, fieldsMapExamples_eq_map, List.mapM_map]
  exact congrArg _ (mapM_congr fun f _ => member_sorted d f)

/-- A model with sorted examples has the same file. -/
theorem emit_sorted (d : Dialect) (model : Model) (rootName : String) :
    emit d (model.mapExamples Json.Value.sorted) rootName = emit d model rootName := by
  rw [emit, emit, Model.mapExamples, Node.rootFields_mapExamples]
  cases model.root.rootFields with
  | error e => rfl
  | ok root =>
    have hroot : rootClass d rootName
        { root with fields := fieldsMapExamples Json.Value.sorted root.fields } =
          rootClass d rootName root := by
      rw [rootClass, rootClass, body_sorted]
    have hnamed : (model.named.map (NamedObject.mapExamples Json.Value.sorted)).mapM
        (namedClass d) = model.named.mapM (namedClass d) := by
      rw [List.mapM_map]
      refine mapM_congr fun o _ => ?_
      rw [Function.comp_apply, namedClass, namedClass, NamedObject.mapExamples, body_sorted]
    change (do
      let first ← rootClass d rootName
        { root with fields := fieldsMapExamples Json.Value.sorted root.fields }
      let others ← (model.named.map (NamedObject.mapExamples Json.Value.sorted)).mapM (namedClass d)
      Except.ok (first ++ String.join others)) = _
    rw [hroot, hnamed]
    rfl

end Exemplar.Class
