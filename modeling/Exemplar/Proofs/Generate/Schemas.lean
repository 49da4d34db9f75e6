import Exemplar.Proofs.Generate.Documents
import Exemplar.Proofs.Generate.Selection
import Exemplar.Proofs.Shape.Schema

/-!
# Schemas that are dumped

The schema of a document as JSON, and as the text of that.  The main statement: no two models of
documents have one schema, and the text of a schema is read as that schema, as long as it has no
doubles and its brackets nest no deeper than is allowed.
-/

namespace Exemplar

open Json

private theorem load_wellFormed {bytes : List UInt8} {options : GenerateOptions} {v : Value}
    (h : load bytes options = .ok v) : v.WellFormed := by
  obtain ⟨document, hparse, hselect⟩ := bind_eq_ok_iff.mp h
  have hdocument := read_wellFormed (parseDocument_eq_ok_iff.mp hparse)
  cases hpointer : options.pointer? with
  | none =>
    rw [hpointer] at hselect
    exact Except.ok.inj hselect ▸ hdocument
  | some p =>
    rw [hpointer, select_eq_ok_iff] at hselect
    exact Pointer.wellFormed_of_select? hselect hdocument

private theorem model_of_inferSchema {bytes : List UInt8} {nesting : Nesting}
    {options : GenerateOptions}
    {view : SchemaView} (h : inferSchema bytes nesting options = .ok view) :
    view.model.AllFields ShowsExample ∧ view.model.AllFields (ExampleIs Value.WellFormed) := by
  obtain ⟨v, hload, h⟩ := bind_eq_ok_iff.mp h
  obtain ⟨model, hmodel, h⟩ := bind_eq_ok_iff.mp h
  obtain rfl := Except.ok.inj h
  exact ⟨(holdsOfFound_showsExample _).of_infer trivial hmodel,
    (holdsOfFound_wellFormed _).of_infer (load_wellFormed hload) hmodel⟩

/-- Documents with one schema have the same name of the root and the same model, under whichever
choices, though a missing example is shown like null.  If their schemas differ in the order of
members alone, so do the models.  The text of a schema without doubles whose brackets nest no deeper
than is allowed is parsed as the schema. -/
theorem inferSchema_lossless {bytes : List UInt8} {nesting : Nesting} {options : GenerateOptions}
    {view : SchemaView} (h : inferSchema bytes nesting options = .ok view) :
    (∀ key node quoted, schemaField key node none quoted =
      schemaField key node (some .null) quoted) ∧
    (∀ bytes' nesting' options' view', inferSchema bytes' nesting' options' = .ok view' →
      (view.toJson = view'.toJson → view = view') ∧
      (Reordered view.toJson view'.toJson → view.rootName = view'.rootName ∧
        view.model.mapExamples Value.sorted = view'.model.mapExamples Value.sorted)) ∧
    (view.model.AllFields (ExampleIs Value.WithoutDoubles) → view.toJson.depth ≤ maxDepth →
      parseDocument (Text.Utf8.encode view.toJson.pretty.toList) = .ok view.toJson) := by
  obtain ⟨hshows, hwellFormed⟩ := model_of_inferSchema h
  have hjson : view.toJson.WellFormed := holdsOfWhole_wellFormed.toJson hwellFormed
  refine ⟨fun _ _ _ => rfl, fun bytes' nesting' options' view' h' => ⟨?equal, ?reordered⟩, ?text⟩
  case equal =>
    intro heq
    obtain ⟨hname, hmodel⟩ := SchemaView.eq_of_toJson keepsMembers_id hshows
      (model_of_inferSchema h').1 heq
    rw [Model.mapExamples_id, Model.mapExamples_id] at hmodel
    cases view
    cases view'
    exact congr (congrArg SchemaView.mk hname) hmodel
  case reordered =>
    intro hreordered
    exact SchemaView.eq_of_toJson keepsMembers_sorted hshows (model_of_inferSchema h').1
      (hreordered.sorted_eq hjson)
  case text =>
    intro hplain hdepth
    rw [parseDocument_eq_ok_iff, Value.pretty, String.toList_ofList]
    exact read_write Spacing.blank_pretty hjson (holdsOfWhole_withoutDoubles.toJson hplain) hdepth 0

/-- An object with nulls, a string that needs escapes, and an object without members. -/
def nullsValue : Value :=
  .object [("a", .null), ("b", .object []), ("c", .array [.string "\n\"\x01", .null])]

/-- The schema of a text of that object tells it from the texts of others, and is read back. -/
theorem inferSchema_lossless_nulls :
    ∃ view, inferSchema (Text.Utf8.encode (write .compact 0 nullsValue)) .inline {} = .ok view ∧
      (∀ bytes nesting options view', inferSchema bytes nesting options = .ok view' →
        view.toJson = view'.toJson → view = view') ∧
      parseDocument (Text.Utf8.encode view.toJson.pretty.toList) = .ok view.toJson := by
  have hread : read (Text.Utf8.encode (write .compact 0 nullsValue)) = .ok nullsValue := by
    refine read_write Spacing.blank_compact ?_ ?_ ?_ 0
    · simp [nullsValue, Value.WellFormed, itemsWellFormed, membersWellFormed]
    · simp [nullsValue, Value.WithoutDoubles, itemsWithoutDoubles, membersWithoutDoubles]
    · decide
  have hload : load (Text.Utf8.encode (write .compact 0 nullsValue)) {} = .ok nullsValue := by
    rw [load, parseDocument_eq_ok_iff.mpr hread]
    rfl
  have hview : inferSchema (Text.Utf8.encode (write .compact 0 nullsValue)) .inline {} =
      .ok { rootName := Ident.root none,
            model := ⟨.object none
              [scalarField "a" .any .null, objectField "b" (.object none []),
                arrayField "c" (.scalar .string) [.string "\n\"\x01", .null]], []⟩ } := by
    rw [inferSchema, hload]
    rfl
  obtain ⟨-, hequal, htext⟩ := inferSchema_lossless hview
  refine ⟨_, hview, fun bytes nesting options view' h => (hequal bytes nesting options view' h).1,
    htext ⟨?_, ?_⟩ (by decide)⟩
  · simp [Node.AllFields, AllFieldsIn, ExampleIs, scalarField, objectField, arrayField,
      Value.WithoutDoubles, itemsWithoutDoubles]
  · exact fun _ h => (List.not_mem_nil h).elim

end Exemplar
