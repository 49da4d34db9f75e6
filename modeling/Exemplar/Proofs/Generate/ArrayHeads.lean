import Exemplar.Generate
import Exemplar.Proofs.Struct.Examples

/-!
# The heads of arrays in generation

An array is taken for what its first item is, and structs show no other item.  The main statement:
cutting every array of a value to its first item changes nothing in its model but the examples, and
nothing at all in the structs that are written for it.
-/

namespace Exemplar

/-- A value whose arrays are cut to their first items has the model of the value with its examples
cut in the same way, so the two models are equal without examples, or it has the error of the
value; and the structs that are generated for it, or the error, are those of the value. -/
theorem infer_and_generateFromValue_heads (v : Json.Value) :
    (∀ o, infer o v.heads = (infer o v).map (Model.mapExamples Json.Value.heads) ∧
      (infer o v.heads).map Model.eraseExamples = (infer o v).map Model.eraseExamples) ∧
      ∀ options, generateFromValue v.heads .go options = generateFromValue v .go options := by
  have hinfer : ∀ o, infer o v.heads = (infer o v).map (Model.mapExamples Json.Value.heads) :=
    fun o => infer_of_shape Json.keepsShape_heads o v
  refine ⟨fun o => ⟨hinfer o, ?_⟩, fun options => ?_⟩
  · rw [hinfer, map_map_outcome]
    simp only [Model.eraseExamples_mapExamples]
  · rw [generateFromValue, generateFromValue, hinfer]
    cases infer { nesting := (Target.go.emitter options).nesting,
                  refineStrings := options.refineStrings } v with
    | error e => rfl
    | ok model =>
      exact Struct.emit_mapExamples (Struct.shownExample?_of_shape Json.keepsShape_heads)
        options.style model (Ident.root options.rootName?)

end Exemplar
