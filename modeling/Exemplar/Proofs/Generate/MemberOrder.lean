import Exemplar.Generate
import Exemplar.Proofs.Class.MemberOrder
import Exemplar.Proofs.Struct.Examples

/-!
# The order of members in generation

The main statement: what is generated for a value, declarations or an error, does not depend on
the order in which the members of its objects stand.
-/

namespace Exemplar

private theorem Emitter.emit_sorted (emitter : Emitter) (model : Model) (rootName : String) :
    emitter.emit (model.mapExamples Json.Value.sorted) rootName = emitter.emit model rootName := by
  cases emitter with
  | structs style =>
    exact Struct.emit_mapExamples (Struct.shownExample?_of_shape Json.keepsShape_sorted) style model
      rootName
  | classes dialect => exact Class.emit_sorted dialect model rootName

/-- A value with sorted members has the declarations of the value, or its error. -/
theorem generateFromValue_sorted (v : Json.Value) (target : Target) (options : GenerateOptions) :
    generateFromValue v.sorted target options = generateFromValue v target options := by
  rw [generateFromValue, generateFromValue, infer_of_shape Json.keepsShape_sorted]
  cases infer { nesting := (target.emitter options).nesting,
                refineStrings := options.refineStrings } v with
  | error e => rfl
  | ok model => exact (target.emitter options).emit_sorted model (Ident.root options.rootName?)

/-- Values that differ only in the order of the members of their objects, at any depth, have the
same declarations or the same error. -/
theorem generateFromValue_eq_of_reordered {v w : Json.Value} (h : Json.Reordered v w)
    (hv : v.WellFormed) (target : Target) (options : GenerateOptions) :
    generateFromValue v target options = generateFromValue w target options := by
  rw [← generateFromValue_sorted v, ← generateFromValue_sorted w, h.sorted_eq hv]

/-- Members that change places in an object and in an item of an array. -/
theorem generateFromValue_eq_of_reordered_item :
    generateFromValue
        (.object [("b", .array [.object [("x", .null), ("a", .bool true)]]), ("a", .string "1")])
        .java {} =
      generateFromValue
        (.object [("a", .string "1"), ("b", .array [.object [("a", .bool true), ("x", .null)]])])
        .java {} := by
  refine generateFromValue_eq_of_reordered ?reordered ?wellFormed .java {}
  case reordered =>
    have item : Json.Reordered (.object [("x", .null), ("a", .bool true)])
        (.object [("a", .bool true), ("x", .null)]) :=
      .object (.cons "x" .null (.cons "a" (.bool true) .nil)) (.swap _ _ _)
    exact .object (.cons "b" (.array (.cons item .nil)) (.cons "a" (.string "1") .nil))
      (.swap _ _ _)
  case wellFormed =>
    simp [Json.Value.WellFormed, Json.itemsWellFormed, Json.membersWellFormed]

end Exemplar
