import Exemplar.Json.Fault
import Exemplar.Shape.Basic

/-!
# Errors

Everything that ends a generation, as causes, and the wording of each.  Source: the module `error`.
-/

namespace Exemplar

/-- What stood where something else was expected.  Source: the texts of `found` in `Error`. -/
inductive Found
  | value (kind : Json.Kind)
  | scalar
  | arrayOfNonObjects
  | arrayOfAnonymousObjects
  | nestedArray
  | anonymousObject
  deriving DecidableEq, Repr

/-- The wording of what was found. -/
def Found.describe : Found → String
  | .value kind => kind.name
  | .scalar => "scalar"
  | .arrayOfNonObjects => "array of non-objects"
  | .arrayOfAnonymousObjects => "array of anonymous objects"
  | .nestedArray => "nested array"
  | .anonymousObject => "anonymous object"

/-- What was expected at a field.  Source: the texts of `expected` in `Error`. -/
inductive Expected
  | nonEmptyNestedArray
  | object
  | literal (kind : ScalarKind)
  | arrayOfNamedObjects
  | arrayOfScalarsOrObjects
  | namedObject
  deriving DecidableEq, Repr

/-- The wording of what was expected. -/
def Expected.describe : Expected → String
  | .nonEmptyNestedArray => "non-empty nested array"
  | .object => "object"
  | .literal kind => kind.describe
  | .arrayOfNamedObjects => "array of named objects"
  | .arrayOfScalarsOrObjects => "array of scalars or objects"
  | .namedObject => "named object"

/-- Why a document has no declarations.  Source: `Error`. -/
inductive Error
  | malformed (fault : Json.SyntaxError)
  | pointerNotFound (pointer : String)
  | rootShape (found : Found)
  | shapeMismatch (key : String) (expected : Expected) (found : Found)
  | template (name : String)
  deriving DecidableEq, Repr

/-- The wording of an error.  Source: `Error`, the texts of its variants. -/
def Error.message : Error → String
  | .malformed fault =>
    "malformed JSON input at " ++ Json.Segment.path fault.path ++ ": " ++ fault.message
  | .pointerNotFound pointer => "JSON pointer `" ++ pointer ++ "` does not select a value"
  | .rootShape found =>
    "unsupported document root: expected an object or an array of objects, found " ++
      found.describe
  | .shapeMismatch key expected found =>
    "unexpected shape for `" ++ key ++ "`: expected " ++ expected.describe ++ ", found " ++
      found.describe
  | .template name => "internal template `" ++ name ++ "` failed to render"

end Exemplar
