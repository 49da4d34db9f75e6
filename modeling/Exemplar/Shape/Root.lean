import Exemplar.Error

/-!
# Roots

The fields of a root declaration.  A root is an object, or an array of objects.  Source:
`root_fields` in the module `codegen`.
-/

namespace Exemplar

/-- The fields that a root declares.  Source: the result of `root_fields`. -/
structure RootFields where
  fields : List Field
  isArray : Bool

/-- The fields of a root, if it has a shape that can be declared.  Source: `root_fields`. -/
def Node.rootFields : Node → Except Error RootFields
  | .object _ fields => .ok { fields, isArray := false }
  | .array (.object _ fields) => .ok { fields, isArray := true }
  | .array _ => .error (.rootShape .arrayOfNonObjects)
  | .scalar _ => .error (.rootShape .scalar)

end Exemplar
