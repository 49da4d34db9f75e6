import Exemplar.Json.Value

/-!
# Shapes

The model of a document: a tree of nodes, with a field for each member of an object, and the list of
the objects that get a declaration of their own.  Source: the module `schema`.
-/

namespace Exemplar

/-- The kinds of values without parts.  Source: `ScalarKind`. -/
inductive ScalarKind
  | string
  | int64
  | float64
  | bool
  | timestamp
  | ipAddress
  | any
  deriving DecidableEq, Repr

namespace ScalarKind

/-- The name of a kind in diagnostics and in a schema.  Source: `describe` of `ScalarKind`. -/
def describe : ScalarKind → String
  | string => "string"
  | int64 => "int64"
  | float64 => "float64"
  | bool => "bool"
  | timestamp => "timestamp"
  | ipAddress => "ip-address"
  | any => "untyped-any"

/-- All kinds. -/
def all : List ScalarKind :=
  [string, int64, float64, bool, timestamp, ipAddress, any]

/-- The kind with a given name. -/
def ofName? (name : String) : Option ScalarKind :=
  all.find? (·.describe == name)

/-- Whether a value of the kind can be null in the class languages.  Source: `is_reference`. -/
def isNullable : ScalarKind → Bool
  | string | timestamp | ipAddress | any => true
  | int64 | float64 | bool => false

end ScalarKind

/-- A field of an object: its key as it stands in the document, what it holds, the value that was
found there, and whether that is a number or a truth value written as a string.  Source: `Field`. -/
structure FieldOf (ν : Type) where
  key : String
  node : ν
  example? : Option Json.Value := none
  quoted : Bool := false
  deriving Repr

/-- What a value looks like.  An object with a name is declared on its own under that name.  Source:
`SchemaNode` and `ObjectNode`. -/
inductive Node
  | scalar (kind : ScalarKind)
  | array (element : Node)
  | object (name : Option String) (fields : List (FieldOf Node))
  deriving Repr

/-- A field of a shape. -/
abbrev Field := FieldOf Node

/-- An object that is declared on its own.  Source: `NamedObject`. -/
structure NamedObject where
  typeName : String
  fields : List Field
  deriving Repr

/-- The model of a document: its shape, and the objects to declare on their own in the order in
which they were found.  Source: the result of `infer`. -/
structure Model where
  root : Node
  named : List NamedObject
  deriving Repr

end Exemplar
