import Exemplar.Shape.Basic
import Exemplar.Json.Writer

/-!
# Schemas

A model as a JSON value, for inspection.  Source: the serialization derived in the module `schema`.
-/

namespace Exemplar

/-- A text or null. -/
def optionalString : Option String → Json.Value
  | some s => .string s
  | none => .null

/-- A field as JSON, given what it holds as JSON.  Source: the derived serialization of `Field`. -/
def schemaField (key : String) (node : Json.Value) (example? : Option Json.Value) (quoted : Bool) :
    Json.Value :=
  .object
    [("key", .string key), ("node", node), ("example", example?.getD .null),
     ("quoted", .bool quoted)]

mutual

/-- A node as JSON.  Source: the derived serialization of `SchemaNode`. -/
def Node.schema : Node → Json.Value
  | .scalar kind => .object [("kind", .string "scalar"), ("scalar", .string kind.describe)]
  | .array element => .object [("kind", .string "array"), ("element", element.schema)]
  | .object name fields =>
    .object
      [("kind", .string "object"), ("name", optionalString name),
       ("fields", .array (fieldsSchema fields))]
termination_by structural node => node

/-- Fields as JSON. -/
def fieldsSchema : List Field → List Json.Value
  | [] => []
  | ⟨key, node, example?, quoted⟩ :: fields =>
    schemaField key node.schema example? quoted :: fieldsSchema fields
termination_by structural fields => fields

end

/-- A named object as JSON.  Source: the derived serialization of `NamedObject`. -/
def NamedObject.schema (o : NamedObject) : Json.Value :=
  .object [("type_name", .string o.typeName), ("fields", .array (fieldsSchema o.fields))]

/-- A model under the name of its root.  Source: `SchemaView`. -/
structure SchemaView where
  rootName : String
  model : Model

/-- A schema as JSON.  Source: the derived serialization of `SchemaView`. -/
def SchemaView.toJson (view : SchemaView) : Json.Value :=
  .object
    [("root_name", .string view.rootName), ("root", view.model.root.schema),
     ("registry", .array (view.model.named.map NamedObject.schema))]

end Exemplar
