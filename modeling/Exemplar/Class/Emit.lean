import Exemplar.Class.Literal
import Exemplar.Shape.Root

/-!
# Class declarations

The declarations of a model as classes.  Each field becomes a private member with a getter and a
setter, and where the value found allows it, with an initial value.  An array of objects is filled
by a generator method that goes through the items found and sets the members of a fresh object for
each.  Source: the module `class` in `codegen`.
-/

namespace Exemplar.Class

/-- What stands for a member of an array item that is an object or an array itself.  Source:
`NESTED_PLACEHOLDER`. -/
def nestedPlaceholder : String := "// nested maps are not supported"

/-! ## Generators of arrays -/

/-- The statement that a field gives rise to for one item, if any: none for a member that the item
lacks, and none for a null where the type cannot be null.  Source: `array_statements` of
`ClassEmitter`, its inner loop. -/
def fieldStatements (d : Dialect) (var : String) (members : List (String × Json.Value))
    (f : Field) : Except Error (List String) :=
  match members.lookup f.key with
  | none => .ok []
  | some v =>
    match f.node with
    | .scalar kind =>
      if v.isNull ∧ ¬ kind.isNullable then .ok []
      else
        (literal d kind v f.key f.quoted).map fun text =>
          [var ++ ".set" ++ Ident.ofKey f.key ++ "(" ++ text ++ ");"]
    | _ => .ok [nestedPlaceholder]

/-- The name of the variable for the item at an index.  Source: `array_statements` of
`ClassEmitter`, its `var`. -/
def itemVar (index : Nat) : String :=
  "obj" ++ String.ofList (Text.decimal index)

/-- The statements for one item: a fresh object, its members in the order of the fields, and the
store into the array.  Source: `array_statements` of `ClassEmitter`, the body of its loop. -/
def itemStatements (d : Dialect) (typeName key : String) (fields : List Field) (index : Nat) :
    Json.Value → Except Error (List String)
  | .object members => do
    let var := itemVar index
    let setters ← fields.mapM (fieldStatements d var members)
    .ok (d.newObject typeName var :: (setters.flatten ++ [d.store var index]))
  | v => .error (.shapeMismatch key .object (.value v.kind))

/-- The statements for items from an index on.  Source: `array_statements` of `ClassEmitter`, its
loop. -/
def statementsFrom (d : Dialect) (typeName key : String) (fields : List Field) :
    (index : Nat) → List Json.Value → Except Error (List String)
  | _, [] => .ok []
  | index, v :: vs => do
    let here ← itemStatements d typeName key fields index v
    let rest ← statementsFrom d typeName key fields (index + 1) vs
    .ok (here ++ rest)

/-- The statements that fill an array with its items.  Source: `array_statements` of `ClassEmitter`.
-/
def arrayStatements (d : Dialect) (typeName key : String) (items : List Json.Value)
    (fields : List Field) : Except Error (List String) :=
  statementsFrom d typeName key fields 0 items

/-! ## Members -/

/-- A member with its accessors and perhaps an initial value.  Source: `write_members` of
`ClassEmitter`, its `Accessors`. -/
def accessors (d : Dialect) (key type : String) (value? : Option String) : Except Error String :=
  let ident := Ident.ofKey key
  d.templates.accessors.render
    [("type", .text type), ("field", .text (d.memberName ident)), ("name", .text ident),
     ("value", match value? with | some v => .text v | none => .null)]

/-- A member with its accessors and the generator that fills it.  Source: `write_members` of
`ClassEmitter`, its `ArrayAccessors`. -/
def arrayAccessors (d : Dialect) (key type init : String) (statements : List String) :
    Except Error String :=
  let ident := Ident.ofKey key
  d.templates.arrayAccessors.render
    [("type", .text type), ("field", .text (d.memberName ident)), ("name", .text ident),
     ("init", .text init), ("statements", .list statements)]

/-- The text of the member for a field.  Source: `write_members` of `ClassEmitter`, the body of its
loop. -/
def member (d : Dialect) (f : Field) : Except Error String :=
  let found := f.example?.getD .null
  match f.node with
  | .scalar kind => do
    let value ← literal d kind found f.key f.quoted
    accessors d f.key (d.scalarType kind) (some value)
  | .array (.scalar kind) => do
    let values ← found.items.mapM fun v => literal d kind v f.key false
    accessors d f.key (d.arrayType (d.scalarType kind)) (some (d.arrayLiteral values))
  | .array (.object (some typeName) fields) => do
    let statements ← arrayStatements d typeName f.key found.items fields
    arrayAccessors d f.key (d.arrayType typeName) (d.arrayInit typeName found.items.length)
      statements
  | .array (.object none _) =>
    .error (.shapeMismatch f.key .arrayOfNamedObjects .arrayOfAnonymousObjects)
  | .array (.array _) => .error (.shapeMismatch f.key .arrayOfScalarsOrObjects .nestedArray)
  | .object (some typeName) _ => accessors d f.key typeName (d.nestedDefault? typeName)
  | .object none _ => .error (.shapeMismatch f.key .namedObject .anonymousObject)

/-- The members of a class and its end.  Source: `write_members` of `ClassEmitter`, and the brace
behind it in `emit`. -/
def body (d : Dialect) (fields : List Field) : Except Error String :=
  (fields.mapM (member d)).map fun members => String.join members ++ "\x7d\n"

/-! ## Files -/

/-- The class of a root.  Source: `emit` of `ClassEmitter`, its first class. -/
def rootClass (d : Dialect) (name : String) (root : RootFields) : Except Error String := do
  let header ← d.templates.header.render
    [("name", .text name), ("is_array", .bool root.isArray),
     ("package", match d.package? with | some p => .text p | none => .null)]
  let members ← body d root.fields
  .ok (header ++ members)

/-- The class of a named object.  Source: `emit` of `ClassEmitter`, a further class. -/
def namedClass (d : Dialect) (o : NamedObject) : Except Error String := do
  let opening ← d.templates.classOpen.render [("name", .text o.typeName)]
  let members ← body d o.fields
  .ok (opening ++ members)

/-- The text of a file.  Source: `emit` of `ClassEmitter`. -/
def emit (d : Dialect) (model : Model) (rootName : String) : Except Error String := do
  let root ← model.root.rootFields
  let first ← rootClass d rootName root
  let others ← model.named.mapM (namedClass d)
  .ok (first ++ String.join others)

end Exemplar.Class
