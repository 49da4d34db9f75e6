import Exemplar.Ident
import Exemplar.Shape.Root
import Exemplar.Struct.Layout
import Exemplar.Template.Builtin

/-!
# Struct declarations

The declarations of a model as Go structs.  Each field is a line with its identifier, its type, the
tag with its key and a comment with the value that was found; an object without a name is a struct
inside its field.  Source: the module `go` in `codegen`.
-/

namespace Exemplar.Struct

/-- The type of a scalar.  Source: `scalar_type`. -/
def scalarType : ScalarKind → String
  | .string => "string"
  | .int64 => "int64"
  | .float64 => "float64"
  | .bool => "bool"
  | .timestamp => "time.Time"
  | .ipAddress => "net.IP"
  | .any => "interface\x7b\x7d"

/-- How a file of structs is written.  Source: `GoEmitter`. -/
structure Style where
  /-- The package of the file; none leaves out the head of the file. -/
  package? : Option String := none
  /-- Whether a comment shows the value that was found. -/
  withExamples : Bool := true
  /-- Whether the text is laid out. -/
  format : Bool := true

/-! ## Fields -/

/-- A line break in an example, written as an escape.  Source: `example_text`, its replacements. -/
def exampleChar (c : Char) : List Char :=
  if c = '\r' then ['\\', 'r'] else if c = '\n' then ['\\', 'n'] else [c]

/-- The text of a value in a comment, if it is a scalar that says something.  Source:
`example_text`, its last branch. -/
def scalarExample? : Json.Value → Option (List Char)
  | .string s => if s = "" then none else some (s.toList.flatMap exampleChar)
  | .number n => some n.render
  | .bool true => some ['t', 'r', 'u', 'e']
  | .bool false => some ['f', 'a', 'l', 's', 'e']
  | _ => none

/-- The example of a field: the value found, or the first item of an array.  Source: `example_text`.
-/
def example? (f : Field) : Option (List Char) :=
  match f.example? with
  | none => none
  | some (.array []) => none
  | some (.array (first :: _)) => scalarExample? first
  | some v => scalarExample? v

/-- The comment of a field, with the blank before it.  Source: `write_fields` of `GoEmitter`, the
end of a line. -/
def comment (examples : Bool) (f : Field) : List Char :=
  match (if examples then example? f else none) with
  | some text => [' ', '/', '/', ' '] ++ text
  | none => []

/-- The text of a type: a line, and if that opens a block, the lines in it. -/
structure TypeText where
  opening : List Char
  body? : Option (List (List Char)) := none

namespace TypeText

/-- A type that has a name. -/
def named (name : String) : TypeText where
  opening := name.toList

/-- The slice of a type. -/
def slice (type : TypeText) : TypeText where
  opening := '[' :: ']' :: type.opening
  body? := type.body?

/-- A struct with the given lines in it. -/
def block (lines : List (List Char)) : TypeText where
  opening := "struct \x7b".toList
  body? := some lines

end TypeText

/-- The lines of a field, given the text of its type.  Source: `write_fields` of `GoEmitter`, its
body. -/
def fieldLinesOf (examples : Bool) (f : Field) (type : TypeText) : List (List Char) :=
  let head := (Ident.ofKey f.key).toList ++ ' ' :: type.opening
  let tail := ' ' :: (tag f.key.toList f.quoted ++ comment examples f)
  match type.body? with
  | none => [head ++ tail]
  | some body => head :: (body ++ ['\x7d' :: tail])

mutual

/-- The type of a node.  Source: `write_type` of `GoEmitter`. -/
def typeText (examples : Bool) : Node → TypeText
  | .scalar kind => .named (scalarType kind)
  | .array element => (typeText examples element).slice
  | .object (some name) _ => .named name
  | .object none fields => .block (fieldsLines examples fields)
termination_by structural node => node

/-- The lines of fields in a row.  Source: `write_fields` of `GoEmitter`. -/
def fieldsLines (examples : Bool) : List Field → List (List Char)
  | [] => []
  | ⟨key, node, example?, quoted⟩ :: fields =>
    fieldLinesOf examples ⟨key, node, example?, quoted⟩ (typeText examples node) ++
      fieldsLines examples fields
termination_by structural fields => fields

end

/-! ## Imports -/

mutual

/-- Whether the text of a node holds a scalar of a kind.  Source: `walk` in `collect_imports`. -/
def mentions (kind : ScalarKind) : Node → Bool
  | .scalar k => k == kind
  | .array element => mentions kind element
  | .object (some _) _ => false
  | .object none fields => fieldsMention kind fields
termination_by structural node => node

/-- Whether the text of one of the fields holds a scalar of a kind.  Source: `collect_imports`. -/
def fieldsMention (kind : ScalarKind) : List Field → Bool
  | [] => false
  | ⟨_, node, _, _⟩ :: fields => mentions kind node || fieldsMention kind fields
termination_by structural fields => fields

end

/-- The packages that the types of the fields come from.  Source: `emit` of `GoEmitter`, its set of
imports. -/
def imports (root : List Field) (named : List NamedObject) : List String :=
  let used (kind : ScalarKind) : Bool :=
    fieldsMention kind root || named.any fun o => fieldsMention kind o.fields
  (if used .ipAddress then ["net"] else []) ++ (if used .timestamp then ["time"] else [])

/-! ## Files -/

/-- The declaration of a struct.  Source: `emit` of `GoEmitter`, one declaration. -/
def declaration (style : Style) (name : String) (isArray : Bool) (fields : List Field) :
    Except Error String := do
  let opening ← Template.structOpen.render [("name", .text name), ("is_array", .bool isArray)]
  .ok (opening ++ String.ofList (Text.unlines (fieldsLines style.withExamples fields)) ++
    "\x7d\n")

/-- The head of a file, if it has one.  Source: `emit` of `GoEmitter`, its head. -/
def preamble (style : Style) (root : List Field) (named : List NamedObject) :
    Except Error String :=
  match style.package? with
  | none => .ok ""
  | some package =>
    Template.structPreamble.render
      [("package", .text package), ("imports", .list (imports root named))]

/-- The text of a file before it is laid out.  Source: `emit` of `GoEmitter`, up to the layout. -/
def source (style : Style) (model : Model) (rootName : String) : Except Error String := do
  let root ← model.root.rootFields
  let head ← preamble style root.fields model.named
  let first ← declaration style rootName root.isArray root.fields
  let others ← model.named.mapM fun o =>
    (declaration style o.typeName false o.fields).map ("\n" ++ ·)
  .ok (head ++ first ++ String.join others)

/-- The text of a file.  A text that cannot be laid out stays as it is.  Source: `emit` of
`GoEmitter`. -/
def emit (style : Style) (model : Model) (rootName : String) : Except Error String := do
  let text ← source style model rootName
  if style.format then
    match layout text.toList with
    | .ok cs => .ok (String.ofList cs)
    | .error _ => .ok text
  else .ok text

end Exemplar.Struct
