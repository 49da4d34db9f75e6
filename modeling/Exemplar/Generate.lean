import Exemplar.Class.Emit
import Exemplar.Json.Pointer
import Exemplar.Json.Reader
import Exemplar.Shape.Inference
import Exemplar.Shape.Schema
import Exemplar.Struct.Emit

/-!
# Generation

From the bytes of a document to declarations: the document is read, a part of it is selected, its
model is inferred and written for a target.  Source: the modules `document` and `codegen`, and the
root of the library.
-/

namespace Exemplar

/-! ## Documents -/

/-- Reads a document.  Source: `parse_document`. -/
def parseDocument (bytes : List UInt8) : Except Error Json.Value :=
  match Json.read bytes with
  | .ok v => .ok v
  | .error fault => .error (.malformed fault)

/-- The part of a document that a pointer selects; no pointer selects the whole.  Source: `select`.
-/
def select (document : Json.Value) (pointer? : Option String) : Except Error Json.Value :=
  match pointer? with
  | none => .ok document
  | some pointer =>
    match Json.Pointer.select? pointer document with
    | some v => .ok v
    | none => .error (.pointerNotFound pointer)

/-! ## Targets -/

/-- What declarations are generated for.  Source: `Target`. -/
inductive Target
  | go
  | java
  | typescript
  deriving DecidableEq, Repr

/-- The choices of a generation.  Source: `GenerateOptions`. -/
structure GenerateOptions where
  rootName? : Option String := none
  pointer? : Option String := none
  refineStrings : Bool := true
  withExamples : Bool := true
  format : Bool := true
  package? : Option String := none

/-- The style of structs under the choices of a generation.  Source: `emitter` of `Target`, for
structs. -/
def GenerateOptions.style (options : GenerateOptions) : Struct.Style where
  package? := options.package?
  withExamples := options.withExamples
  format := options.format

/-- A writer of models: structs in a style, or classes in a dialect.  Source: the trait `Emitter`.
-/
inductive Emitter
  | structs (style : Struct.Style)
  | classes (dialect : Class.Dialect)

namespace Emitter

/-- The name of the language written.  Source: `name` of `Emitter`. -/
def name : Emitter → String
  | structs _ => "go"
  | classes dialect => dialect.name

/-- The extension of the files written.  Source: `extension` of `Emitter`. -/
def extension : Emitter → String
  | structs _ => "go"
  | classes dialect => dialect.extension

/-- How objects in fields must have been nested.  Source: `nesting` of `Emitter`. -/
def nesting : Emitter → Nesting
  | structs _ => .inline
  | classes _ => .named

/-- Writes a model under the name of its root.  Source: `emit` of `Emitter`. -/
def emit : Emitter → Model → String → Except Error String
  | structs style, model, rootName => Struct.emit style model rootName
  | classes dialect, model, rootName => Class.emit dialect model rootName

end Emitter

namespace Target

/-- The writer for a target.  Source: `emitter` of `Target`. -/
def emitter (options : GenerateOptions) : Target → Emitter
  | go => .structs options.style
  | java => .classes (.java Class.Dialect.defaultPackage)
  | typescript => .classes .typescript

/-- The place of the generated file inside a project.  Source: `default_destination` of `Target`. -/
def defaultDestination (rootName : String) : Target → String
  | go => "vendor/configd/structs.go"
  | java => "app/settings/" ++ rootName ++ ".java"
  | typescript => "configd/c.ts"

end Target

/-! ## Entry points -/

/-- Infers and writes the model of a value.  Source: `generate_from_value` and `infer_options`. -/
def generateFromValue (v : Json.Value) (target : Target) (options : GenerateOptions) :
    Except Error String := do
  let emitter := target.emitter options
  let model ← infer { nesting := emitter.nesting, refineStrings := options.refineStrings } v
  emitter.emit model (Ident.root options.rootName?)

/-- Reads a document and selects the part to model.  Source: `load`. -/
def load (bytes : List UInt8) (options : GenerateOptions) : Except Error Json.Value := do
  let document ← parseDocument bytes
  select document options.pointer?

/-- The declarations for a document.  Source: `generate`. -/
def generate (bytes : List UInt8) (target : Target) (options : GenerateOptions) :
    Except Error String := do
  let v ← load bytes options
  generateFromValue v target options

/-- The schema of a document.  Source: `infer_schema`. -/
def inferSchema (bytes : List UInt8) (nesting : Nesting) (options : GenerateOptions) :
    Except Error SchemaView := do
  let v ← load bytes options
  let model ← infer { nesting, refineStrings := options.refineStrings } v
  .ok { rootName := Ident.root options.rootName?, model }

end Exemplar
