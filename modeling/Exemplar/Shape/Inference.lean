import Exemplar.Error
import Exemplar.Ident
import Exemplar.Refinement.Basic
import Exemplar.Shape.KeyOrder
import Exemplar.Shape.Registry

/-!
# Inference of shapes

The model of a document from one value.  Members are taken in the order of their keys, an array is
taken for an array of what its first item is, and an array of arrays for its first inner item.
Objects in arrays, and under named nesting all objects, are declared on their own: each is
registered before those inside it.  Source: the modules `inference` and `num` in it.
-/

namespace Exemplar

/-- How an object that a field holds directly is declared: in place, or on its own.  Source:
`Nesting`. -/
inductive Nesting
  | inline
  | named
  deriving DecidableEq, Repr

/-- The name of a way of nesting. -/
def Nesting.name : Nesting → String
  | .inline => "inline"
  | .named => "named"

/-- The choices of an inference.  Source: `InferOptions`. -/
structure InferOptions where
  nesting : Nesting := .inline
  refineStrings : Bool := true

/-! ## Fields -/

/-- The keys of an object in the order of its fields.  Source: `sorted_keys`. -/
def sortedKeys (members : List (String × Json.Value)) : List String :=
  (sortByKey members).map Prod.fst

/-- An inference step: it may end with an error, and it registers objects as it goes.  Source:
`Inference`. -/
abbrev Inference := StateT Registry (Except Error)

/-- The results of steps that are taken in order; the first error ends them.  Source:
`infer_fields`, its iteration. -/
def inOrder : List (String × Inference Field) → Inference (List Field)
  | [] => pure []
  | (_, step) :: steps => do
    let field ← step
    let fields ← inOrder steps
    pure (field :: fields)

/-- Declares the object under a key on its own: its slot is reserved before its members are gone
into and filled after that.  Source: `register` of `Inference`. -/
def register (key : String) (members : Inference (List Field)) : Inference Node := do
  let slot ← modifyGet (Registry.reserve (Ident.ofKey key))
  let fields ← members
  modify (Registry.fill slot fields)
  pure (.object (some (Ident.ofKey key)) fields)

/-- The kind of a number: an integer of 64 bits, in whichever way it is written, or a double.
Source: `classify`. -/
def classify (n : Json.Number) : ScalarKind :=
  if n.asInt64?.isSome then .int64
  else if n.toBinary64.isWholeInt64 then .int64
  else .float64

/-- A number is of the kind of integers exactly if it stands for one. -/
theorem classify_eq (n : Json.Number) :
    classify n = if n.toInt64?.isSome then .int64 else .float64 := by
  rw [classify, Json.Number.toInt64?]
  cases n.asInt64? with
  | some i => rfl
  | none => cases n.toBinary64.isWholeInt64 <;> rfl

/-- The kind of a number is that of integers or that of doubles. -/
theorem classify_cases (n : Json.Number) : classify n = .int64 ∨ classify n = .float64 := by
  rw [classify_eq]
  split
  · exact .inl rfl
  · exact .inr rfl

/-- The field for a scalar. -/
def scalarField (key : String) (kind : ScalarKind) (v : Json.Value) (quoted : Bool := false) :
    Field where
  key
  node := .scalar kind
  example? := some v
  quoted

/-- The field for an array of what an element is. -/
def arrayField (key : String) (element : Node) (items : List Json.Value) : Field where
  key
  node := .array element
  example? := some (.array items)

/-- The field for an object. -/
def objectField (key : String) (object : Node) : Field where
  key
  node := object

/-- The node for an object that a field holds directly.  Source: `infer_field`, for an object. -/
def nest (nesting : Nesting) (key : String) (members : Inference (List Field)) :
    Inference Node :=
  match nesting with
  | .inline => do
    let fields ← members
    pure (.object none fields)
  | .named => register key members

/-- What a string is taken for.  Source: `infer_field`, for a string. -/
def stringKind (o : InferOptions) (s : String) : Refinement.Refined :=
  if o.refineStrings then Refinement.refine s else ⟨.string, false⟩

mutual

/-- The field for a value under a key.  Source: `infer_field` and `infer_array_field`. -/
def inferField (o : InferOptions) (key : String) : Json.Value → Inference Field
  | .null => pure (scalarField key .any .null)
  | .bool b => pure (scalarField key .bool (.bool b))
  | .number n => pure (scalarField key (classify n) (.number n))
  | .string s =>
    pure (scalarField key (stringKind o s).kind (.string s) (stringKind o s).quoted)
  | .array [] => pure (arrayField key (.scalar .any) [])
  | .array (.null :: rest) => pure (arrayField key (.scalar .any) (.null :: rest))
  | .array (.bool b :: rest) => pure (arrayField key (.scalar .bool) (.bool b :: rest))
  | .array (.number n :: rest) => pure (arrayField key (.scalar (classify n)) (.number n :: rest))
  | .array (.string s :: rest) => pure (arrayField key (.scalar .string) (.string s :: rest))
  | .array (.object ms :: rest) => do
    let element ← register key (inOrder (sortByKey (inferMembers o ms)))
    pure (arrayField key element (.object ms :: rest))
  | .array (.array [] :: _) =>
    throw (.shapeMismatch key .nonEmptyNestedArray (.value .emptyArray))
  | .array (.array (first :: _) :: _) => inferField o key first
  | .object ms => do
    let object ← nest o.nesting key (inOrder (sortByKey (inferMembers o ms)))
    pure (objectField key object)
termination_by structural v => v

/-- The steps for the members of an object, each under its key. -/
def inferMembers (o : InferOptions) :
    List (String × Json.Value) → List (String × Inference Field)
  | [] => []
  | (key, v) :: ms => (key, inferField o key v) :: inferMembers o ms
termination_by structural ms => ms

end

/-- The fields of an object.  Source: `infer_fields`. -/
def inferFields (o : InferOptions) (members : List (String × Json.Value)) :
    Inference (List Field) :=
  inOrder (sortByKey (inferMembers o members))

/-- The root of a document, which must be an object or an array that begins with one.  A root is not
registered.  Source: `infer_root`. -/
def inferRoot (o : InferOptions) : Json.Value → Inference Node
  | .object ms => do
    let fields ← inferFields o ms
    pure (.object none fields)
  | .array (.object ms :: _) => do
    let fields ← inferFields o ms
    pure (.array (.object none fields))
  | .array (first :: _) => throw (.rootShape (.value first.kind))
  | v => throw (.rootShape (.value v.kind))

/-- The model of a document.  Source: `infer`. -/
def infer (o : InferOptions) (v : Json.Value) : Except Error Model := do
  let (root, named) ← (inferRoot o v).run []
  .ok { root, named }

end Exemplar
