import Exemplar.Error

/-!
# Templates

Text with places to fill in from a payload.  What is put in is taken as it stands: it is neither
escaped nor read as a template again.  A place whose name the payload lacks is an error, except in
the test of an optional part.  Source: `render` in the module `template`, with the template language
as far as the built-in templates use it.
-/

namespace Exemplar

/-- What a payload can hold under a name.  Numbers and objects are left out, as no payload of the
program holds any: in a test, zero and the empty object would count as false. -/
inductive Argument
  | null
  | bool (b : Bool)
  | text (s : String)
  | list (items : List String)
  deriving DecidableEq, Repr

/-- The arguments of a template by name. -/
abbrev Payload := List (String × Argument)

/-- The parts of a template: text, a place for an argument, a part that stands only if an argument
holds, and a part repeated for each item of a list with the item in its middle. -/
inductive Piece
  | text (s : String)
  | slot (name : String)
  | given (name : String) (body : List Piece)
  | each (name : String) (before after : String)
  deriving Repr

/-- A template: its name, and its parts in order. -/
structure Template where
  name : String
  pieces : List Piece
  deriving Repr

namespace Argument

/-- Whether an argument holds: null, false and whatever is empty do not. -/
def holds : Argument → Bool
  | null => false
  | bool b => b
  | text s => s != ""
  | list items => items != []

/-- The text of an argument. -/
def render : Argument → String
  | null => ""
  | bool b => if b then "true" else "false"
  | text s => s
  | list items => "[" ++ String.intercalate ", " items ++ "]"

end Argument

namespace Piece

mutual

/-- The text of a part; none if an argument that it puts in is missing. -/
def render? (payload : Payload) : Piece → Option String
  | .text s => some s
  | .slot name => (payload.lookup name).map Argument.render
  | .given name body =>
    if (payload.lookup name).any Argument.holds then renderAll? payload body else some ""
  | .each name before after =>
    match payload.lookup name with
    | some (.list items) => some (String.join (items.map fun item => before ++ item ++ after))
    | _ => none
termination_by structural piece => piece

/-- The text of parts in a row. -/
def renderAll? (payload : Payload) : List Piece → Option String
  | [] => some ""
  | piece :: pieces => do
    let s ← piece.render? payload
    let t ← renderAll? payload pieces
    some (s ++ t)
termination_by structural pieces => pieces

end

end Piece

/-- Fills in a template.  Source: `render`, on the templates of its registry. -/
def Template.render (template : Template) (payload : Payload) : Except Error String :=
  match Piece.renderAll? payload template.pieces with
  | some s => .ok s
  | none => .error (.template template.name)

end Exemplar
