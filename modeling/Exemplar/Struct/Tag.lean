import Exemplar.Shape.Basic
import Exemplar.Text.Blank

/-!
# Struct tags

The tag that ties a struct field to its key: a string literal of Go whose value is `json:"…"`, with
the key escaped inside the quotes.  The literal is raw, between backticks, unless the key itself
holds a backtick.  Source: the module `go` in `codegen`.
-/

namespace Exemplar.Struct

/-- The character between two of which a raw literal stands. -/
def tick : Char := '\x60'

/-- One character inside an interpreted literal: quotes, backslashes and controls are escaped.
Source: `go_escape`, its body. -/
def escapeChar (c : Char) : List Char :=
  if c = '\\' then ['\\', '\\']
  else if c = '"' then ['\\', '"']
  else if c = '\n' then ['\\', 'n']
  else if c = '\r' then ['\\', 'r']
  else if c = '\t' then ['\\', 't']
  else if Text.isControl c then '\\' :: 'u' :: Text.hex4 c.toNat
  else [c]

/-- The body of an interpreted literal.  Source: `go_escape`. -/
def escape (cs : List Char) : List Char :=
  cs.flatMap escapeChar

/-- The option that keeps a number or a truth value in quotes.  Source: `struct_tag`, its `opt`. -/
def quotedOption (quoted : Bool) : List Char :=
  if quoted then [',', 's', 't', 'r', 'i', 'n', 'g'] else []

/-- The value of the tag for a key.  Source: `struct_tag`, its `tag`. -/
def tagValue (key : List Char) (quoted : Bool) : List Char :=
  ['j', 's', 'o', 'n', ':', '"'] ++ escape key ++ quotedOption quoted ++ ['"']

/-- The literal that stands for the value of a tag.  Source: `struct_tag`, its last branch. -/
def literal (value : List Char) : List Char :=
  if value.contains tick then '"' :: (escape value ++ ['"']) else tick :: (value ++ [tick])

/-- The tag for a key.  Source: `struct_tag`. -/
def tag (key : List Char) (quoted : Bool) : List Char :=
  literal (tagValue key quoted)

end Exemplar.Struct
