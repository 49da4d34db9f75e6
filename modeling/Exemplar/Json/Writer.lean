import Exemplar.Json.Value

/-!
# Writing JSON

The text of a value, either on one line or laid out over many.  The two differ in their spacing
alone: what stands between brackets and values, and behind a colon.
-/

namespace Exemplar.Json

/-- The blanks that a writer adds: a break before each value at a nesting depth, and what follows
a key. -/
structure Spacing where
  breakAt : Nat → List Char
  colon : List Char

/-- No blanks at all. -/
def Spacing.compact : Spacing where
  breakAt _ := []
  colon := [':']

/-- A line for each value, indented by two blanks for each level. -/
def Spacing.pretty : Spacing where
  breakAt depth := '\n' :: List.replicate (2 * depth) ' '
  colon := [':', ' ']

/-- One character inside a string: quotes, backslashes and controls are escaped. -/
def escapeChar (c : Char) : List Char :=
  if c = '"' then ['\\', '"']
  else if c = '\\' then ['\\', '\\']
  else if c = '\x08' then ['\\', 'b']
  else if c = '\x0c' then ['\\', 'f']
  else if c = '\n' then ['\\', 'n']
  else if c = '\r' then ['\\', 'r']
  else if c = '\t' then ['\\', 't']
  else if c.toNat < 0x20 then '\\' :: 'u' :: Text.hex4 c.toNat
  else [c]

/-- A string between quotes. -/
def quote (s : String) : List Char :=
  '"' :: (s.toList.flatMap escapeChar ++ ['"'])

mutual

/-- The text of a value that stands at a depth. -/
def write (sp : Spacing) (depth : Nat) : Value → List Char
  | .null => "null".toList
  | .bool true => "true".toList
  | .bool false => "false".toList
  | .number n => n.render
  | .string s => quote s
  | .array [] => ['[', ']']
  | .array (v :: vs) =>
    '[' :: (sp.breakAt (depth + 1) ++ write sp (depth + 1) v ++ writeItems sp depth vs)
  | .object [] => ['\x7b', '\x7d']
  | .object ((k, v) :: ms) =>
    '\x7b' :: (sp.breakAt (depth + 1) ++ quote k ++ sp.colon ++ write sp (depth + 1) v ++
      writeMembers sp depth ms)
termination_by structural v => v

/-- The items that follow the first one, and the closing bracket. -/
def writeItems (sp : Spacing) (depth : Nat) : List Value → List Char
  | [] => sp.breakAt depth ++ [']']
  | v :: vs =>
    ',' :: (sp.breakAt (depth + 1) ++ write sp (depth + 1) v ++ writeItems sp depth vs)
termination_by structural vs => vs

/-- The members that follow the first one, and the closing brace. -/
def writeMembers (sp : Spacing) (depth : Nat) : List (String × Value) → List Char
  | [] => sp.breakAt depth ++ ['\x7d']
  | (k, v) :: ms =>
    ',' :: (sp.breakAt (depth + 1) ++ quote k ++ sp.colon ++ write sp (depth + 1) v ++
      writeMembers sp depth ms)
termination_by structural ms => ms

end

namespace Value

/-- The text of a value on one line. -/
def compact (v : Value) : String :=
  String.ofList (write .compact 0 v)

/-- The text of a value with a line for each of its parts. -/
def pretty (v : Value) : String :=
  String.ofList (write .pretty 0 v)

end Value

end Exemplar.Json
