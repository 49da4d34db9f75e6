import Exemplar.Text.Blank
import Exemplar.Struct.Tag

/-!
# Layout of struct declarations

The layout pass over generated structs.  Each line is indented by the number of blocks around it,
runs of blank lines become one, and in a run of field lines of one depth the names, types, tags and
comments stand in columns.  Only commented lines that follow one another share a comment column.
Source: the module `format`.
-/

namespace Exemplar.Struct

/-- Why a text cannot be laid out.  Source: `FormatError`. -/
inductive LayoutError
  | unbalanced (line : Nat)
  | unclosed (depth : Nat)
  deriving DecidableEq, Repr

/-- The wording of a layout error.  Source: `FormatError`, the texts of its variants. -/
def LayoutError.message : LayoutError → String
  | .unbalanced line =>
    "unbalanced closing delimiter on line " ++ String.ofList (Text.decimal line)
  | .unclosed depth => String.ofList (Text.decimal depth) ++ " block(s) left open at end of input"

/-- The cells of a field line.  Source: `Cells`. -/
structure Cells where
  name : List Char
  type : List Char
  tag : List Char
  comment? : Option (List Char)
  deriving DecidableEq, Repr

/-- A line that is not blank: whether a blank line stands before it, how many blocks are around it,
its text without the blanks at its ends, and its cells if it is a field line.  Source: `Line`, with
the blank line before it as a mark. -/
structure Row where
  gap : Bool
  depth : Nat
  text : List Char
  cells? : Option Cells
  deriving DecidableEq, Repr

/-! ## Reading lines -/

/-- What stands before the comment of a line, if it has one.  Two slashes inside a string, which may
hold escapes, or between backticks begin no comment.  Source: `code_part`, its scan. -/
def beforeComment? : (quote : Option Char) → List Char → Option (List Char)
  | _, [] => none
  | some q, c :: cs =>
    if c = '\\' ∧ q = '"' then
      match cs with
      | [] => none
      | d :: ds => (beforeComment? (some q) ds).map fun r => c :: d :: r
    else (beforeComment? (if c = q then none else some q) cs).map (c :: ·)
  | none, c :: cs =>
    if c = '/' ∧ cs.head? = some '/' then some []
    else (beforeComment? (if c = '"' ∨ c = tick then some c else none) cs).map (c :: ·)

/-- A line without its comment and the blanks before that.  Source: `code_part`. -/
def codePart (text : List Char) : List Char :=
  match beforeComment? none text with
  | some before => Text.trimEnd before
  | none => text

/-- Whether code closes the block it stands in.  Source: `format_go`, its test of a closing line. -/
def closes (code : List Char) : Bool :=
  code.head? == some '\x7d' || code.head? == some ')'

/-- Whether code opens a block.  Source: `format_go`, its test of an opening line. -/
def opens (code : List Char) : Bool :=
  code.getLast? == some '\x7b' || code.getLast? == some '('

/-- The cells of a line: a name and a type, a tag between the first two backticks, and nothing or a
comment after it.  Source: `split_cells`. -/
def cells? (text : List Char) : Option Cells :=
  let head := Text.trimEnd (text.takeWhile (· != tick))
  let name := head.takeWhile fun c => !Text.isBlank c
  let type := Text.trim (head.drop name.length)
  match text.dropWhile (· != tick) with
  | [] => none
  | opener :: inside =>
    let body := inside.takeWhile (· != tick)
    match inside.dropWhile (· != tick) with
    | [] => none
    | closer :: after =>
      let rest := Text.trim after
      if type = [] then none
      else if rest = [] then
        some { name, type, tag := opener :: (body ++ [closer]), comment? := none }
      else if ['/', '/'].isPrefixOf rest then
        some { name, type, tag := opener :: (body ++ [closer]), comment? := some rest }
      else none

/-- The rows of a text from a line on: the number of that line, the blocks open before it, whether a
row stands before it, and whether a blank line stands between the two.  Source: `format_go`, its
first loop. -/
def rowsFrom (number depth : Nat) (started gap : Bool) :
    List (List Char) → Except LayoutError (List Row)
  | [] => if depth = 0 then .ok [] else .error (.unclosed depth)
  | line :: lines =>
    let text := Text.trim line
    if text = [] then rowsFrom (number + 1) depth started started lines
    else
      let code := codePart text
      if closes code ∧ depth = 0 then .error (.unbalanced number)
      else
        let depth := if closes code then depth - 1 else depth
        let row : Row := { gap, depth, text, cells? := if opens code then none else cells? text }
        let inner := if opens code then depth + 1 else depth
        (rowsFrom (number + 1) inner true false lines).map (row :: ·)

/-- The rows of a text.  Source: `format_go`, its first loop. -/
def rows (source : List Char) : Except LayoutError (List Row) :=
  rowsFrom 1 0 false false (Text.lines source)

/-! ## Writing columns -/

/-- Whether two rows that follow one another stand in one run of field lines.  Source: `format_go`,
the run in its second loop. -/
def sameRun (a b : Row) : Bool :=
  a.cells?.isSome && b.cells?.isSome && a.depth == b.depth && !b.gap

/-- Whether two rows that follow one another share a comment column.  Source: `comment_tag_widths`,
its inner loop. -/
def sameBlock (a b : Row) : Bool :=
  (a.cells?.bind (·.comment?)).isSome && (b.cells?.bind (·.comment?)).isSome

/-- The width of the widest cell of a list of rows.  Source: `column_width`. -/
def width (cell : Cells → List Char) (rs : List Row) : Nat :=
  (rs.filterMap (·.cells?)).foldl (fun w c => max w (cell c).length) 0

/-- A text filled up with spaces to a width.  Widths are not bounded here: some versions of the
runtime refuse to fill up beyond 65535 characters, and that limit is left out.  Source: the padding
in `write_aligned`. -/
def pad (w : Nat) (cs : List Char) : List Char :=
  cs ++ List.replicate (w - cs.length) ' '

/-- The line of a row for given widths of its first three columns.  Source: `push_indent` and the
body of the loop in `write_aligned`. -/
def Row.render (nameWidth typeWidth tagWidth : Nat) (r : Row) : List Char :=
  let line :=
    match r.cells? with
    | none => r.text
    | some c =>
      pad nameWidth c.name ++ ' ' :: (pad typeWidth c.type ++ ' ' ::
        match c.comment? with
        | none => c.tag
        | some comment => pad tagWidth c.tag ++ ' ' :: comment)
  (if r.gap then ['\n'] else []) ++ List.replicate r.depth '\t' ++ line ++ ['\n']

/-- The lines of a run, its comment columns block by block.  Source: `write_aligned` and
`comment_tag_widths`. -/
def renderRun (run : List Row) : List Char :=
  let nameWidth := width (·.name) run
  let typeWidth := width (·.type) run
  (run.splitBy sameBlock).flatMap fun block =>
    block.flatMap (Row.render nameWidth typeWidth (width (·.tag) block))

/-- The text of rows, laid out run by run.  Source: `format_go`, its second loop. -/
def renderRows (rs : List Row) : List Char :=
  (rs.splitBy sameRun).flatMap renderRun

/-- Lays out a text.  Source: `format_go`. -/
def layout (source : List Char) : Except LayoutError (List Char) :=
  (rows source).map renderRows

end Exemplar.Struct
