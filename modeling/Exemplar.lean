import Exemplar.Binary64.Basic
import Exemplar.Binary64.Int64
import Exemplar.Binary64.Numeral
import Exemplar.Binary64.Shortest
import Exemplar.Class.Dialect
import Exemplar.Class.Emit
import Exemplar.Class.Literal
import Exemplar.Command.Arguments
import Exemplar.Command.Run
import Exemplar.Error
import Exemplar.FileTree
import Exemplar.Generate
import Exemplar.Ident
import Exemplar.Json.Fault
import Exemplar.Json.Numeral
import Exemplar.Json.Pointer
import Exemplar.Json.Reader
import Exemplar.Json.Value
import Exemplar.Json.Writer
import Exemplar.Main
import Exemplar.Proofs.Class.Acceptance
import Exemplar.Proofs.Class.Execution
import Exemplar.Proofs.Class.IntegerLiterals
import Exemplar.Proofs.Class.Integers
import Exemplar.Proofs.Class.LineFeeds
import Exemplar.Proofs.Class.MemberNames
import Exemplar.Proofs.Class.MemberOrder
import Exemplar.Proofs.Class.References
import Exemplar.Proofs.Class.Rejection
import Exemplar.Proofs.Class.Replay
import Exemplar.Proofs.Class.Syntax
import Exemplar.Proofs.Class.TextLiterals
import Exemplar.Proofs.Command.Arguments
import Exemplar.Proofs.Command.Run
import Exemplar.Proofs.FileTree
import Exemplar.Proofs.Generate.ArrayHeads
import Exemplar.Proofs.Generate.Comments
import Exemplar.Proofs.Generate.Documents
import Exemplar.Proofs.Generate.Indentation
import Exemplar.Proofs.Generate.Integers
import Exemplar.Proofs.Generate.LineFeeds
import Exemplar.Proofs.Generate.MemberOrder
import Exemplar.Proofs.Generate.PublicClass
import Exemplar.Proofs.Generate.References
import Exemplar.Proofs.Generate.Schemas
import Exemplar.Proofs.Generate.Selection
import Exemplar.Proofs.Generate.Spacing
import Exemplar.Proofs.Generate.TagPlace
import Exemplar.Proofs.Ident.Acronyms
import Exemplar.Proofs.Ident.Characters
import Exemplar.Proofs.Ident.WellFormed
import Exemplar.Proofs.Ident.Words
import Exemplar.Proofs.Json.Grammar
import Exemplar.Proofs.Json.NumberText
import Exemplar.Proofs.Json.NumberValue
import Exemplar.Proofs.Json.NumeralReading
import Exemplar.Proofs.Json.Pointer
import Exemplar.Proofs.Json.Quoting
import Exemplar.Proofs.Json.Reading
import Exemplar.Proofs.Json.Reordering
import Exemplar.Proofs.Json.SequenceReading
import Exemplar.Proofs.Json.Shape
import Exemplar.Proofs.Json.StringReading
import Exemplar.Proofs.Json.WellFormed
import Exemplar.Proofs.Json.Writing
import Exemplar.Proofs.Outcome
import Exemplar.Proofs.Refinement.Timestamp
import Exemplar.Proofs.Shape.Depth
import Exemplar.Proofs.Shape.Examples
import Exemplar.Proofs.Shape.Failure
import Exemplar.Proofs.Shape.Fields
import Exemplar.Proofs.Shape.Nesting
import Exemplar.Proofs.Shape.Options
import Exemplar.Proofs.Shape.Paths
import Exemplar.Proofs.Shape.PlainStrings
import Exemplar.Proofs.Shape.References
import Exemplar.Proofs.Shape.Registry
import Exemplar.Proofs.Shape.Schema
import Exemplar.Proofs.Shape.Tree
import Exemplar.Proofs.Shape.WellFormed
import Exemplar.Proofs.Struct.Alignment
import Exemplar.Proofs.Struct.BlankEdit
import Exemplar.Proofs.Struct.Blocks
import Exemplar.Proofs.Struct.Cells
import Exemplar.Proofs.Struct.Code
import Exemplar.Proofs.Struct.Columns
import Exemplar.Proofs.Struct.Examples
import Exemplar.Proofs.Struct.Head
import Exemplar.Proofs.Struct.Imports
import Exemplar.Proofs.Struct.LineFeeds
import Exemplar.Proofs.Struct.Lines
import Exemplar.Proofs.Struct.Literal
import Exemplar.Proofs.Struct.NormalForm
import Exemplar.Proofs.Struct.References
import Exemplar.Proofs.Struct.Respaced
import Exemplar.Proofs.Struct.Rows
import Exemplar.Proofs.Struct.Scan
import Exemplar.Proofs.Struct.Tag
import Exemplar.Proofs.Struct.TagPlace
import Exemplar.Proofs.Struct.TagReading
import Exemplar.Proofs.Struct.Types
import Exemplar.Proofs.Template.Filled
import Exemplar.Proofs.Template.LineFeeds
import Exemplar.Proofs.Template.Verbatim
import Exemplar.Proofs.Text.Cut
import Exemplar.Proofs.Text.Digits
import Exemplar.Proofs.Text.Place
import Exemplar.Proofs.Text.Trim
import Exemplar.Proofs.Text.Utf8
import Exemplar.Proofs.Text.Utf8Order
import Exemplar.Refinement.Address
import Exemplar.Refinement.Basic
import Exemplar.Refinement.Timestamp
import Exemplar.Shape.Basic
import Exemplar.Shape.Inference
import Exemplar.Shape.KeyOrder
import Exemplar.Shape.Registry
import Exemplar.Shape.Root
import Exemplar.Shape.Schema
import Exemplar.Struct.Emit
import Exemplar.Struct.Layout
import Exemplar.Struct.Tag
import Exemplar.Template.Basic
import Exemplar.Template.Builtin
import Exemplar.Text.Blank
import Exemplar.Text.Case
import Exemplar.Text.Category
import Exemplar.Text.Digits
import Exemplar.Text.Split
import Exemplar.Text.Utf8
