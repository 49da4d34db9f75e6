import Exemplar.Binary64.Numeral
import Exemplar.Ident
import Exemplar.Template.Builtin

/-!
# Dialects of class languages

What tells the two class languages apart: their tokens for types, literals and statements, their
reserved words and their templates.  Source: the modules `class`, `java` and `typescript` in
`codegen`.
-/

namespace Exemplar.Class

/-- A class language: Java, with the package of its classes, or TypeScript.  Source: `ClassDialect`,
implemented by `Java` and `TypeScript`. -/
inductive Dialect
  | java (package : String)
  | typescript
  deriving DecidableEq, Repr

/-- The templates of a dialect.  Source: `ClassTemplates`. -/
structure Templates where
  header : Template
  classOpen : Template
  accessors : Template
  arrayAccessors : Template

namespace Dialect

/-- The package of classes when none is given.  Source: the default of `Java`. -/
def defaultPackage : String := "app.settings"

/-- The name of a dialect.  Source: `name` of `ClassDialect`. -/
def name : Dialect → String
  | java _ => "java"
  | typescript => "typescript"

/-- The extension of its files.  Source: `extension` of `ClassDialect`. -/
def extension : Dialect → String
  | java _ => "java"
  | typescript => "ts"

/-- Its templates.  Source: `templates` of `ClassDialect`. -/
def templates : Dialect → Templates
  | java _ =>
    { header := .packagedHeader
      classOpen := .packagedOpen
      accessors := .packagedAccessors
      arrayAccessors := .packagedArrayAccessors }
  | typescript =>
    { header := .exportedHeader
      classOpen := .exportedOpen
      accessors := .exportedAccessors
      arrayAccessors := .exportedArrayAccessors }

/-- The package clause, if the language has one.  Source: `package` of `ClassDialect`. -/
def package? : Dialect → Option String
  | java package => some package
  | typescript => none

/-- The type of a scalar.  Source: `scalar_type` of `ClassDialect`. -/
def scalarType : Dialect → ScalarKind → String
  | java _, .string | java _, .timestamp | java _, .ipAddress => "String"
  | java _, .int64 => "long"
  | java _, .float64 => "double"
  | java _, .bool => "boolean"
  | java _, .any => "Object"
  | typescript, .string | typescript, .timestamp | typescript, .ipAddress => "string"
  | typescript, .int64 | typescript, .float64 => "number"
  | typescript, .bool => "boolean"
  | typescript, .any => "any"

/-- The type of an array.  Source: `array_type` of `ClassDialect`. -/
def arrayType (_ : Dialect) (element : String) : String :=
  element ++ "[]"

/-- An array of given items.  Source: `array_literal` of `ClassDialect`. -/
def arrayLiteral : Dialect → List String → String
  | java _, items => "\x7b" ++ String.intercalate ", " items ++ "\x7d"
  | typescript, items => "[" ++ String.intercalate ", " items ++ "]"

/-- An integer.  Source: `int_literal` of `ClassDialect`. -/
def intLiteral : Dialect → Int → String
  | java _, n => String.ofList (Text.intDecimal n) ++ "L"
  | typescript, n => String.ofList (Text.intDecimal n)

/-- An infinity.  Source: `non_finite_literal` of `ClassDialect`, for infinities. -/
def infinityLiteral : Dialect → (negative : Bool) → String
  | java _, false => "Double.POSITIVE_INFINITY"
  | java _, true => "Double.NEGATIVE_INFINITY"
  | typescript, false => "Infinity"
  | typescript, true => "-Infinity"

/-- The value that is no number.  Source: `non_finite_literal` of `ClassDialect`, for what is no
number. -/
def nanLiteral : Dialect → String
  | java _ => "Double.NaN"
  | typescript => "NaN"

/-- The words that cannot name a member or a parameter.  Source: `JAVA_RESERVED` and `TS_RESERVED`.
-/
def reservedWords : Dialect → List String
  | java _ =>
    ["_", "abstract", "assert", "boolean", "break", "byte", "case", "catch", "char", "class",
     "const", "continue", "default", "do", "double", "else", "enum", "extends", "false", "final",
     "finally", "float", "for", "goto", "if", "implements", "import", "instanceof", "int",
     "interface", "long", "native", "new", "null", "package", "private", "protected", "public",
     "return", "short", "static", "strictfp", "super", "switch", "synchronized", "this", "throw",
     "throws", "transient", "true", "try", "void", "volatile", "while"]
  | typescript =>
    ["arguments", "break", "case", "catch", "class", "const", "continue", "debugger", "default",
     "delete", "do", "else", "enum", "eval", "export", "extends", "false", "finally", "for",
     "function", "if", "implements", "import", "in", "instanceof", "interface", "let", "new",
     "null", "package", "private", "protected", "public", "return", "static", "super", "switch",
     "this", "throw", "true", "try", "typeof", "var", "void", "while", "with", "yield"]

/-- The initial value of a member that holds a named object, if it has one.  Source:
`nested_default` of `ClassDialect`. -/
def nestedDefault? : Dialect → String → Option String
  | java _, _ => none
  | typescript, typeName => some ("new " ++ typeName ++ "()")

/-- What a generated array begins as.  Source: `array_init` of `ClassDialect`. -/
def arrayInit : Dialect → (element : String) → (length : Nat) → String
  | java _, element, length =>
    "new " ++ element ++ "[" ++ String.ofList (Text.decimal length) ++ "]"
  | typescript, _, _ => "[]"

/-- The statement that declares a variable as a fresh object.  Source: `new_object` of
`ClassDialect`. -/
def newObject : Dialect → (typeName var : String) → String
  | java _, typeName, var => typeName ++ " " ++ var ++ " = new " ++ typeName ++ "();"
  | typescript, typeName, var => "const " ++ var ++ " = new " ++ typeName ++ "();"

/-- The statement that stores a variable in the generated array.  Source: `store` of `ClassDialect`.
-/
def store : Dialect → (var : String) → (index : Nat) → String
  | java _, var, index =>
    "v[" ++ String.ofList (Text.decimal index) ++ "] = " ++ var ++ ";"
  | typescript, var, _ => "v.push(" ++ var ++ ");"

/-- The name of the member for an identifier: its first character in lower case, and an underscore
behind a reserved word.  Source: `member_name` of `ClassEmitter`. -/
def memberName (d : Dialect) (ident : String) : String :=
  let plain := Ident.lowerFirst ident
  if plain ∈ d.reservedWords then plain ++ "_" else plain

end Dialect

end Exemplar.Class
