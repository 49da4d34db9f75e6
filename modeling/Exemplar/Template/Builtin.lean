import Exemplar.Template.Basic

/-!
# The built-in templates

The frame of a generated file in each language: what it begins with, how a declaration opens, and
the accessors of a member.  Source: the texts in the module `template`.
-/

namespace Exemplar.Template

/-! ## Structs -/

/-- The head of a file of structs: package clause and imports.  Source: `GO_PREAMBLE_SRC`. -/
def structPreamble : Template where
  name := "go.preamble"
  pieces :=
    [.text "// Code generated by configd. DO NOT EDIT.\n\npackage ", .slot "package", .text "\n\n",
     .given "imports"
       [.text "import (\n", .each "imports" "\t\"" "\"\n", .text ")\n\n"]]

/-- The line that opens a struct, or a slice of structs.  Source: `GO_STRUCT_OPEN_SRC`. -/
def structOpen : Template where
  name := "go.struct_open"
  pieces :=
    [.text "type ", .slot "name", .text " ", .given "is_array" [.text "[]"],
     .text "struct \x7b\n"]

/-! ## Classes in a package -/

/-- The head of a file of classes in a package, with the opening of the public one.  Source:
`JAVA_HEADER_SRC`. -/
def packagedHeader : Template where
  name := "java.header"
  pieces :=
    [.text "// File generated by configd.\npackage ", .slot "package", .text ";\n\n",
     .given "is_array" [.text "// NOTE: use as an array\n"],
     .text "public class ", .slot "name", .text " \x7b\n"]

/-- The opening of a further class of a package.  Source: `JAVA_CLASS_OPEN_SRC`. -/
def packagedOpen : Template where
  name := "java.class_open"
  pieces := [.text "\nclass ", .slot "name", .text " \x7b\n"]

/-- The getter and the setter of a member whose type stands before its name. -/
def packagedPair : List Piece :=
  [.text ";\n\n    public ", .slot "type", .text " get", .slot "name",
   .text "() \x7b\n        return ", .slot "field",
   .text ";\n    \x7d\n\n    public void set", .slot "name", .text "(", .slot "type", .text " ",
   .slot "field", .text ") \x7b\n        this.", .slot "field", .text " = ", .slot "field",
   .text ";\n    \x7d\n"]

/-- A member with its accessors, and an initial value if there is one.  Source:
`JAVA_ACCESSORS_SRC`. -/
def packagedAccessors : Template where
  name := "java.accessors"
  pieces :=
    [.text "\n    private ", .slot "type", .text " ", .slot "field",
     .given "value" [.text " = ", .slot "value"]] ++ packagedPair

/-- A member that a generator method fills, with its accessors.  Source: `JAVA_ARRAY_ACCESSORS_SRC`.
-/
def packagedArrayAccessors : Template where
  name := "java.array_accessors"
  pieces :=
    [.text "\n    private ", .slot "type", .text " ", .slot "field", .text " = generate",
     .slot "name", .text "Array()"] ++ packagedPair ++
    [.text "\n    private static ", .slot "type", .text " generate", .slot "name",
     .text "Array() \x7b\n        ", .slot "type", .text " v = ", .slot "init", .text ";\n",
     .each "statements" "        " "\n", .text "        return v;\n    \x7d\n"]

/-! ## Exported classes -/

/-- The head of a module of exported classes, with the opening of the first one.  Source:
`TS_HEADER_SRC`. -/
def exportedHeader : Template where
  name := "typescript.header"
  pieces :=
    [.text "// File generated by configd.\n\n",
     .given "is_array" [.text "// NOTE: use as an array\n"],
     .text "export class ", .slot "name", .text " \x7b\n"]

/-- The opening of a further exported class.  Source: `TS_CLASS_OPEN_SRC`. -/
def exportedOpen : Template where
  name := "typescript.class_open"
  pieces := [.text "\nexport class ", .slot "name", .text " \x7b\n"]

/-- The getter and the setter of a member whose type stands behind its name. -/
def exportedPair : List Piece :=
  [.text ";\n\n    public get", .slot "name", .text "(): ", .slot "type",
   .text " \x7b\n        return this.", .slot "field",
   .text ";\n    \x7d\n\n    public set", .slot "name", .text "(", .slot "field", .text ": ",
   .slot "type", .text ") \x7b\n        this.", .slot "field", .text " = ", .slot "field",
   .text ";\n    \x7d\n"]

/-- A member with its accessors, and an initial value if there is one.  Source: `TS_ACCESSORS_SRC`.
-/
def exportedAccessors : Template where
  name := "typescript.accessors"
  pieces :=
    [.text "\n    private ", .slot "field", .text ": ", .slot "type",
     .given "value" [.text " = ", .slot "value"]] ++ exportedPair

/-- A member that a generator method fills, with its accessors.  Source: `TS_ARRAY_ACCESSORS_SRC`.
-/
def exportedArrayAccessors : Template where
  name := "typescript.array_accessors"
  pieces :=
    [.text "\n    private ", .slot "field", .text ": ", .slot "type", .text " = this.generate",
     .slot "name", .text "Array()"] ++ exportedPair ++
    [.text "\n    private generate", .slot "name", .text "Array(): ", .slot "type",
     .text " \x7b\n        const v: ", .slot "type", .text " = ", .slot "init", .text ";\n",
     .each "statements" "        " "\n", .text "        return v;\n    \x7d\n"]

/-- All built-in templates.  Source: `TEMPLATES`. -/
def builtin : List Template :=
  [structPreamble, structOpen, packagedHeader, packagedOpen, packagedAccessors,
   packagedArrayAccessors, exportedHeader, exportedOpen, exportedAccessors,
   exportedArrayAccessors]

/-- The built-in template of a given name. -/
def builtin? (name : String) : Option Template :=
  builtin.find? (·.name == name)

end Exemplar.Template
