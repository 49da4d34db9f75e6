import Exemplar.Generate
import Exemplar.Proofs.Ident.Characters
import Exemplar.Proofs.Outcome
import Exemplar.Proofs.Text.Trim

/-!
# The public class of a generated file

The main statement: in a file of classes in a package, the first line that declares a public class
gives it the name of the root.
-/

namespace Exemplar

/-- What the line of a public class begins with. -/
def publicClass : List Char := "public class ".toList

/-- The line that declares the public class of a given name. -/
def publicClassLine (name : String) : List Char :=
  publicClass ++ name.toList ++ [' ', '\x7b']

/-- The first line of a text that declares a public class. -/
def publicClassLine? (text : String) : Option (List Char) :=
  (Text.lines text.toList).find? publicClass.isPrefixOf

/-- The lines of the head of a file of classes in a package, before the public class. -/
def packagedHead (package : String) (isArray : Bool) : List (List Char) :=
  ["// File generated by configd.".toList, "package ".toList ++ package.toList ++ [';'], []] ++
    if isArray then ["// NOTE: use as an array".toList] else []

private theorem toList_packagedHeader {package name header : String} {isArray : Bool}
    (h : Template.packagedHeader.render
      [("name", .text name), ("is_array", .bool isArray), ("package", .text package)] =
        .ok header) :
    header.toList = Text.unlines (packagedHead package isArray ++ [publicClassLine name]) := by
  have hopening : "// File generated by configd.\npackage ".toList =
      "// File generated by configd.".toList ++ '\n' :: "package ".toList := by
    decide +kernel
  have hnote : "// NOTE: use as an array\n".toList =
      "// NOTE: use as an array".toList ++ ['\n'] := by
    decide +kernel
  have hclause : ";\n\n".toList = [';', '\n', '\n'] := rfl
  have hend : " \x7b\n".toList = [' ', '\x7b', '\n'] := rfl
  have hheader : header = "// File generated by configd.\npackage " ++ (package ++ (";\n\n" ++
      ((if isArray then "// NOTE: use as an array\n" ++ "" else "") ++
        ("public class " ++ (name ++ (" \x7b\n" ++ "")))))) := by
    cases isArray <;> exact (Except.ok.inj h).symm
  subst hheader
  unfold packagedHead publicClassLine publicClass
  clear h
  -- What the fixed parts of the lines are does not matter any more.
  generalize "// File generated by configd.".toList = title at hopening ⊢
  generalize "package ".toList = clause at hopening ⊢
  generalize "// NOTE: use as an array".toList = note at hnote ⊢
  generalize hpublic : "public class ".toList = opening
  cases isArray <;>
    simp [Text.unlines, hopening, hclause, hnote, hend, hpublic]

private theorem exists_of_emit {package rootName out : String} {model : Model}
    (h : Class.emit (.java package) model rootName = .ok out) :
    ∃ isArray rest, out.toList =
      Text.unlines (packagedHead package isArray ++ [publicClassLine rootName]) ++ rest := by
  obtain ⟨root, -, h⟩ := bind_eq_ok_iff.mp h
  obtain ⟨first, hfirst, h⟩ := bind_eq_ok_iff.mp h
  obtain ⟨others, -, h⟩ := bind_eq_ok_iff.mp h
  obtain ⟨header, hheader, hfirst⟩ := bind_eq_ok_iff.mp hfirst
  obtain ⟨members, -, hfirst⟩ := bind_eq_ok_iff.mp hfirst
  obtain rfl := Except.ok.inj hfirst
  obtain rfl := Except.ok.inj h
  refine ⟨root.isArray, members.toList ++ (String.join others).toList, ?_⟩
  rw [String.toList_append, String.toList_append, toList_packagedHeader hheader,
    List.append_assoc]

/-- The first line that declares a public class in a file of classes in a package gives it the name
of the root. -/
theorem publicClassLine?_of_generate {bytes : List UInt8} {options : GenerateOptions}
    {text : String} (h : generate bytes .java options = .ok text) :
    publicClassLine? text = some (publicClassLine (Ident.root options.rootName?)) := by
  obtain ⟨v, -, h⟩ := bind_eq_ok_iff.mp h
  obtain ⟨model, -, h⟩ := bind_eq_ok_iff.mp h
  obtain ⟨isArray, rest, htext⟩ := exists_of_emit h
  have hhead : ∀ l ∈ packagedHead Class.Dialect.defaultPackage isArray,
      '\n' ∉ l ∧ publicClass.isPrefixOf l = false := by
    cases isArray <;> decide +kernel
  have hclass : '\n' ∉ publicClassLine (Ident.root options.rootName?) := by
    have hwords : '\n' ∉ publicClass ∧ '\n' ∉ [' ', '\x7b'] := by decide +kernel
    have hname : '\n' ∉ (Ident.root options.rootName?).toList := fun hfeed =>
      absurd (Ident.isPlain_of_mem_root hfeed) (by decide)
    simp only [publicClassLine, List.mem_append, not_or]
    exact ⟨⟨hwords.1, hname⟩, hwords.2⟩
  have hfound : publicClass.isPrefixOf (publicClassLine (Ident.root options.rootName?)) = true := by
    rw [List.isPrefixOf_iff_prefix, publicClassLine, List.append_assoc]
    exact List.prefix_append _ _
  have hfeeds : ∀ l ∈ packagedHead Class.Dialect.defaultPackage isArray ++
      [publicClassLine (Ident.root options.rootName?)], '\n' ∉ l := by
    intro l hl
    rcases List.mem_append.mp hl with hl | hl
    · exact (hhead l hl).1
    · rw [List.mem_singleton.mp hl]
      exact hclass
  have hnone : (packagedHead Class.Dialect.defaultPackage isArray).find? publicClass.isPrefixOf =
      none := by
    rw [List.find?_eq_none]
    intro l hl
    rw [(hhead l hl).2]
    exact Bool.false_ne_true
  rw [publicClassLine?, htext, Text.lines_unlines_append hfeeds, List.append_assoc,
    List.find?_append, hnone, Option.none_or, List.singleton_append,
    List.find?_cons_of_pos hfound]

end Exemplar
