import Exemplar.Generate
import Exemplar.Proofs.Class.References
import Exemplar.Proofs.Struct.References

/-!
# References in generated source

What the source that is generated for a document refers to.  The main statement: whatever is
generated declares all that it names, structs as well as classes, and every setter that it calls.
-/

namespace Exemplar

/-- In everything that is generated, each reference has its declaration.  The lines of a file of
structs are those of its declarations behind a head, up to blanks, with each field of the model on
one of them, and a type that refers to a named object has the struct of that object with its very
fields in the file.  A file of classes is the text of a tree in which all references are
declared. -/
theorem generateFromValue_references {v : Json.Value} {target : Target}
    {options : GenerateOptions} {out : String}
    (h : generateFromValue v target options = .ok out) :
    ∃ model, infer { nesting := (target.emitter options).nesting
                     refineStrings := options.refineStrings } v = .ok model ∧
      match target.emitter options with
      | .structs style => ∃ root ls text, model.root.rootFields = .ok root ∧
          ls = Struct.fileLines root model.named (Ident.root options.rootName?) ∧
          text = Text.unlines
            (Struct.headTexts style.package? (Struct.imports root.fields model.named) ++
              Struct.fileTexts style.withExamples root model.named
                (Ident.root options.rootName?)) ∧
          (Struct.inkLines out.toList).map Text.ink = (Struct.inkLines text).map Text.ink ∧
          (Struct.taggedFields ls).Perm model.root.deepFields ∧ Struct.ReferencesDeclared ls
      | .classes d => ∃ file, Class.fileSyntax d model (Ident.root options.rootName?) = .ok file ∧
          file.text d = .ok out ∧ file.Closed d model.named := by
  obtain ⟨model, hinfer, hemit⟩ := bind_eq_ok_iff.mp h
  refine ⟨model, hinfer, ?_⟩
  cases hemitter : target.emitter options with
  | structs style =>
    rw [hemitter] at hemit
    obtain ⟨root, hroot⟩ := infer_rootFields hinfer
    have hsource := Struct.source_eq_unlines style hroot (Ident.root options.rootName?)
    have hperm := Struct.perm_taggedFields_fileLines hroot (Ident.root options.rootName?)
    rw [← infer_named_eq hinfer hroot] at hperm
    exact ⟨root, _, _, hroot, rfl, rfl, Struct.ink_inkLines_emit hsource hemit, hperm,
      Struct.referencesDeclared_of_infer hinfer hroot _⟩
  | classes d =>
    rw [hemitter] at hemit
    obtain ⟨file, hfile, htext⟩ := Class.exists_file_of_emit hemit
    exact ⟨file, hfile, htext, Class.closed_of_infer hinfer hfile⟩

/-- A document with a list of objects, of which one has an object in it. -/
def serversDocument : Json.Value :=
  .object
    [("servers", .array [.object
      [("port", .number (.integer 443 (by decide))), ("tls", .object [("on", .bool true)])]])]

/-- The setter of the port that is called on a server is declared by the class of servers. -/
theorem generateFromValue_references_servers :
    ∃ (out : String) (file : Class.FileSyntax),
      generateFromValue serversDocument .java {} = .ok out ∧
      file.text (.java Class.Dialect.defaultPackage) = .ok out ∧
      file.others.map (·.name) = ["Servers", "Tls"] ∧
      ∃ c ∈ file.classes, ∃ m ∈ c.members, ∃ b ∈ m.blocks, b.typeName = "Servers" ∧
        .set "Port" "443L" ∈ b.statements ∧ ∃ c' ∈ file.others, c'.name = "Servers" ∧
          ∃ m' ∈ c'.members, m'.DeclaresSetter (.java Class.Dialect.defaultPackage) "Port" := by
  obtain ⟨out, hout⟩ : ∃ out, generateFromValue serversDocument .java {} = .ok out := ⟨_, rfl⟩
  obtain ⟨model, hinfer, file, hfile, htext, hclosed⟩ := generateFromValue_references hout
  obtain rfl := Except.ok.inj hinfer
  obtain rfl := Except.ok.inj hfile
  obtain ⟨-, -, -, -, -, -, -, c', hc', hname, m', hm', -, hsetter⟩ :=
    hclosed.setters _ (.head _) _ (.head _) _ (.head _) "Port" "443L" (.head _)
  exact ⟨out, _, hout, htext, rfl, _, .head _, _, .head _, _, .head _, rfl, .head _, c', hc',
    hname, m', hm', hsetter⟩

end Exemplar
