import Exemplar.Proofs.Struct.Rows
import Exemplar.Proofs.Template.LineFeeds

/-!
# Line feeds of struct declarations

The lines of struct declarations counted by the fields and the structs inside them.  The main
statement: a file of structs that is not laid out has one line feed for each of these lines and one
before each further declaration.
-/

namespace Exemplar

private theorem Text.count_lineFeed_unlines {ls : List (List Char)} (h : ∀ l ∈ ls, '\n' ∉ l) :
    (Text.unlines ls).count '\n' = ls.length := by
  induction ls with
  | nil => rfl
  | cons l ls ih =>
    obtain ⟨hl, hrest⟩ := List.forall_mem_cons.mp h
    rw [Text.unlines, List.flatMap_cons, List.count_append, List.count_append,
      List.count_eq_zero.mpr hl, List.length_cons, ← ih hrest, Text.unlines]
    simp only [List.count_cons_self, List.count_nil]
    omega

namespace Struct

/-! ## Counting by fields -/

mutual

/-- The line feeds in the type of a node: one behind the opening of a struct, and those of the
fields in it. -/
def typeLineFeeds : Node → Nat
  | .scalar _ => 0
  | .array element => typeLineFeeds element
  | .object (some _) _ => 0
  | .object none fields => 1 + fieldsLineFeeds fields
termination_by structural node => node

/-- The line feeds of fields: one behind each, and those in its type. -/
def fieldsLineFeeds : List Field → Nat
  | [] => 0
  | ⟨_, node, _, _⟩ :: fields => 1 + typeLineFeeds node + fieldsLineFeeds fields
termination_by structural fields => fields

end

/-- The line feeds of a file without a head: two for each declaration, one before each further one,
and those of the fields. -/
def fileLineFeeds (root : RootFields) (named : List NamedObject) : Nat :=
  2 + fieldsLineFeeds root.fields +
    (named.map fun o => 1 + (2 + fieldsLineFeeds o.fields)).sum

/-! ## The lines of fields -/

private theorem length_linesOfField (depth : Nat) (f : Field) (opening : List Char)
    (body? : Option (List Line)) :
    (linesOfField depth f opening body?).length =
      1 + body?.elim 0 fun body => 1 + body.length := by
  cases body? with
  | none => rfl
  | some body =>
    rw [linesOfField, List.length_cons, List.length_append, List.length_singleton,
      Option.elim_some]
    omega

mutual

private theorem length_typeLines? (depth : Nat) (node : Node) :
    ((typeLines? depth node).elim 0 fun body => 1 + body.length) = typeLineFeeds node := by
  match node with
  | .scalar _ | .object (some _) _ => rfl
  | .array element =>
    rw [typeLines?, typeLineFeeds]
    exact length_typeLines? depth element
  | .object none fields =>
    rw [typeLines?, typeLineFeeds, ← length_linesOfFields depth fields]
    rfl
termination_by structural node

private theorem length_linesOfFields (depth : Nat) (fs : List Field) :
    (linesOfFields depth fs).length = fieldsLineFeeds fs := by
  match fs with
  | [] => rfl
  | ⟨key, node, example?, quoted⟩ :: fs =>
    rw [linesOfFields, List.length_append, length_linesOfField,
      length_typeLines? (depth + 1) node, length_linesOfFields depth fs, fieldsLineFeeds]
termination_by structural fs

end

/-! ## Files -/

private theorem length_declarationLines (name : String) (isArray : Bool) (fields : List Field) :
    (declarationLines name isArray fields).length = 2 + fieldsLineFeeds fields := by
  rw [declarationLines, List.length_cons, List.length_append, length_linesOfFields,
    List.length_singleton]
  omega

private theorem length_fileTexts (examples : Bool) (root : RootFields) (named : List NamedObject)
    (rootName : String) :
    (fileTexts examples root named rootName).length = fileLineFeeds root named := by
  rw [fileTexts, List.length_append, List.length_map, length_declarationLines, List.length_flatMap,
    fileLineFeeds]
  simp only [List.length_cons, List.length_map, length_declarationLines, Nat.add_comm 1]

/-- A file without a head that is not laid out has the line feeds that its declarations call for,
if these can be written. -/
theorem lineFeeds_of_emit {style : Style} (hpackage : style.package? = none)
    (hformat : style.format = false) {model : Model} {root : RootFields}
    (hroot : model.root.rootFields = .ok root) {rootName : String}
    (hwritten : IsWrittenFile root model.named rootName) {text : String}
    (h : emit style model rootName = .ok text) :
    Text.lineFeeds text = fileLineFeeds root model.named := by
  rw [emit_eq_source hformat, source_eq hpackage hroot] at h
  obtain rfl := Except.ok.inj h
  have hlines := lineFeed_notMem_fileTexts style.withExamples (isCode_of_mem_fileLines hwritten)
  rw [Text.lineFeeds_ofList, Text.count_lineFeed_unlines hlines, length_fileTexts]

end Struct

end Exemplar
