import Exemplar.Command.Run
import Exemplar.Proofs.Command.Arguments
import Exemplar.Proofs.FileTree
import Exemplar.Proofs.Generate.PublicClass

/-!
# What runs leave behind

A run that fails leaves nothing behind but directories, and one that does not puts its text in one
place.  The main statement: a command line that is read is run in this way, with what its arguments
stand for, whatever the input and the files around it.
-/

namespace Exemplar

/-! ## Conventional places -/

namespace Path

private theorem pieces_eq_singleton {name : String} (hne : name ≠ "") (hslash : '/' ∉ name.toList) :
    pieces name = [name] := by
  have hchars : name.toList ≠ [] := by rwa [Ne, String.toList_eq_nil_iff]
  rw [pieces, Text.split_eq_self hslash]
  simp [hchars]

end Path

/-- The names along the way from the directory of a project to the file of a target that holds a
text.  A file of classes in a package is called like the public class in it. -/
inductive ConventionalNames (text : String) : Target → List String → Prop
  | go : ConventionalNames text .go ["vendor", "configd", "structs.go"]
  | java (name : String) (hname : publicClassLine? text = some (publicClassLine name)) :
      ConventionalNames text .java ["app", "settings", name ++ ".java"]
  | typescript : ConventionalNames text .typescript ["configd", "c.ts"]

private theorem pieces_defaultDestination_java {name : String} (hslash : '/' ∉ name.toList) :
    Path.pieces (Target.defaultDestination name .java) = ["app", "settings", name ++ ".java"] := by
  have hpath : Target.defaultDestination name .java =
      "app" ++ "/" ++ ("settings" ++ "/" ++ (name ++ ".java")) := by
    have hfront : "app/settings/" = "app" ++ "/" ++ ("settings" ++ "/") := rfl
    rw [Target.defaultDestination, hfront]
    simp only [String.append_assoc]
  have hfile : Path.pieces (name ++ ".java") = [name ++ ".java"] := by
    refine Path.pieces_eq_singleton (by simp) ?_
    rw [String.toList_append, List.mem_append, not_or]
    exact ⟨hslash, by decide⟩
  have happ : Path.pieces "app" = ["app"] := by decide +kernel
  have hsettings : Path.pieces "settings" = ["settings"] := by decide +kernel
  rw [hpath, Path.pieces_append_slash, Path.pieces_append_slash, hfile, happ, hsettings]
  rfl

private theorem conventionalNames_of_generate {bytes : List UInt8} {target : Target}
    {options : GenerateOptions} {text : String} (h : generate bytes target options = .ok text) :
    ConventionalNames text target
      (Path.pieces (target.defaultDestination (Ident.root options.rootName?))) := by
  cases target with
  | go =>
    have hpieces : Path.pieces "vendor/configd/structs.go" =
        ["vendor", "configd", "structs.go"] := by decide +kernel
    rw [Target.defaultDestination, hpieces]
    exact .go
  | typescript =>
    have hpieces : Path.pieces "configd/c.ts" = ["configd", "c.ts"] := by decide +kernel
    rw [Target.defaultDestination, hpieces]
    exact .typescript
  | java =>
    have hslash : '/' ∉ (Ident.root options.rootName?).toList := fun hmem =>
      absurd (Ident.isPlain_of_mem_root hmem) (by decide)
    rw [pieces_defaultDestination_java hslash]
    exact .java _ (publicClassLine?_of_generate h)

private theorem ConventionalNames.ne_points {text : String} {target : Target} {names : List String}
    (h : ConventionalNames text target names) : ∀ name ∈ names, name ≠ "." ∧ name ≠ ".." := by
  cases h with
  | go => decide
  | typescript => decide
  | java name hname =>
    have hlong : ∀ points : String, points.length < 5 → name ++ ".java" ≠ points := by
      rintro points hlength rfl
      have hfive : ".java".length = 5 := rfl
      rw [String.length_append] at hlength
      omega
    simp only [List.forall_mem_cons]
    exact ⟨by decide, by decide, ⟨hlong "." (by decide), hlong ".." (by decide)⟩,
      fun _ hnil => by cases hnil⟩

namespace Command

/-! ## What is delivered -/

/-- The text that a verb gives for the bytes of the input, with the choices that were made. -/
def Invocation.result (i : Invocation) (bytes : List UInt8) : Except Error String :=
  match i.verb with
  | .generate target => generate bytes target i.options
  | .schema => (inferSchema bytes i.nesting i.options).map fun view => view.toJson.pretty

/-- The failure of a run in which the verb fails. -/
def Invocation.failure (i : Invocation) (e : Error) : RunError :=
  match i.verb with
  | .generate target => .generation target i.input e
  | .schema => .inference e

private theorem output_eq (i : Invocation) (bytes : List UInt8) :
    i.output bytes = (i.result bytes).mapError i.failure := by
  rw [Invocation.output, Invocation.result]
  cases i with
  | mk verb input options nesting destination =>
    cases verb with
    | generate target => cases generate bytes target options <;> rfl
    | schema => cases inferSchema bytes nesting options <;> rfl

/-- Whether a run put a text in one place, unchanged: it printed it, or wrote it to the path that
was asked for, or to the conventional place in a project. -/
def Delivers (i : Invocation) (tree : FileTree) (text : String) (o : Outcome) : Prop :=
  match i.destination with
  | .stdout => o.stdout = text ∧ o.tree = tree
  | .file path => o.stdout = "" ∧ ∃ location,
      FileTree.WritesAt tree o.tree path location (Text.Utf8.encode text.toList)
  | .project directory => o.stdout = "" ∧ ∃ target d names,
      i.verb = .generate target ∧ ConventionalNames text target names ∧
      o.tree.locate directory = .ok d ∧
      FileTree.WritesAt tree o.tree
        (Path.join directory (target.defaultDestination (Ident.root i.options.rootName?)))
        (d ++ names) (Text.Utf8.encode text.toList)

/-- Whether a run delivers its text or nothing: it ends with the failure to read its input or with
that of its verb, and changes nothing then; it delivers the text of its verb if it ends without a
failure, which it always does if the text is printed; and whatever the failure, it prints nothing
and leaves no file behind that was not there as it is. -/
structure AllOrNothing (i : Invocation) (stdin : List UInt8) (tree : FileTree) : Prop where
  unread : ∀ e, readInput i stdin tree = .error e →
    run i stdin tree = { tree, stdout := "", error? := some e }
  failed : ∀ bytes e, readInput i stdin tree = .ok bytes → i.result bytes = .error e →
    run i stdin tree = { tree, stdout := "", error? := some (i.failure e) }
  delivered : ∀ bytes text, readInput i stdin tree = .ok bytes → i.result bytes = .ok text →
    (run i stdin tree).error? = none → Delivers i tree text (run i stdin tree)
  printed : ∀ bytes text, readInput i stdin tree = .ok bytes → i.result bytes = .ok text →
    i.destination = .stdout → (run i stdin tree).error? = none
  left : ∀ e, (run i stdin tree).error? = some e →
    (run i stdin tree).stdout = "" ∧ FileTree.Furnishes tree (run i stdin tree).tree

/-! ## Writing -/

private theorem furnishes_prepareDirectory (tree : FileTree) (path : String) :
    FileTree.Furnishes tree (prepareDirectory tree path).1 := by
  rw [prepareDirectory]
  split
  · exact .refl tree
  · exact FileTree.furnishes_makeDirectories tree _

private theorem stdout_writeOutput (tree : FileTree) (path text : String) :
    (writeOutput tree path text).stdout = "" := by
  rw [writeOutput]
  split
  · rfl
  · split <;> rfl

private theorem writeOutput_cases (tree : FileTree) (path text : String) :
    ((writeOutput tree path text).error? ≠ none ∧
      FileTree.Furnishes tree (writeOutput tree path text).tree) ∨
    ((writeOutput tree path text).error? = none ∧ ∃ location,
      FileTree.WritesAt tree (writeOutput tree path text).tree path location
        (Text.Utf8.encode text.toList)) := by
  have hprepare := furnishes_prepareDirectory tree path
  rw [writeOutput]
  cases hmade : prepareDirectory tree path with
  | mk tree' made =>
    rw [hmade] at hprepare
    cases made with
    | error e => exact .inl ⟨Option.some_ne_none _, hprepare⟩
    | ok _ =>
      dsimp only
      cases hwrite : tree'.write path (Text.Utf8.encode text.toList) with
      | error e => exact .inl ⟨Option.some_ne_none _, hprepare⟩
      | ok tree'' =>
        obtain ⟨location, hwrites⟩ := FileTree.exists_writesAt_of_write hwrite
        exact .inr ⟨rfl, location, hwrites.of_furnishes hprepare⟩

/-! ## Runs -/

section Runs

variable {args : List String} {i : Invocation} {bound : Bindings}

private theorem IsReadFrom.of_project (h : IsReadFrom args i bound) {directory : String}
    (hproject : i.destination = .project directory) :
    directory ≠ "" ∧ ∃ target, i.verb = .generate target := by
  obtain ⟨word, rest, -, -, hspells⟩ := h.spells
  obtain ⟨-, hlookup⟩ := (h.standsFor.project directory).mp hproject
  obtain ⟨before, after, hbound, -⟩ := List.lookup_eq_some_iff.mp hlookup
  have hmem : (Parameter.project, directory) ∈ bound := by
    rw [hbound]
    exact List.mem_append_right before List.mem_cons_self
  constructor
  · have haccepts := h.isBound.accepts _ hmem
    simpa [Parameter.accepts] using haccepts
  · have hknown := hspells.mem_known _ hmem
    cases hverb : i.verb with
    | generate target => exact ⟨target, rfl⟩
    | schema =>
      have hnot : Parameter.project ∉ Verb.schema.parameters := by decide
      rw [hverb] at hknown
      exact absurd hknown hnot

private theorem run_of_result {stdin : List UInt8} {tree : FileTree} {bytes : List UInt8}
    {text : String}
    (hread : readInput i stdin tree = .ok bytes) (hresult : i.result bytes = .ok text) :
    run i stdin tree = deliver tree i.path? text := by
  rw [run, hread]
  dsimp only
  rw [output_eq, hresult]
  rfl

private theorem run_of_failure {stdin : List UInt8} {tree : FileTree} {bytes : List UInt8}
    {e : Error} (hread : readInput i stdin tree = .ok bytes) (hresult : i.result bytes = .error e) :
    run i stdin tree = { tree, error? := some (i.failure e) } := by
  rw [run, hread]
  dsimp only
  rw [output_eq, hresult]
  rfl

private theorem delivers_of_deliver (h : IsReadFrom args i bound) {tree : FileTree}
    {bytes : List UInt8} {text : String} (hresult : i.result bytes = .ok text)
    (herror : (deliver tree i.path? text).error? = none) :
    Delivers i tree text (deliver tree i.path? text) := by
  have hwritten : ∀ path, i.path? = some path →
      (deliver tree i.path? text).stdout = "" ∧ ∃ location,
        FileTree.WritesAt tree (deliver tree i.path? text).tree path location
          (Text.Utf8.encode text.toList) := by
    intro path hpath
    rw [hpath] at herror ⊢
    rcases writeOutput_cases tree path text with ⟨hfailed, -⟩ | ⟨-, hwrites⟩
    · exact absurd herror hfailed
    · exact ⟨stdout_writeOutput tree path text, hwrites⟩
  rw [Delivers]
  cases hdestination : i.destination with
  | stdout =>
    have hpath : i.path? = none := by rw [Invocation.path?, hdestination]
    rw [hpath]
    exact ⟨rfl, rfl⟩
  | file path => exact hwritten path (by rw [Invocation.path?, hdestination])
  | project directory =>
    obtain ⟨hne, target, hverb⟩ := h.of_project hdestination
    obtain ⟨hstdout, location, hwrites⟩ := hwritten
      (Path.join directory (target.defaultDestination (Ident.root i.options.rootName?)))
      (by rw [Invocation.path?, hdestination, hverb])
    have hgenerate : generate bytes target i.options = .ok text := by
      rwa [Invocation.result, hverb] at hresult
    have hnames := conventionalNames_of_generate hgenerate
    obtain ⟨d, hd, rfl⟩ := FileTree.locate_join hne hnames.ne_points hwrites.locate
    exact ⟨hstdout, target, d, _, hverb, hnames, hd, hwrites⟩

/-- A command line that is read as an invocation is run by delivering the text of its verb or
nothing, and the invocation is what its arguments stand for. -/
theorem run_allOrNothing (h : parse args = .ok i) :
    (∃ bound, IsReadFrom args i bound) ∧ ∀ stdin tree, AllOrNothing i stdin tree := by
  obtain ⟨bound, hread⟩ := exists_isReadFrom_of_parse h
  refine ⟨⟨bound, hread⟩, fun stdin tree => ?_⟩
  constructor
  case unread =>
    intro e hinput
    rw [run, hinput]
  case failed => exact fun bytes e hinput hresult => run_of_failure hinput hresult
  case delivered =>
    intro bytes text hinput hresult herror
    rw [run_of_result hinput hresult] at herror ⊢
    exact delivers_of_deliver hread hresult herror
  case printed =>
    intro bytes text hinput hresult hdestination
    have hpath : i.path? = none := by rw [Invocation.path?, hdestination]
    rw [run_of_result hinput hresult, hpath]
    rfl
  case left =>
    intro e herror
    cases hinput : readInput i stdin tree with
    | error e' =>
      rw [run, hinput]
      exact ⟨rfl, .refl tree⟩
    | ok bytes =>
      cases hresult : i.result bytes with
      | error e' =>
        rw [run_of_failure hinput hresult]
        exact ⟨rfl, .refl tree⟩
      | ok text =>
        rw [run_of_result hinput hresult] at herror ⊢
        cases hpath : i.path? with
        | none =>
          rw [hpath] at herror
          cases herror
        | some path =>
          rw [hpath] at herror
          rcases writeOutput_cases tree path text with ⟨-, hfurnishes⟩ | ⟨hnone, -⟩
          · exact ⟨stdout_writeOutput tree path text, hfurnishes⟩
          · rw [deliver, hnone] at herror
            cases herror

end Runs

/-- Arguments that ask for classes in a project. -/
def projectArguments : List String :=
  ["java", "--project", "p", "--root-type=user_id"]

/-- What these arguments stand for. -/
def projectInvocation : Invocation where
  verb := .generate .java
  options := { rootName? := some "user_id" }
  destination := .project "p"

/-- In a tree without files, the run for an empty object writes one file, which is called like the
class in it. -/
theorem run_allOrNothing_project :
    parse projectArguments = .ok projectInvocation ∧ ∃ text,
      projectInvocation.result [0x7B, 0x7D] = .ok text ∧
      publicClassLine? text = some (publicClassLine "UserID") ∧
      (run projectInvocation [0x7B, 0x7D] {}).tree.files.map Prod.fst =
        [["p", "app", "settings", "UserID.java"]] ∧
      Delivers projectInvocation {} text (run projectInvocation [0x7B, 0x7D] {}) := by
  have hparse : parse projectArguments = .ok projectInvocation := rfl
  have hread : readInput projectInvocation [0x7B, 0x7D] {} = .ok [0x7B, 0x7D] := by
    decide +kernel
  have hresult : projectInvocation.result [0x7B, 0x7D] =
      .ok ("// File generated by configd.\npackage app.settings;\n\n" ++
        "public class UserID \x7b\n\x7d\n") := by
    decide +kernel
  have herror : (run projectInvocation [0x7B, 0x7D] {}).error? = none := by decide +kernel
  exact ⟨hparse, _, hresult, by decide +kernel, by decide +kernel,
    ((run_allOrNothing hparse).2 _ _).delivered _ _ hread hresult herror⟩

end Command

end Exemplar
