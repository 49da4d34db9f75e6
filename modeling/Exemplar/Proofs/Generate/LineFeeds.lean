import Exemplar.Generate
import Exemplar.Proofs.Class.LineFeeds
import Exemplar.Proofs.Struct.LineFeeds

/-!
# Line feeds of generated sources

The main statement: what is generated for a document has the line feeds that its model calls for.
They are counted by declarations, fields and items, and not by what keys, strings and names hold, so
a document cannot add a line to a file by its texts, and neither can the name of the root.
-/

namespace Exemplar

/-- The line feeds of a file for a target: of structs without a head, those of the declarations,
and of classes, those of the templates and one for the end of each class. -/
def Target.lineFeeds : Target → RootFields → List NamedObject → Nat
  | go, root, named => Struct.fileLineFeeds root named
  | java, root, named =>
    (Class.Dialect.java Class.Dialect.defaultPackage).templateLineFeeds root named +
      (named.length + 1)
  | typescript, root, named =>
    Class.Dialect.typescript.templateLineFeeds root named + (named.length + 1)

/-- Whether a value has a model, and a text has the line feeds that the model calls for. -/
def HasLineFeedsOf (target : Target) (options : GenerateOptions) (v : Json.Value) (text : String) :
    Prop :=
  ∃ model root,
    infer { nesting := (target.emitter options).nesting
            refineStrings := options.refineStrings } v = .ok model ∧
      model.root.rootFields = .ok root ∧ Text.lineFeeds text = target.lineFeeds root model.named

/-- What is generated for a value, and for the bytes of a document, has the line feeds that the
model calls for, whatever the texts and the name of the root hold.  Structs must have no head and
not be laid out. -/
theorem generate_lineFeeds {target : Target} {options : GenerateOptions}
    (hstructs : target = .go → options.package? = none ∧ options.format = false) :
    (∀ v text, generateFromValue v target options = .ok text →
      HasLineFeedsOf target options v text) ∧
    ∀ bytes text, generate bytes target options = .ok text →
      ∃ v, load bytes options = .ok v ∧ HasLineFeedsOf target options v text := by
  have hvalue : ∀ v text, generateFromValue v target options = .ok text →
      HasLineFeedsOf target options v text := by
    intro v text h
    obtain ⟨model, hmodel, h⟩ := bind_eq_ok_iff.mp h
    obtain ⟨root, hroot⟩ := infer_rootFields hmodel
    refine ⟨model, root, hmodel, hroot, ?_⟩
    cases target with
    | go =>
      obtain ⟨hpackage, hformat⟩ := hstructs rfl
      have hwritten := Struct.isWrittenFile_of_infer rfl hmodel hroot options.rootName?
      exact Struct.lineFeeds_of_emit hpackage hformat hroot hwritten h
    | java =>
      refine Class.lineFeeds_of_infer (fun p hp => ?_) hmodel hroot h
      obtain rfl := Option.some.inj hp
      decide
    | typescript => exact Class.lineFeeds_of_infer (fun p hp => by cases hp) hmodel hroot h
  refine ⟨hvalue, fun bytes text h => ?_⟩
  obtain ⟨v, hv, h⟩ := bind_eq_ok_iff.mp h
  exact ⟨v, hv, hvalue v text h⟩

/-- A document whose keys and texts hold line breaks, quotes and backticks. -/
def brokenLinesDocument : Json.Value :=
  .object
    [("a\n`b`", .string "c\r\n\"d"),
     ("e\n", .array
      [.object [("f\n", .string "\n\n"), ("g", .null)], .object [("g", .bool true)]]),
     ("h", .object [("i\n\u2028", .bool false)])]

/-- The choices of a generation under a name with line breaks. -/
def brokenNameOptions : GenerateOptions := { rootName? := some "j\nk\n", format := false }

/-- The structs and the classes for the document have the lines of their declarations. -/
theorem generate_lineFeeds_brokenLines :
    (∃ text, generateFromValue brokenLinesDocument .go brokenNameOptions = .ok text ∧
      Text.lineFeeds text = 12) ∧
    ∃ text, generateFromValue brokenLinesDocument .java brokenNameOptions = .ok text ∧
      Text.lineFeeds text = 83 := by
  constructor
  · obtain ⟨text, htext⟩ : ∃ text,
        generateFromValue brokenLinesDocument .go brokenNameOptions = .ok text := ⟨_, rfl⟩
    obtain ⟨model, root, hmodel, hroot, hcount⟩ :=
      (generate_lineFeeds fun _ => ⟨rfl, rfl⟩).1 _ _ htext
    obtain rfl := Except.ok.inj hmodel
    obtain rfl := Except.ok.inj hroot
    exact ⟨text, htext, hcount.trans (by decide +kernel)⟩
  · obtain ⟨text, htext⟩ : ∃ text,
        generateFromValue brokenLinesDocument .java brokenNameOptions = .ok text := ⟨_, rfl⟩
    obtain ⟨model, root, hmodel, hroot, hcount⟩ :=
      (generate_lineFeeds fun h => by cases h).1 _ _ htext
    obtain rfl := Except.ok.inj hmodel
    obtain rfl := Except.ok.inj hroot
    exact ⟨text, htext, hcount.trans (by decide +kernel)⟩

/-- The class of an empty object has five lines, one more than the templates of its file: the line
of its end stands in none of them. -/
theorem generateFromValue_endOfClass :
    ∃ text model root, generateFromValue (.object []) .java {} = .ok text ∧
      infer { nesting := .named } (.object []) = .ok model ∧ model.root.rootFields = .ok root ∧
      Text.lineFeeds text = 5 ∧
      (Class.Dialect.java Class.Dialect.defaultPackage).templateLineFeeds root model.named = 4 :=
  ⟨_, _, _, rfl, rfl, rfl, by decide +kernel, by decide +kernel⟩

end Exemplar
