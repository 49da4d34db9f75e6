import Exemplar.Generate
import Exemplar.Proofs.Struct.Columns

/-!
# What the layout of generated structs changes

The main statement: the layout of a text, generated or not, changes nothing but blanks.  It neither
loses nor adds a line that is not blank, and each of these lines keeps its characters, so structs
that are generated with and without the layout agree up to blanks.
-/

namespace Exemplar

open Struct

/-! ## Texts that agree up to blanks -/

/-- Whether two texts have equally many lines that are not blank, and these have the same
characters, blanks apart. -/
def AgreeUpToBlanks (xs ys : List Char) : Prop :=
  (inkLines xs).length = (inkLines ys).length ∧
    ∀ k : Nat, ((inkLines xs)[k]?).map Text.ink = ((inkLines ys)[k]?).map Text.ink

private theorem agreeUpToBlanks_of_map_ink {xs ys : List Char}
    (h : (inkLines xs).map Text.ink = (inkLines ys).map Text.ink) : AgreeUpToBlanks xs ys := by
  constructor
  · have hlength := congrArg List.length h
    rwa [List.length_map, List.length_map] at hlength
  · intro k
    rw [← List.getElem?_map, ← List.getElem?_map, h]

/-! ## Texts with and without the layout -/

/-- The text of a file once it went through the layout; one that cannot be laid out stays as it
is. -/
def laidOut (text : String) : String :=
  match layout text.toList with
  | .ok out => String.ofList out
  | .error _ => text

private theorem agreeUpToBlanks_laidOut (text : String) :
    AgreeUpToBlanks (laidOut text).toList text.toList := by
  rw [laidOut]
  cases hlayout : layout text.toList with
  | error e => exact agreeUpToBlanks_of_map_ink rfl
  | ok out =>
    dsimp only
    rw [String.toList_ofList]
    exact agreeUpToBlanks_of_map_ink (ink_inkLines_layout hlayout)

/-- Whether what is generated with the layout differs in blanks only from what is generated
without it: both have the same error, or texts that agree, and a text that cannot be laid out
stays as it is. -/
structure DiffersInBlanks (generated : (format : Bool) → Except Error String) : Prop where
  error_iff : ∀ e, generated true = .error e ↔ generated false = .error e
  agree : ∀ text, generated false = .ok text → ∃ out, generated true = .ok out ∧
    AgreeUpToBlanks out.toList text.toList ∧ ∀ e, layout text.toList = .error e → out = text

private theorem differsInBlanks_of_map {generated : (format : Bool) → Except Error String}
    (h : generated true = (generated false).map laidOut) : DiffersInBlanks generated where
  error_iff := by
    intro e
    rw [h]
    cases generated false with
    | error e' => exact Iff.rfl
    | ok text => exact iff_of_false (fun h => by cases h) fun h => by cases h
  agree := by
    intro text htext
    rw [htext] at h
    refine ⟨laidOut text, h, agreeUpToBlanks_laidOut text, fun e hlayout => ?_⟩
    rw [laidOut, hlayout]

private theorem emit_format (style : Style) (model : Model) (rootName : String) :
    emit { style with format := true } model rootName =
      (emit { style with format := false } model rootName).map laidOut := by
  have hsource : source { style with format := true } model rootName =
      source { style with format := false } model rootName := rfl
  unfold emit
  rw [hsource]
  cases source { style with format := false } model rootName with
  | error e => rfl
  | ok text =>
    change (match layout text.toList with | .ok cs => _ | .error _ => _) = Except.ok (laidOut text)
    rw [laidOut]
    cases layout text.toList <;> rfl

/-- The structs that are generated for a value with the layout are those without it, laid out. -/
theorem generateFromValue_format (v : Json.Value) (options : GenerateOptions) :
    generateFromValue v .go { options with format := true } =
      (generateFromValue v .go { options with format := false }).map laidOut := by
  change (infer { refineStrings := options.refineStrings } v >>= _) =
    (infer { refineStrings := options.refineStrings } v >>= _).map laidOut
  cases infer { refineStrings := options.refineStrings } v with
  | error e => rfl
  | ok model => exact emit_format options.style model (Ident.root options.rootName?)

/-- The structs that are generated for a document with the layout are those without it, laid
out. -/
theorem generate_format (bytes : List UInt8) (options : GenerateOptions) :
    generate bytes .go { options with format := true } =
      (generate bytes .go { options with format := false }).map laidOut := by
  change (load bytes options >>= _) = (load bytes options >>= _).map laidOut
  cases load bytes options with
  | error e => rfl
  | ok v => exact generateFromValue_format v options

/-- The layout of a text loses and adds nothing but blanks, and so does the layout of the structs
that are generated for a value or for the bytes of a document, under all choices. -/
theorem layout_and_generate_agreeUpToBlanks :
    (∀ source out : List Char, layout source = .ok out → AgreeUpToBlanks out source) ∧
      (∀ (v : Json.Value) (options : GenerateOptions),
        DiffersInBlanks fun format => generateFromValue v .go { options with format }) ∧
      ∀ (bytes : List UInt8) (options : GenerateOptions),
        DiffersInBlanks fun format => generate bytes .go { options with format } :=
  ⟨fun _ _ h => agreeUpToBlanks_of_map_ink (ink_inkLines_layout h),
    fun v options => differsInBlanks_of_map (generateFromValue_format v options),
    fun bytes options => differsInBlanks_of_map (generate_format bytes options)⟩

/-- A text with blank lines and field lines. -/
def looseText : List Char :=
  "\ntype A struct \x7b\nB int `b`//1\n \t\nLong  [] int `c` // 2\n\x7d".toList

/-- A package clause that closes a block although none is open. -/
def unbalancedPackage : GenerateOptions := { package? := some "p\n\x7d" }

/-- The third line of the laid out text has the characters of that of the text, and structs behind
a package clause that cannot be laid out are the same with and without the layout. -/
theorem layout_and_generate_agreeUpToBlanks_loose :
    (∃ out, layout looseText = .ok out ∧ (inkLines out).length = 4 ∧
        ((inkLines out)[2]?).map Text.ink = some "Long[]int`c`//2".toList) ∧
      ∃ text, generateFromValue (.object []) .go { unbalancedPackage with format := false } =
          .ok text ∧
        generateFromValue (.object []) .go { unbalancedPackage with format := true } =
          .ok text := by
  constructor
  · have hout : layout looseText = .ok
        "type A struct \x7b\n\tB int `b` //1\n\n\tLong [] int `c` // 2\n\x7d\n".toList := by
      decide +kernel
    obtain ⟨hlength, hlines⟩ := layout_and_generate_agreeUpToBlanks.1 _ _ hout
    exact ⟨_, hout, hlength.trans (by decide +kernel), (hlines 2).trans (by decide +kernel)⟩
  · have htext : generateFromValue (.object []) .go { unbalancedPackage with format := false } =
        .ok ("// Code generated by configd. DO NOT EDIT.\n\npackage p\n\x7d\n\n" ++
          "type Config struct \x7b\n\x7d\n") := by
      decide +kernel
    obtain ⟨out, hout, -, hsame⟩ := (layout_and_generate_agreeUpToBlanks.2.1
      (.object []) unbalancedPackage).agree _ htext
    have hunbalanced := hsame (.unbalanced 4) (by decide +kernel)
    exact ⟨_, htext, hunbalanced ▸ hout⟩

end Exemplar
