import Exemplar.Generate
import Exemplar.Proofs.Struct.TagPlace

/-!
# The place of tags in generated structs

What becomes of the tags of a document's model from the emitted text to the laid out one.  The main
statement: every field has its tag on a line of its own, and the tag stands unchanged at the same
place of the laid out text exactly if its key has no backtick, the layout does not take the line
for cells, or the blanks at its backticks are the spaces of the columns.
-/

namespace Exemplar

open Struct

private theorem keepsAt_text {examples : Bool} {l : Line} {f : Field}
    (hfield : l.field? = some f) :
    Text.KeepsAt l.code (tag f.key.toList f.quoted) (comment examples f) (l.text examples) := by
  refine ⟨l.code ++ [' '], comment examples f, ?_, ?_, rfl⟩
  · rw [Line.text, hfield, List.append_assoc, List.singleton_append]
  · rw [Text.ink_append]
    exact List.append_nil _

/-- A file of structs without a head is laid out line by line.  Each field of the model has its tag
on one line, and a tag stands at the place of its line in the generated text exactly if the text
is not laid out, the key has no backtick, or the blanks at the backticks of the tag are the spaces
that the layout writes there.  With a backtick in the key, the layout takes the line for cells
exactly if a second one follows on the line with nothing or a comment behind it. -/
theorem generateFromValue_keepsAt_iff {options : GenerateOptions}
    (hpackage : options.package? = none) {v : Json.Value} {model : Model}
    (h : infer { refineStrings := options.refineStrings } v = .ok model) :
    ∃ root text rs out, model.root.rootFields = .ok root ∧
      source options.style model (Ident.root options.rootName?) = .ok (String.ofList text) ∧
      rows text = .ok rs ∧
      generateFromValue v .go options = .ok (String.ofList out) ∧
      (taggedFields (fileLines root model.named (Ident.root options.rootName?))).Perm
        model.root.deepFields ∧
      ∀ (k : Nat) (l : Line) (f : Field),
        (fileLines root model.named (Ident.root options.rootName?))[k]? = some l →
        l.field? = some f →
        ∃ (r : Row) (w : Widths) (line : List Char), (inkLines text)[k]? = some (l.code ++ ' ' ::
            (tag f.key.toList f.quoted ++ comment options.withExamples f)) ∧
          (measured rs)[k]? = some (r, w) ∧ (inkLines out)[k]? = some line ∧
          (Text.KeepsAt l.code (tag f.key.toList f.quoted) (comment options.withExamples f) line ↔
            (options.format = true → tick ∈ f.key.toList →
              r.SpacesAtTicks w (tag f.key.toList f.quoted))) ∧
          (tick ∈ f.key.toList → (r.cells?.isSome ↔ ∃ after,
            afterTicks? (tag f.key.toList f.quoted ++ comment options.withExamples f) =
              some after ∧ EndsRow after)) := by
  obtain ⟨root, hroot⟩ := infer_rootFields h
  have hwritten := isWrittenFile_of_infer rfl h hroot options.rootName?
  obtain ⟨hcode, rs, hrows, hmap⟩ := rows_fileTexts options.withExamples hwritten
  have hsource : source options.style model (Ident.root options.rootName?) = .ok (String.ofList
      (Text.unlines (fileTexts options.withExamples root model.named
        (Ident.root options.rootName?)))) := source_eq hpackage hroot _
  have hread := isRead_of_mem_rows hrows
  have htexts := inkLines_fileTexts options.withExamples hcode
  have hperm := perm_taggedFields_fileLines hroot (Ident.root options.rootName?)
  rw [← infer_named_eq h hroot] at hperm
  have hgenerate : generateFromValue v .go options =
      emit options.style model (Ident.root options.rootName?) := by
    rw [generateFromValue]
    change (infer { refineStrings := options.refineStrings } v >>= _) = _
    rw [h]
    rfl
  refine ⟨root, _, rs, _, hroot, hsource, hrows, hgenerate.trans (emit_eq hsource hrows), hperm,
    fun k l f hl hfield => ?_⟩
  obtain ⟨r, w, hmeasured, hr, htext⟩ := exists_measured hmap hl
  have hlcode := hcode l (List.mem_of_getElem? hl)
  have hsourceLine := congrArg (·[k]?) htexts
  rw [List.getElem?_map, hl] at hsourceLine
  refine ⟨r, w, if options.format then r.line w else l.text options.withExamples, ?_, hmeasured,
    ?_, ?_, isSome_cells?_iff hlcode hfield (hread r hr) htext⟩
  · rw [hsourceLine, Option.map_some, Line.text, hfield]
  · change (inkLines (if options.format then _ else _))[k]? = _
    cases options.format with
    | true =>
      rw [if_pos rfl, if_pos rfl, inkLines_renderRows hread, List.getElem?_map, hmeasured]
      rfl
    | false => exact hsourceLine
  · cases options.format with
    | true =>
      rw [imp_iff_right rfl]
      exact keepsAt_line_iff hlcode hfield (hread r hr) htext w
    | false => exact iff_of_true (keepsAt_text hfield) fun h => by cases h

/-- A document whose key and text hold blanks, slashes, quotes and, in the text, a backtick. -/
def slashesDocument : Json.Value :=
  .object [("a // \"b\"", .string "c ` // \"d\"")]

/-- The tag of a key with slashes stands unchanged in the text. -/
theorem generateFromValue_keepsAt_iff_slashes :
    ∃ out line, generateFromValue slashesDocument .go {} = .ok (String.ofList out) ∧
      (inkLines out)[1]? = some line ∧
      Text.KeepsAt "AB string".toList (tag "a // \"b\"".toList false)
        " // c ` // \"d\"".toList line := by
  have hpackage : GenerateOptions.package? {} = none := rfl
  obtain ⟨root, text, rs, out, hroot, -, -, hout, -, hlines⟩ :=
    generateFromValue_keepsAt_iff (v := slashesDocument) hpackage rfl
  obtain rfl := Except.ok.inj hroot
  obtain ⟨r, w, line, -, -, hline, hkeeps, -⟩ := hlines 1 _ _ rfl rfl
  exact ⟨out, line, hout, hline, hkeeps.mpr fun _ hkey => absurd hkey (by decide)⟩

/-- A document whose only key holds two backticks with two slashes behind them. -/
def backticksDocument : Json.Value :=
  .object [("a`b`//c", .number (.integer 1 (by decide)))]

/-- The tag of a key with two backticks is changed by the layout, and stands nowhere in the
text. -/
theorem generateFromValue_backticks :
    ∃ model f out, infer {} backticksDocument = .ok model ∧ f ∈ model.root.deepFields ∧
      generateFromValue backticksDocument .go {} = .ok out ∧
      out = "type Config struct \x7b\n\tABC int64 \"json:\\\"a `b` //c\\\"\" // 1\n\x7d\n" ∧
      tag f.key.toList f.quoted = "\"json:\\\"a`b`//c\\\"\"".toList ∧
      ¬ tag f.key.toList f.quoted <:+: out.toList := by
  refine ⟨_, _, _, rfl, List.mem_cons_self, ?generated, rfl, ?tag, ?changed⟩
  case generated => decide +kernel
  case tag => decide +kernel
  case changed => decide +kernel

end Exemplar
