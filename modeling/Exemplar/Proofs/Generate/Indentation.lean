import Exemplar.Generate
import Exemplar.Proofs.Struct.Blocks
import Exemplar.Proofs.Struct.Columns
import Exemplar.Proofs.Struct.Head

/-!
# The indentation of generated structs

What becomes of the blocks of a document's model from the emitted text to the laid out one.  The
main statement: every text that is emitted under a plain package name can be laid out, and each
line of it is indented by the structs around it, whatever the keys and the values hold.
-/

namespace Exemplar

open Struct

/-- Whether the lines of a text behind the first ones are given lines, each written with one tab for
every struct around it and with its characters behind the tabs. -/
structure IsIndented (examples : Bool) (ls : List Line) (before : Nat) (out : List Char) :
    Prop where
  length_eq : (inkLines out).length = before + ls.length
  exists_content : ∀ (k : Nat) (l : Line), ls[k]? = some l → ∃ content,
    (inkLines out)[before + k]? = some (List.replicate (blocksAround ls k) '\t' ++ content) ∧
      Text.BeginsSolid content ∧ Text.ink content = Text.ink (l.text examples)

private theorem isIndented_renderRows {examples : Bool} {ls : List Line} {depth : Nat}
    (hnests : Nests ls 0 depth) {rs : List Row} (hread : ∀ r ∈ rs, r.IsRead)
    {before : List (Nat × List Char)}
    (hrows : rs.map (fun r => (r.depth, r.text)) = before ++ rowsOf examples ls) :
    IsIndented examples ls before.length (renderRows rs) where
  length_eq := by
    have hlength := congrArg List.length hrows
    have hmeasured := congrArg List.length (fst_measured rs)
    simp only [List.length_map, List.length_append, rowsOf] at hlength hmeasured
    rw [inkLines_renderRows hread, List.length_map]
    omega
  exists_content := by
    intro k l hl
    obtain ⟨r, w, hmeasured, hr, hdepth, htext⟩ := exists_measured_behind hrows hl
    refine ⟨r.content w, ?_, beginsSolid_content w (hread r hr), ?_⟩
    · rw [inkLines_renderRows hread, List.getElem?_map, hmeasured, Option.map_some, Row.line,
        hdepth, hnests.depth_eq_blocksAround hl]
    · rw [ink_content w (hread r hr), htext, Text.ink_trim]

private theorem exists_layout (examples : Bool) {package? : Option String}
    (hpackage : isPlainPackage package?) {root : RootFields} {named : List NamedObject}
    {rootName : String} (h : IsWrittenFile root named rootName) :
    ∃ text rs before,
      text = Text.unlines (headTexts package? (imports root.fields named) ++
        fileTexts examples root named rootName) ∧
      rows text = .ok rs ∧
      (inkLines text).drop before = (fileLines root named rootName).map (Line.text examples) ∧
      IsIndented examples (fileLines root named rootName) before (renderRows rs) := by
  have hcode := isCode_of_mem_fileLines h
  have hfeed := lineFeed_notMem_fileTexts examples hcode
  -- The head leads from no block back to none, so the lines of the file are read behind it.
  have himports : ∀ i ∈ imports root.fields named, i = "net" ∨ i = "time" :=
    fun _ => eq_of_mem_imports
  obtain ⟨⟨heads, hheads⟩, hheadFeed⟩ := crosses_headTexts hpackage himports
  obtain ⟨rs, hrows, hmap⟩ := (hheads.append (leads_fileTexts examples h)).rows fun t ht =>
    (List.mem_append.mp ht).elim (hheadFeed t) (hfeed t)
  have hindented := isIndented_renderRows (nests_fileLines root named rootName)
    (isRead_of_mem_rows hrows) hmap
  refine ⟨_, rs, heads.length, rfl, hrows, ?_, hindented⟩
  have hlength := congrArg List.length (text_rows hrows)
  have hlength' := congrArg List.length hmap
  rw [inkLines_unlines_append hheadFeed hfeed, inkLines_fileTexts examples hcode] at hlength ⊢
  simp only [List.length_map, List.length_append, rowsOf] at hlength hlength'
  have hhead : heads.length = (inkLines (Text.unlines
      (headTexts package? (imports root.fields named)))).length := by
    omega
  rw [hhead, List.drop_left]

/-- A file of structs can be laid out, whatever the document, and each line of its declarations
stands behind the lines of the head with one tab for each struct around it and the characters that
were written.  Each field of the model has its tag on one of these lines. -/
theorem generateFromValue_indentation {options : GenerateOptions}
    (hpackage : isPlainPackage options.package?) {v : Json.Value} {model : Model}
    (h : infer { refineStrings := options.refineStrings } v = .ok model) :
    ∃ root ls text out before, model.root.rootFields = .ok root ∧
      ls = fileLines root model.named (Ident.root options.rootName?) ∧
      (taggedFields ls).Perm model.root.deepFields ∧
      source options.style model (Ident.root options.rootName?) = .ok (String.ofList text) ∧
      layout text = .ok out ∧
      generateFromValue v .go options =
        .ok (String.ofList (if options.format then out else text)) ∧
      (inkLines text).drop before = ls.map (Line.text options.withExamples) ∧
      IsIndented options.withExamples ls before out := by
  obtain ⟨root, hroot⟩ := infer_rootFields h
  have hwritten := isWrittenFile_of_infer rfl h hroot options.rootName?
  obtain ⟨text, rs, before, htext, hrows, hlines, hindented⟩ :=
    exists_layout options.withExamples hpackage hwritten
  have hsource : source options.style model (Ident.root options.rootName?) =
      .ok (String.ofList text) := by
    rw [source_eq_unlines options.style hroot, htext]
    rfl
  have hlayout : layout text = .ok (renderRows rs) := by
    rw [layout, hrows]
    rfl
  have hgenerate : generateFromValue v .go options =
      emit options.style model (Ident.root options.rootName?) := by
    rw [generateFromValue]
    change (infer { refineStrings := options.refineStrings } v >>= _) = _
    rw [h]
    rfl
  have hperm := perm_taggedFields_fileLines hroot (Ident.root options.rootName?)
  rw [← infer_named_eq h hroot] at hperm
  exact ⟨root, _, text, renderRows rs, before, hroot, rfl, hperm, hsource, hlayout,
    hgenerate.trans (emit_eq hsource hrows), hlines, hindented⟩

/-- A document with an object in a field, whose keys and text hold brackets, quotes, backticks and
slashes. -/
def bracketsDocument : Json.Value :=
  .object [("a`\x7b", .object [("b\"(", .string "\x7d // ` \\\x7b")])]

/-- Behind a package clause, the field inside the object stands two tabs deep and the end of the
object one. -/
theorem generateFromValue_indentation_brackets :
    ∃ out before inner closing,
      generateFromValue bracketsDocument .go { package? := some "my_config1" } =
        .ok (String.ofList out) ∧
      (inkLines out)[before + 2]? = some ('\t' :: '\t' :: inner) ∧ Text.BeginsSolid inner ∧
      (inkLines out)[before + 3]? = some ('\t' :: closing) ∧ Text.BeginsSolid closing := by
  have hpackage : isPlainPackage (GenerateOptions.package? { package? := some "my_config1" }) := by
    decide +kernel
  obtain ⟨root, ls, text, out, before, hroot, rfl, -, -, -, hout, -, hindented⟩ :=
    generateFromValue_indentation (v := bracketsDocument) hpackage rfl
  obtain rfl := Except.ok.inj hroot
  obtain ⟨inner, hinner, hsolid, -⟩ := hindented.exists_content 2 _ rfl
  obtain ⟨closing, hclosing, hsolid', -⟩ := hindented.exists_content 3 _ rfl
  exact ⟨out, before, inner, closing, hout, hinner, hsolid, hclosing, hsolid'⟩

end Exemplar
