import Exemplar.Generate
import Exemplar.Proofs.Struct.Rows

/-!
# Comments of generated structs

What the comments with the values of a document add to the structs that are generated for it.  The
main statement: with and without these comments there are the same lines, and the search for the
comment of a line finds in each of them the line that is generated without it, whatever the keys
and the values hold.
-/

namespace Exemplar

open Struct

/-- Whether a text without its comments is another one: there are as many lines in both, and the
code of each line is the line of the other text, with nothing or a comment behind it.  No line of
either ends with a carriage return, which would count with the line feed as the end of the line. -/
structure CommentsApart (shown bare : List Char) : Prop where
  length_eq : (Text.lines shown).length = (Text.lines bare).length
  codePart_eq : (Text.lines shown).map codePart = Text.lines bare
  comments : ∀ line ∈ Text.lines shown, line = codePart line ∨
    ∃ text, line = codePart line ++ [' ', '/', '/', ' '] ++ text
  ends : ∀ line ∈ Text.lines shown ++ Text.lines bare, line.getLast? ≠ some '\r'

private theorem getLast?_ne_of_mem_fileTexts {examples : Bool} {root : RootFields}
    {named : List NamedObject} {rootName : String}
    (h : ∀ l ∈ fileLines root named rootName, IsCode l.code) {text : List Char}
    (htext : text ∈ fileTexts examples root named rootName) : text.getLast? ≠ some '\r' := by
  rcases eq_nil_or_of_mem_fileTexts htext with rfl | ⟨l, hl, rfl⟩
  · exact fun hreturn => by cases hreturn
  · exact getLast?_text_ne (h l hl)

private theorem commentsApart_fileTexts {root : RootFields} {named : List NamedObject}
    {rootName : String} (h : ∀ l ∈ fileLines root named rootName, IsCode l.code) :
    CommentsApart (Text.unlines (fileTexts true root named rootName))
      (Text.unlines (fileTexts false root named rootName)) := by
  have hlines : ∀ examples, Text.lines (Text.unlines (fileTexts examples root named rootName)) =
      fileTexts examples root named rootName := fun examples =>
    Text.lines_unlines (lineFeed_notMem_fileTexts examples h)
  have hcode : (fileTexts true root named rootName).map codePart =
      fileTexts false root named rootName :=
    map_fileTexts rfl fun l hl => codePart_text (h l hl)
  refine ⟨?length, ?code, ?comments, ?ends⟩
  case length => rw [hlines, hlines, ← hcode, List.length_map]
  case code => rw [hlines, hlines, hcode]
  case comments =>
    intro line hline
    rw [hlines] at hline
    rcases eq_nil_or_of_mem_fileTexts hline with rfl | ⟨l, hl, rfl⟩
    · exact .inl rfl
    · exact text_cases (h l hl)
  case ends =>
    intro line hline
    rw [hlines, hlines] at hline
    rcases List.mem_append.mp hline with hline | hline
    · exact getLast?_ne_of_mem_fileTexts h hline
    · exact getLast?_ne_of_mem_fileTexts h hline

/-- The structs that are generated for a document with examples are those without them and the
comments, if neither is laid out nor has a head. -/
theorem generateFromValue_commentsApart {v : Json.Value} {options : GenerateOptions}
    {model : Model} (h : infer { refineStrings := options.refineStrings } v = .ok model) :
    ∃ shown bare,
      generateFromValue v .go
          { options with package? := none, format := false, withExamples := true } =
        .ok (String.ofList shown) ∧
      generateFromValue v .go
          { options with package? := none, format := false, withExamples := false } =
        .ok (String.ofList bare) ∧
      CommentsApart shown bare := by
  obtain ⟨root, hroot⟩ := infer_rootFields h
  have hwritten := isWrittenFile_of_infer rfl h hroot options.rootName?
  have hgenerate : ∀ examples, generateFromValue v .go
      { options with package? := none, format := false, withExamples := examples } =
        .ok (String.ofList (Text.unlines (fileTexts examples root model.named
          (Ident.root options.rootName?)))) := by
    intro examples
    rw [generateFromValue]
    change (infer { refineStrings := options.refineStrings } v >>= _) = _
    rw [h]
    change emit { withExamples := examples, format := false } model _ = _
    rw [emit_eq_source rfl, source_eq rfl hroot]
  exact ⟨_, _, hgenerate true, hgenerate false,
    commentsApart_fileTexts (isCode_of_mem_fileLines hwritten)⟩

/-- A document whose key and text hold slashes, quotes, backslashes, backticks and a line break. -/
def commentsDocument : Json.Value :=
  .object [("a` // \"b", .string "c` // \"d\\\r\n")]

/-- The search for comments finds the line of the field without its example, and the example is
what stands behind it. -/
theorem generateFromValue_commentsApart_slashes :
    ∃ shown bare,
      generateFromValue commentsDocument .go { format := false } = .ok (String.ofList shown) ∧
      generateFromValue commentsDocument .go { format := false, withExamples := false } =
        .ok (String.ofList bare) ∧
      (Text.lines shown).map codePart = Text.lines bare ∧
      (Text.lines shown)[1]? =
        some ("AB string \"json:\\\"a` // \\\\\\\"b\\\"\"".toList ++
          " // c` // \"d\\\\r\\n".toList) := by
  have hinfer : infer {} commentsDocument = .ok _ := rfl
  obtain ⟨shown, bare, hshown, hbare, hapart⟩ :=
    @generateFromValue_commentsApart commentsDocument {} _ hinfer
  have htext : generateFromValue commentsDocument .go { format := false } =
      .ok ("type Config struct \x7b\nAB string \"json:\\\"a` // \\\\\\\"b\\\"\" // c` // \"d" ++
        "\\\\r\\n\n\x7d\n") := by
    decide +kernel
  have hlist := congrArg String.toList (Except.ok.inj (hshown.symm.trans htext))
  rw [String.toList_ofList] at hlist
  refine ⟨shown, bare, hshown, hbare, hapart.codePart_eq, ?_⟩
  rw [hlist]
  decide +kernel

end Exemplar
