import Exemplar.Proofs.Json.NumberText
import Exemplar.Proofs.Struct.Lines
import Exemplar.Proofs.Struct.Scan

/-!
# The code of lines

What stands on a line before its comment.  The main statement: whatever the key and the example of
a field hold, the code of its line ends with its tag, so it is the line without the example, and a
line opens or closes a block by its code alone.
-/

namespace Exemplar.Struct

/-- Whether a text is code on one line without quotes and slashes, neither blank nor with blanks
at its end. -/
structure IsCode (cs : List Char) : Prop where
  unquoted : ∀ c ∈ cs, c ≠ '/' ∧ c ≠ '"' ∧ c ≠ tick ∧ c ≠ '\n'
  trimmed : Text.trimEnd cs = cs
  ne_blank : Text.trimStart cs ≠ []

/-- Whether text is free of slashes, quotes, backticks and line feeds is a test of its
characters. -/
theorem unquoted_of_all {cs : List Char}
    (h : (cs.all fun c => c != '/' && c != '"' && c != tick && c != '\n') = true) :
    ∀ c ∈ cs, c ≠ '/' ∧ c ≠ '"' ∧ c ≠ tick ∧ c ≠ '\n' := by
  simpa [List.all_eq_true, and_assoc] using h

/-! ## Comments -/

private theorem ne_lineBreak_of_all {cs : List Char}
    (h : (cs.all fun c => c != '\n' && c != '\r') = true) : ∀ c ∈ cs, c ≠ '\n' ∧ c ≠ '\r' := by
  simpa [List.all_eq_true] using h

private theorem ne_lineBreak_of_mem_scalarExample {v : Json.Value} {text : List Char}
    (h : scalarExample? v = some text) {c : Char} (hc : c ∈ text) : c ≠ '\n' ∧ c ≠ '\r' := by
  match v with
  | .string s =>
    rw [scalarExample?] at h
    split at h
    · cases h
    · obtain rfl := Option.some.inj h
      obtain ⟨d, -, hc⟩ := List.mem_flatMap.mp hc
      rw [exampleChar] at hc
      split at hc
      · exact ne_lineBreak_of_all rfl c hc
      · split at hc
        · exact ne_lineBreak_of_all rfl c hc
        · next hreturn hfeed =>
          obtain rfl := List.mem_singleton.mp hc
          exact ⟨hfeed, hreturn⟩
  | .number n =>
    obtain rfl := Option.some.inj h
    have hnumeral := n.isNumeralChar_of_mem_render hc
    constructor
    · rintro rfl
      exact absurd hnumeral (by decide)
    · rintro rfl
      exact absurd hnumeral (by decide)
  | .bool true | .bool false =>
    obtain rfl := Option.some.inj h
    exact ne_lineBreak_of_all rfl c hc
  | .null | .array _ | .object _ => cases h

private theorem ne_lineBreak_of_mem_example {f : Field} {text : List Char}
    (h : example? f = some text) {c : Char} (hc : c ∈ text) : c ≠ '\n' ∧ c ≠ '\r' := by
  rw [example?] at h
  split at h
  · cases h
  · cases h
  · exact ne_lineBreak_of_mem_scalarExample h hc
  · exact ne_lineBreak_of_mem_scalarExample h hc

private theorem comment_cases (examples : Bool) (f : Field) :
    comment examples f = [] ∨
      ∃ text, example? f = some text ∧ comment examples f = [' ', '/', '/', ' '] ++ text := by
  rw [comment]
  split
  · next text h =>
    split at h
    · exact .inr ⟨text, h, rfl⟩
    · cases h
  · exact .inl rfl

private theorem ne_lineBreak_of_mem_comment {examples : Bool} {f : Field} {c : Char}
    (h : c ∈ comment examples f) : c ≠ '\n' ∧ c ≠ '\r' := by
  rcases comment_cases examples f with hcomment | ⟨text, htext, hcomment⟩
  · rw [hcomment] at h
    cases h
  · rw [hcomment] at h
    rcases List.mem_append.mp h with h | h
    · exact ne_lineBreak_of_all rfl c h
    · exact ne_lineBreak_of_mem_example htext h

private theorem trimEnd_comment (examples : Bool) (f : Field) :
    Text.trimEnd (comment examples f) = [] ∨
      ∃ rest, Text.trimEnd (comment examples f) = ' ' :: '/' :: '/' :: rest := by
  rcases comment_cases examples f with hcomment | ⟨text, -, hcomment⟩
  · exact .inl (by rw [hcomment]; rfl)
  · right
    refine ⟨Text.trimEnd (' ' :: text), ?_⟩
    rw [hcomment]
    change Text.trimEnd ([' ', '/', '/'] ++ ' ' :: text) = _
    rw [Text.trimEnd_append]
    split
    · next h => rw [h]; rfl
    · rfl

/-! ## Lines without the blanks at their ends -/

variable {examples : Bool} {l : Line}

private theorem trim_text_of_none (h : IsCode l.code) (hfield : l.field? = none) :
    Text.trim (l.text examples) = Text.trimStart l.code := by
  rw [Line.text, hfield]
  exact Text.trim_of_trimEnd_eq h.trimmed

private theorem trimEnd_append_tag (cs key : List Char) (quoted : Bool) :
    Text.trimEnd (cs ++ ' ' :: tag key quoted) = cs ++ ' ' :: tag key quoted := by
  obtain ⟨delimiter, body, htag, hdelimiter⟩ := exists_tag_eq key quoted
  have hconcat :=
    Text.trimEnd_concat (not_isBlank_delimiter hdelimiter) (cs ++ ' ' :: delimiter :: body)
  rw [htag]
  simpa only [List.append_assoc, List.cons_append] using hconcat

/-- A line with a tag is its code, the tag and the comment, each without the blanks around it. -/
theorem trim_text_of_some (h : IsCode l.code) {f : Field} (hfield : l.field? = some f) :
    Text.trim (l.text examples) = Text.trimStart l.code ++
      ' ' :: (tag f.key.toList f.quoted ++ Text.trimEnd (comment examples f)) := by
  have hend := trimEnd_append_tag (Text.trimStart l.code) f.key.toList f.quoted
  rw [Line.text, hfield, Text.trim, Text.trimStart_append, if_neg h.ne_blank]
  rw [← List.cons_append, ← List.append_assoc, Text.trimEnd_append]
  split
  · next hcomment => rw [hend, hcomment, List.append_nil]
  · rw [List.append_assoc, List.cons_append]

/-! ## Code -/

private theorem IsCode.scans {cs ds : List Char} (h : IsCode cs) (hsub : ds ⊆ cs) :
    Scans none ds none := by
  refine .of_code fun c hc => ?_
  obtain ⟨hslash, hquote, htick, -⟩ := h.unquoted c (hsub hc)
  exact ⟨hslash, hquote, htick⟩

private theorem IsCode.scans_trimStart {cs : List Char} (h : IsCode cs) :
    Scans none (Text.trimStart cs) none :=
  h.scans (List.dropWhile_sublist _).subset

private theorem codePart_append_tag {cs : List Char} (hcs : Scans none cs none) (key : List Char)
    (quoted : Bool) {rest : List Char}
    (hrest : rest = [] ∨ ∃ rest', rest = ' ' :: '/' :: '/' :: rest') :
    codePart (cs ++ ' ' :: (tag key quoted ++ rest)) = cs ++ ' ' :: tag key quoted := by
  have hblank : Scans none [' '] none := .code (c := ' ') (by decide)
  have hscans : Scans none (cs ++ ' ' :: tag key quoted) none :=
    hcs.append (hblank.append (scans_tag key quoted))
  rcases hrest with rfl | ⟨rest', rfl⟩
  · rw [List.append_nil]
    exact codePart_of_scans hscans
  · have hcode := codePart_comment (hscans.append hblank) rest'
    rw [Text.trimEnd_append, if_pos (by rfl), trimEnd_append_tag] at hcode
    rw [← hcode]
    simp only [List.append_assoc, List.cons_append, List.nil_append]

private theorem codePart_text_of_none (h : IsCode l.code) (hfield : l.field? = none) :
    codePart (Text.trim (l.text examples)) = Text.trimStart l.code := by
  rw [trim_text_of_none h hfield]
  exact codePart_of_scans h.scans_trimStart

private theorem codePart_text_of_some (h : IsCode l.code) {f : Field} (hfield : l.field? = some f) :
    codePart (Text.trim (l.text examples)) =
      Text.trimStart l.code ++ ' ' :: tag f.key.toList f.quoted := by
  rw [trim_text_of_some h hfield]
  exact codePart_append_tag h.scans_trimStart _ _ (trimEnd_comment examples f)

/-- The code of a line is the line without its example. -/
theorem codePart_text (h : IsCode l.code) : codePart (l.text examples) = l.text false := by
  rw [Line.text, Line.text]
  split
  · exact codePart_of_scans (h.scans (List.Subset.refl _))
  · next f _ =>
    have hnone : comment false f = [] := rfl
    have hcomment : comment examples f = [] ∨
        ∃ rest, comment examples f = ' ' :: '/' :: '/' :: rest := by
      rcases comment_cases examples f with hnil | ⟨text, -, htext⟩
      · exact .inl hnil
      · exact .inr ⟨' ' :: text, htext⟩
    rw [hnone, List.append_nil]
    exact codePart_append_tag (h.scans (List.Subset.refl _)) _ _ hcomment

/-- Behind the code of a line stands nothing, or an example behind two slashes. -/
theorem text_cases (h : IsCode l.code) :
    l.text examples = codePart (l.text examples) ∨
      ∃ text, l.text examples = codePart (l.text examples) ++ [' ', '/', '/', ' '] ++ text := by
  rw [codePart_text h, Line.text, Line.text]
  cases l.field? with
  | none => exact .inl rfl
  | some f =>
    have hnone : comment false f = [] := rfl
    dsimp only
    rw [hnone, List.append_nil]
    rcases comment_cases examples f with hcomment | ⟨text, -, hcomment⟩
    · exact .inl (by rw [hcomment, List.append_nil])
    · right
      refine ⟨text, ?_⟩
      rw [hcomment]
      simp only [List.append_assoc, List.cons_append]

/-- A line closes a block by its code alone. -/
theorem closes_codePart_text (h : IsCode l.code) :
    closes (codePart (Text.trim (l.text examples))) = closes (Text.trimStart l.code) := by
  cases hfield : l.field? with
  | none => rw [codePart_text_of_none h hfield]
  | some f =>
    rw [codePart_text_of_some h hfield]
    cases hcode : Text.trimStart l.code with
    | nil => exact absurd hcode h.ne_blank
    | cons c cs => rfl

/-- A line opens a block by its code alone, and no line with a tag does. -/
theorem opens_codePart_text (h : IsCode l.code) :
    opens (codePart (Text.trim (l.text examples))) =
      (l.field?.isNone && opens (Text.trimStart l.code)) := by
  cases hfield : l.field? with
  | none => rw [codePart_text_of_none h hfield]; rfl
  | some f =>
    obtain ⟨delimiter, body, htag, hdelimiter⟩ := exists_tag_eq f.key.toList f.quoted
    have hlast : (Text.trimStart l.code ++ ' ' :: tag f.key.toList f.quoted).getLast? =
        some delimiter := by
      rw [htag, ← List.cons_append, ← List.cons_append, ← List.append_assoc, List.getLast?_concat]
    rw [codePart_text_of_some h hfield, opens, hlast]
    rcases hdelimiter with rfl | rfl <;> rfl

/-- The line of code without blanks around it is not empty. -/
theorem trim_text_ne_nil (h : IsCode l.code) : Text.trim (l.text examples) ≠ [] := by
  cases hfield : l.field? with
  | none =>
    rw [trim_text_of_none h hfield]
    exact h.ne_blank
  | some f =>
    rw [trim_text_of_some h hfield]
    exact List.append_ne_nil_of_right_ne_nil _ (List.cons_ne_nil _ _)

/-- A line holds no line feed. -/
theorem lineFeed_notMem_text (h : IsCode l.code) : '\n' ∉ l.text examples := by
  have hcode : '\n' ∉ l.code := fun hfeed => (h.unquoted _ hfeed).2.2.2 rfl
  rw [Line.text]
  split
  · exact hcode
  · next f _ =>
    simp only [List.mem_append, List.mem_cons]
    rintro (hfeed | hfeed | hfeed | hfeed)
    · exact hcode hfeed
    · exact absurd hfeed (by decide)
    · exact lineFeed_notMem_tag _ _ hfeed
    · exact (ne_lineBreak_of_mem_comment hfeed).1 rfl

/-- A line does not end with a carriage return. -/
theorem getLast?_text_ne (h : IsCode l.code) : (l.text examples).getLast? ≠ some '\r' := by
  rw [Line.text]
  split
  · exact fun hreturn => absurd (Text.not_isBlank_of_getLast? h.trimmed hreturn) (by decide)
  · next f _ =>
    obtain ⟨delimiter, body, htag, -⟩ := exists_tag_eq f.key.toList f.quoted
    have hne : tag f.key.toList f.quoted ++ comment examples f ≠ [] := by
      rw [htag]
      exact List.cons_ne_nil _ _
    rw [← List.singleton_append, ← List.append_assoc, List.getLast?_append_of_ne_nil _ hne]
    intro hreturn
    rcases List.mem_append.mp (List.mem_of_getLast? hreturn) with hmem | hmem
    · exact absurd (not_isControl_of_mem_tag hmem) (by decide)
    · exact (ne_lineBreak_of_mem_comment hmem).2 rfl

end Exemplar.Struct
