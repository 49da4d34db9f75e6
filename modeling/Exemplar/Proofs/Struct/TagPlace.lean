import Exemplar.Proofs.Struct.Columns

/-!
# The place of tags in laid out lines

What the layout does to the tag of a line.  A raw tag is a cell and stays as it is.  The backticks
of an interpreted tag may be taken for the ends of the cell; then the blanks before the first one,
and those behind the second if the tag holds it, are replaced by the spaces of the columns.  The
main statement: a tag is kept exactly if its key has no backtick, the line is not taken for cells,
or these blanks are the spaces that replace them.
-/

namespace Exemplar.Struct

/-! ## Texts with two backticks -/

/-- What stands behind the second backtick of a text, if there are two. -/
def afterTicks? (cs : List Char) : Option (List Char) :=
  match cs.dropWhile (· != tick) with
  | [] => none
  | _ :: inside =>
    match inside.dropWhile (· != tick) with
    | [] => none
    | _ :: after => some after

/-- The blanks that stand before the first backtick of a text. -/
def blanksBeforeTick (cs : List Char) : List Char :=
  Text.endBlanks (cs.takeWhile (· != tick))

/-- Whether the blanks that stand in a tag before its first backtick and behind its second are the
spaces that the layout writes there, if it takes the row for cells. -/
def Row.SpacesAtTicks (w : Widths) (r : Row) (tag : List Char) : Prop :=
  ∀ c, r.cells? = some c →
    blanksBeforeTick tag = List.replicate (w.type - c.type.length + 1) ' ' ∧
      ∀ behind, afterTicks? tag = some behind →
        Text.startBlanks behind = List.replicate (w.tag - c.tag.length + 1) ' '

variable {before body after : List Char}

private theorem afterTicks?_append (hbefore : tick ∉ before) (hbody : tick ∉ body)
    (after : List Char) :
    afterTicks? (before ++ tick :: (body ++ tick :: after)) = some after := by
  rw [afterTicks?, Text.dropWhile_ne_append hbefore]
  dsimp only
  rw [Text.dropWhile_ne_append hbody]

private theorem afterTicks?_of_once (hbefore : tick ∉ before) (hbody : tick ∉ body) :
    afterTicks? (before ++ tick :: body) = none := by
  rw [afterTicks?, Text.dropWhile_ne_append hbefore]
  dsimp only
  rw [Text.dropWhile_ne_eq_nil hbody]

private theorem blanksBeforeTick_append (hbefore : tick ∉ before) (body : List Char) :
    blanksBeforeTick (before ++ tick :: body) = Text.endBlanks before := by
  rw [blanksBeforeTick, Text.takeWhile_ne_append hbefore]

/-! ## The type of a line with an interpreted tag -/

private theorem exists_word (cs : List Char) :
    ∃ word others, cs = word ++ others ∧ (∀ c ∈ word, (!Text.isBlank c) = true) ∧
      ∀ rest, (others ++ ' ' :: rest).takeWhile (fun c => !Text.isBlank c) = [] := by
  refine ⟨cs.takeWhile fun c => !Text.isBlank c, cs.dropWhile fun c => !Text.isBlank c,
    List.takeWhile_append_dropWhile.symm, fun c hc => ?_, fun rest => ?_⟩
  · exact List.mem_takeWhile_imp (p := fun c => !Text.isBlank c) hc
  · have hhead := List.head?_dropWhile_not (fun c => !Text.isBlank c) cs
    cases hdrop : cs.dropWhile fun c => !Text.isBlank c with
    | nil => rfl
    | cons d ds =>
      rw [hdrop] at hhead
      rw [List.cons_append, List.takeWhile_cons_of_neg (by simpa using hhead)]

private theorem exists_typeOf_append {quoted : List Char} (hquoted : Text.BeginsSolid quoted)
    (code : List Char) :
    ∃ lead, typeOf (code ++ ' ' :: quoted) = lead ++ Text.trimEnd quoted ∧
      Text.ink (nameOf (code ++ ' ' :: quoted)) ++ Text.ink lead = Text.ink code := by
  obtain ⟨q, rest, rfl, hq⟩ := hquoted
  obtain ⟨word, others, rfl, hword, hothers⟩ := exists_word code
  have hquote := Text.trimEnd_cons hq rest
  have hend : Text.trimEnd (word ++ others ++ ' ' :: q :: rest) =
      word ++ (others ++ ' ' :: Text.trimEnd (q :: rest)) := by
    rw [← List.singleton_append, ← List.append_assoc, Text.trimEnd_append, hquote,
      if_neg (List.cons_ne_nil _ _), List.append_assoc, List.append_assoc, List.singleton_append]
  have hname : nameOf (word ++ others ++ ' ' :: q :: rest) = word := by
    rw [nameOf, hend, List.takeWhile_append_of_pos hword, hothers, List.append_nil]
  refine ⟨Text.trimStart (others ++ [' ']), ?_, ?_⟩
  · rw [typeOf, hname, hend, List.drop_left, ← List.singleton_append, ← List.append_assoc,
      Text.trim, Text.trimStart_append]
    split
    · next hblank =>
      rw [hblank, hquote, Text.trimStart_cons hq, ← hquote, Text.trimEnd_trimEnd]
      rfl
    · rw [Text.trimEnd_append, Text.trimEnd_trimEnd, hquote, if_neg (List.cons_ne_nil _ _)]
  · rw [hname, Text.ink_trimStart, Text.ink_append, Text.ink_append, ← List.append_assoc]
    exact List.append_nil _

/-! ## The tag of a line -/

section Line

variable {examples : Bool} {l : Line} {f : Field} {r : Row}

private theorem text_eq (hcode : IsCode l.code) (hfield : l.field? = some f)
    (htext : r.text = Text.trim (l.text examples)) :
    r.text = (Text.trimStart l.code ++ [' ']) ++
      (tag f.key.toList f.quoted ++ Text.trimEnd (comment examples f)) := by
  rw [htext, trim_text_of_some hcode hfield, List.append_assoc, List.singleton_append]

private theorem ink_lead (code : List Char) :
    Text.ink (Text.trimStart code ++ [' ']) = Text.ink code := by
  rw [Text.ink_append, Text.ink_trimStart]
  exact List.append_nil _

private theorem tick_notMem_lead (hcode : IsCode l.code) :
    tick ∉ Text.trimStart l.code ++ [' '] := by
  rw [List.mem_append]
  rintro (h | h)
  · exact (hcode.unquoted tick ((List.dropWhile_sublist _).mem h)).2.2.1 rfl
  · exact absurd h (by decide)

private theorem keepsAt_line_of_none (hcode : IsCode l.code) (hfield : l.field? = some f)
    (htext : r.text = Text.trim (l.text examples)) (hcells : r.cells? = none) (w : Widths) :
    Text.KeepsAt l.code (tag f.key.toList f.quoted) (comment examples f) (r.line w) := by
  refine ⟨List.replicate r.depth '\t' ++ (Text.trimStart l.code ++ [' ']),
    Text.trimEnd (comment examples f), ?_, ?_, Text.ink_trimEnd _⟩
  · rw [Row.line, Row.content, hcells]
    dsimp only
    rw [text_eq hcode hfield htext]
    simp only [List.append_assoc]
  · rw [Text.ink_append, Text.ink_replicate_of_blank (by decide), ink_lead]
    rfl

private theorem keepsAt_line_of_notMem (hcode : IsCode l.code) (hfield : l.field? = some f)
    (hread : r.IsRead) (htext : r.text = Text.trim (l.text examples))
    (hkey : tick ∉ f.key.toList) (w : Widths) :
    Text.KeepsAt l.code (tag f.key.toList f.quoted) (comment examples f) (r.line w) := by
  cases hcells : r.cells? with
  | none => exact keepsAt_line_of_none hcode hfield htext hcells w
  | some c =>
    obtain ⟨before, body, after, hcut, hbefore, hbody, -, -, rfl⟩ :=
      exists_of_cells? (hread.cells?_of_some hcells)
    have hvalue : tick ∉ tagValue f.key.toList f.quoted := by
      rw [tick_mem_tagValue_iff]
      exact hkey
    have hraw := tag_eq_raw hkey f.quoted
    have hsame : before ++ tick :: (body ++ tick :: after) =
        (Text.trimStart l.code ++ [' ']) ++ tick :: (tagValue f.key.toList f.quoted ++
          tick :: Text.trimEnd (comment examples f)) := by
      rw [← hcut, text_eq hcode hfield htext, hraw]
      simp only [List.append_assoc, List.cons_append, List.nil_append]
    obtain ⟨hlead, hinside⟩ := Text.cut_unique hbefore (tick_notMem_lead hcode) hsame
    obtain ⟨rfl, rfl⟩ := Text.cut_unique hbody hvalue hinside
    have hspace : Text.isBlank ' ' = true := by decide
    have hafter := ink_comment_cellsOf before (tagValue f.key.toList f.quoted)
      (Text.trimEnd (comment examples f))
    rw [Text.ink_trimEnd] at hafter
    refine ⟨List.replicate r.depth '\t' ++ (pad w.name (nameOf before) ++ ' ' ::
      (typeOf before ++ List.replicate (w.type - (typeOf before).length + 1) ' ')), _, ?_, ?_,
      (ink_behind w _).trans hafter⟩
    · rw [Row.line, content_of_some hcells, hraw]
      simp only [cellsOf, List.append_assoc, List.cons_append]
    · rw [Text.ink_append, Text.ink_replicate_of_blank (by decide), List.nil_append,
        Text.ink_append, ink_pad, Text.ink_cons_of_blank hspace, Text.ink_append,
        Text.ink_replicate_of_blank hspace, List.append_nil, ink_nameOf_append_typeOf, hlead,
        ink_lead]

private theorem exists_tag_cut {key : List Char} (hkey : tick ∈ key) (quoted : Bool) :
    ∃ quote rest, tag key quoted = quote ++ tick :: (rest ++ ['"']) ∧ tick ∉ quote ∧
      Text.BeginsSolid quote := by
  have htag := tag_eq_interpreted hkey quoted
  have hmem : tick ∈ '"' :: escape (tagValue key quoted) := by
    rw [List.mem_cons, tick_mem_escape_iff, tick_mem_tagValue_iff]
    exact .inr hkey
  obtain ⟨quote, rest, hcut, hquote⟩ := Text.exists_cut hmem
  rw [← List.cons_append, hcut, List.append_assoc, List.cons_append] at htag
  refine ⟨quote, rest, htag, hquote, ?_⟩
  cases quote with
  | nil => exact absurd (List.cons.inj hcut).1 (by decide)
  | cons c quote =>
    obtain ⟨rfl, -⟩ := List.cons.inj hcut
    exact ⟨_, _, rfl, by decide⟩

private theorem text_eq_of_cut (hcode : IsCode l.code) (hfield : l.field? = some f)
    (htext : r.text = Text.trim (l.text examples)) {quote inside : List Char}
    (htag : tag f.key.toList f.quoted = quote ++ tick :: (inside ++ ['"'])) :
    r.text = (Text.trimStart l.code ++ ' ' :: quote) ++
      tick :: ((inside ++ ['"']) ++ Text.trimEnd (comment examples f)) := by
  rw [text_eq hcode hfield htext, htag]
  simp only [List.append_assoc, List.cons_append, List.nil_append]

private theorem tick_notMem_lead_append (hcode : IsCode l.code) {quote : List Char}
    (hquote : tick ∉ quote) : tick ∉ Text.trimStart l.code ++ ' ' :: quote := by
  rw [← List.singleton_append, ← List.append_assoc, List.mem_append]
  exact fun h => h.elim (tick_notMem_lead hcode) hquote

/-- The parts of a line with an interpreted tag that has cells: what the type holds before the tag,
the tag before and behind its first backtick, and the text between the two backticks of the cells
and behind them. -/
structure TagCut (examples : Bool) (l : Line) (f : Field) (c : Cells)
    (lead quote inside body after : List Char) : Prop where
  tag_eq : tag f.key.toList f.quoted = quote ++ tick :: (inside ++ ['"'])
  beginsSolid : Text.BeginsSolid quote
  tick_notMem_quote : tick ∉ quote
  tick_notMem_body : tick ∉ body
  ink_front : Text.ink c.name ++ Text.ink lead = Text.ink l.code
  type_eq : c.type = lead ++ Text.trimEnd quote
  cell_eq : c.tag = tick :: (body ++ [tick])
  comment?_eq : c.comment? = if Text.trim after = [] then none else some (Text.trim after)
  ink_comment : Text.ink (c.comment?.getD []) = Text.ink after
  behind_eq : body ++ tick :: after = (inside ++ ['"']) ++ Text.trimEnd (comment examples f)

private theorem exists_tagCut (hcode : IsCode l.code) (hfield : l.field? = some f)
    (hread : r.IsRead)
    (htext : r.text = Text.trim (l.text examples)) (hkey : tick ∈ f.key.toList) {c : Cells}
    (hcells : r.cells? = some c) :
    ∃ lead quote inside body after, TagCut examples l f c lead quote inside body after := by
  obtain ⟨before, body, after, hcut, hbefore, hbody, -, -, hc⟩ :=
    exists_of_cells? (hread.cells?_of_some hcells)
  obtain ⟨quote, inside, htag, hquote, hbegins⟩ := exists_tag_cut hkey f.quoted
  have hsame := hcut.symm.trans (text_eq_of_cut hcode hfield htext htag)
  obtain ⟨rfl, hbehind⟩ := Text.cut_unique hbefore (tick_notMem_lead_append hcode hquote) hsame
  obtain ⟨lead, htype, hink⟩ := exists_typeOf_append hbegins (Text.trimStart l.code)
  rw [Text.ink_trimStart] at hink
  subst hc
  exact ⟨lead, quote, inside, body, after, {
    tag_eq := htag
    beginsSolid := hbegins
    tick_notMem_quote := hquote
    tick_notMem_body := hbody
    ink_front := hink
    type_eq := htype
    cell_eq := rfl
    comment?_eq := rfl
    ink_comment := ink_comment_cellsOf _ body after
    behind_eq := hbehind }⟩

private theorem tick_notMem_of_blank {cs : List Char} (h : ∀ c ∈ cs, Text.isBlank c = true) :
    tick ∉ cs := fun hmem => absurd (h tick hmem) (by decide)

private theorem tick_notMem_spaces (n : Nat) : tick ∉ List.replicate n ' ' :=
  tick_notMem_of_blank fun c hc => by
    rw [List.eq_of_mem_replicate hc]
    decide

namespace TagCut

variable {c : Cells} {lead quote inside body after : List Char}

private theorem ink_before (h : TagCut examples l f c lead quote inside body after)
    (depth w : Nat) :
    Text.ink (List.replicate depth '\t' ++ (pad w c.name ++ ' ' :: lead)) = Text.ink l.code := by
  rw [Text.ink_append, Text.ink_replicate_of_blank (by decide), List.nil_append,
    Text.ink_append, ink_pad, Text.ink_cons_of_blank (by decide)]
  exact h.ink_front

private theorem line_eq (h : TagCut examples l f c lead quote inside body after)
    (hcells : r.cells? = some c) {w : Widths} {kept rest : List Char}
    (hsplit : c.tag ++ c.behind w = kept ++ rest) :
    r.line w = (List.replicate r.depth '\t' ++ (pad w.name c.name ++ ' ' :: lead)) ++
      (Text.trimEnd quote ++
        (List.replicate (w.type - c.type.length + 1) ' ' ++ kept) ++ rest) := by
  rw [Row.line, content_of_some hcells, hsplit]
  conv_lhs => rw [h.type_eq]
  simp only [h.type_eq, List.append_assoc, List.cons_append]

private theorem behind_eq_of_inside {behind : List Char}
    (h : TagCut examples l f c lead quote (body ++ tick :: behind) body after) (w : Widths) :
    c.behind w = List.replicate (w.tag - c.tag.length + 1) ' ' ++
      (Text.trimStart (behind ++ ['"']) ++ Text.trimEnd (comment examples f)) := by
  have hends : Text.EndsSolid (behind ++ ['"']) := ⟨behind, '"', rfl, by decide⟩
  have hafter : after = (behind ++ ['"']) ++ Text.trimEnd (comment examples f) := by
    have hbehind := h.behind_eq
    simp only [List.append_assoc, List.cons_append] at hbehind ⊢
    exact (List.cons.inj (List.append_cancel_left hbehind)).2
  have htrim := hends.trim_append (comment examples f)
  have hne : Text.trim after ≠ [] := by
    obtain ⟨rest, d, hrest, -⟩ := hends.trimStart
    rw [hafter, htrim, hrest]
    simp
  rw [Cells.behind, h.comment?_eq, if_neg hne, hafter, htrim]

private theorem keepsAt_iff_of_inside {behind : List Char}
    (h : TagCut examples l f c lead quote (body ++ tick :: behind) body after)
    (hcells : r.cells? = some c) (w : Widths) :
    Text.KeepsAt l.code (tag f.key.toList f.quoted) (comment examples f) (r.line w) ↔
      Text.endBlanks quote = List.replicate (w.type - c.type.length + 1) ' ' ∧
        Text.startBlanks (behind ++ ['"']) =
          List.replicate (w.tag - c.tag.length + 1) ' ' := by
  have hends : Text.EndsSolid (behind ++ ['"']) := ⟨behind, '"', rfl, by decide⟩
  have hsplit : c.tag ++ c.behind w =
      tick :: (body ++ tick :: (List.replicate (w.tag - c.tag.length + 1) ' ' ++
        Text.trimStart (behind ++ ['"']))) ++ Text.trimEnd (comment examples f) := by
    rw [h.behind_eq_of_inside w]
    conv_lhs => rw [h.cell_eq]
    simp only [h.cell_eq, List.append_assoc, List.cons_append, List.nil_append]
  have hinner : body ++ tick :: behind ++ ['"'] = body ++ tick :: (behind ++ ['"']) := by
    rw [List.append_assoc, List.cons_append]
  have hsolid : Text.EndsSolid (tick :: (body ++ tick :: (behind ++ ['"']))) := by
    rw [← List.cons_append, ← List.singleton_append (l := behind ++ _), ← List.append_assoc]
    exact hends.append _
  have hspaced : Text.EndsSolid (tick :: (body ++ tick ::
      (List.replicate (w.tag - c.tag.length + 1) ' ' ++ Text.trimStart (behind ++ ['"'])))) := by
    rw [← List.cons_append, ← List.singleton_append (l := _ ++ _), ← List.append_assoc,
      ← List.append_assoc]
    exact hends.trimStart.append _
  have hblanks := Text.startBlanks_append_trimStart (behind ++ ['"'])
  rw [h.tag_eq, hinner, h.line_eq hcells hsplit, Text.keepsAt_gap_iff h.beginsSolid hsolid hspaced
    (h.ink_before r.depth w.name) (Text.ink_trimEnd _)]
  constructor
  · intro hsame
    have hends : tick ∉ Text.endBlanks quote :=
      tick_notMem_of_blank fun _ => Text.isBlank_of_mem_endBlanks
    obtain ⟨hfirst, hrest⟩ := Text.cut_unique hends (tick_notMem_spaces _) hsame
    have hgaps := (List.cons.inj (List.append_cancel_left hrest)).2
    exact ⟨hfirst, List.append_cancel_right (hblanks.trans hgaps)⟩
  · rintro ⟨hfirst, hrest⟩
    rw [hfirst, ← hrest, hblanks]

private theorem keepsAt_iff_of_notMem
    (h : TagCut examples l f c lead quote inside body after) (hinside : tick ∉ inside ++ ['"'])
    (hcells : r.cells? = some c) (w : Widths) :
    Text.KeepsAt l.code (tag f.key.toList f.quoted) (comment examples f) (r.line w) ↔
      Text.endBlanks quote = List.replicate (w.type - c.type.length + 1) ' ' := by
  have htick : Text.isBlank tick = false := by decide
  have hmem : tick ∈ Text.trimEnd (comment examples f) := by
    have hbehind : tick ∈ (inside ++ ['"']) ++ Text.trimEnd (comment examples f) := by
      rw [← h.behind_eq]
      simp
    exact (List.mem_append.mp hbehind).resolve_left hinside
  obtain ⟨start, rest, hstart, hnotMem⟩ := Text.exists_cut hmem
  have hbehind := h.behind_eq
  rw [hstart, ← List.append_assoc] at hbehind
  obtain ⟨hbody, hafter⟩ := Text.cut_unique h.tick_notMem_body
    (by rw [List.mem_append]; exact fun h => h.elim hinside hnotMem) hbehind
  have hrest : Text.ink (start ++ tick :: c.behind w) = Text.ink (comment examples f) := by
    rw [← Text.ink_trimEnd (comment examples f), hstart, Text.ink_append, Text.ink_append,
      Text.ink_cons_of_not_blank htick, Text.ink_cons_of_not_blank htick, ink_behind,
      h.ink_comment, hafter]
  have hsplit : c.tag ++ c.behind w =
      tick :: (inside ++ ['"']) ++ (start ++ tick :: c.behind w) := by
    rw [h.cell_eq, hbody]
    simp only [List.append_assoc, List.cons_append, List.nil_append]
  have hsolid : Text.EndsSolid (tick :: (inside ++ ['"'])) :=
    ⟨tick :: inside, '"', rfl, by decide⟩
  rw [h.tag_eq, h.line_eq hcells hsplit, Text.keepsAt_gap_iff h.beginsSolid hsolid hsolid
    (h.ink_before r.depth w.name) hrest, List.append_left_inj]

private theorem keepsAt_iff (h : TagCut examples l f c lead quote inside body after)
    (hcells : r.cells? = some c) (w : Widths) :
    Text.KeepsAt l.code (tag f.key.toList f.quoted) (comment examples f) (r.line w) ↔
      r.SpacesAtTicks w (tag f.key.toList f.quoted) := by
  have hspaces : r.SpacesAtTicks w (tag f.key.toList f.quoted) ↔
      Text.endBlanks quote = List.replicate (w.type - c.type.length + 1) ' ' ∧
        ∀ behind, afterTicks? (tag f.key.toList f.quoted) = some behind →
          Text.startBlanks behind = List.replicate (w.tag - c.tag.length + 1) ' ' := by
    rw [Row.SpacesAtTicks, hcells, h.tag_eq, blanksBeforeTick_append h.tick_notMem_quote]
    simp only [Option.some.injEq, forall_eq']
  rw [hspaces]
  by_cases hsecond : tick ∈ inside
  · -- Both backticks stand in the tag, and the gap behind the second is written anew as well.
    obtain ⟨start, behind, rfl, hstart⟩ := Text.exists_cut hsecond
    have hbehind := h.behind_eq
    simp only [List.append_assoc, List.cons_append] at hbehind
    obtain ⟨rfl, -⟩ := Text.cut_unique h.tick_notMem_body hstart hbehind
    have hticks : afterTicks? (tag f.key.toList f.quoted) = some (behind ++ ['"']) := by
      rw [h.tag_eq, List.append_assoc, List.cons_append]
      exact afterTicks?_append h.tick_notMem_quote hstart _
    rw [h.keepsAt_iff_of_inside hcells w, hticks]
    simp only [Option.some.injEq, forall_eq']
  · -- The second backtick stands in the comment, and only the gap before the first is in the tag.
    have hinside : tick ∉ inside ++ ['"'] := by
      rw [List.mem_append]
      exact fun h => h.elim hsecond (by decide)
    have hticks : afterTicks? (tag f.key.toList f.quoted) = none := by
      rw [h.tag_eq]
      exact afterTicks?_of_once h.tick_notMem_quote hinside
    rw [h.keepsAt_iff_of_notMem hinside hcells w, hticks]
    exact (and_iff_left fun _ h => by cases h).symm

end TagCut

/-- The tag of a line is kept exactly if it is raw, or the line has no cells, or the blanks at its
backticks are the spaces that the layout writes there. -/
theorem keepsAt_line_iff (hcode : IsCode l.code) (hfield : l.field? = some f)
    (hread : r.IsRead) (htext : r.text = Text.trim (l.text examples)) (w : Widths) :
    Text.KeepsAt l.code (tag f.key.toList f.quoted) (comment examples f) (r.line w) ↔
      (tick ∈ f.key.toList → r.SpacesAtTicks w (tag f.key.toList f.quoted)) := by
  by_cases hkey : tick ∈ f.key.toList
  · rw [imp_iff_right hkey]
    cases hcells : r.cells? with
    | none =>
      refine iff_of_true (keepsAt_line_of_none hcode hfield htext hcells w) fun c hc => ?_
      rw [hcells] at hc
      cases hc
    | some c =>
      obtain ⟨lead, quote, inside, body, after, hcut⟩ :=
        exists_tagCut hcode hfield hread htext hkey hcells
      exact hcut.keepsAt_iff hcells w
  · exact iff_of_true (keepsAt_line_of_notMem hcode hfield hread htext hkey w)
      fun h => absurd h hkey

/-! ## Lines with an interpreted tag that have cells -/

private theorem exists_afterTicks?_iff {quote rest blanks : List Char} (hquote : tick ∉ quote)
    (hblanks : ∀ c ∈ blanks, Text.isBlank c = true) :
    (∃ after, afterTicks? (quote ++ tick :: (rest ++ blanks)) = some after ∧ EndsRow after) ↔
      ∃ body after, rest = body ++ tick :: after ∧ tick ∉ body ∧ EndsRow after := by
  have hends : ∀ after, EndsRow (after ++ blanks) ↔ EndsRow after := by
    intro after
    rw [EndsRow, EndsRow, Text.trim_append_of_blank after hblanks]
  by_cases hrest : tick ∈ rest
  · obtain ⟨body, after, rfl, hbody⟩ := Text.exists_cut hrest
    rw [List.append_assoc, List.cons_append, afterTicks?_append hquote hbody]
    constructor
    · rintro ⟨after', hafter, h⟩
      obtain rfl := Option.some.inj hafter
      exact ⟨body, after, rfl, hbody, (hends after).mp h⟩
    · rintro ⟨body', after', hcut, hbody', h⟩
      obtain ⟨-, rfl⟩ := Text.cut_unique hbody hbody' hcut
      exact ⟨_, rfl, (hends after).mpr h⟩
  · have hnone : tick ∉ rest ++ blanks := by
      rw [List.mem_append]
      exact fun h => h.elim hrest (tick_notMem_of_blank hblanks)
    rw [afterTicks?_of_once hquote hnone]
    refine iff_of_false ?_ ?_
    · rintro ⟨after, h, -⟩
      cases h
    · rintro ⟨body, after, rfl, -, -⟩
      exact hrest (by simp)

/-- A line with an interpreted tag has cells exactly if a second backtick stands behind the first
one of the tag, with nothing or a comment behind it. -/
theorem isSome_cells?_iff (hcode : IsCode l.code) (hfield : l.field? = some f) (hread : r.IsRead)
    (htext : r.text = Text.trim (l.text examples)) (hkey : tick ∈ f.key.toList) :
    r.cells?.isSome ↔ ∃ after,
      afterTicks? (tag f.key.toList f.quoted ++ comment examples f) = some after ∧
        EndsRow after := by
  obtain ⟨quote, inside, htag, hquote, hbegins⟩ := exists_tag_cut hkey f.quoted
  have hlead := tick_notMem_lead_append hcode hquote
  have hcells : r.cells? = cells? r.text := by
    have hopens : opens (codePart (Text.trim (l.text examples))) = _ := opens_codePart_text hcode
    rw [hfield] at hopens
    rw [hread.cells?_eq, htext, hopens]
    rfl
  have hrow := text_eq_of_cut hcode hfield htext htag
  have hall : tag f.key.toList f.quoted ++ comment examples f = quote ++
      tick :: (((inside ++ ['"']) ++ Text.trimEnd (comment examples f)) ++
        Text.endBlanks (comment examples f)) := by
    conv_lhs => rw [htag, ← Text.trimEnd_append_endBlanks (comment examples f)]
    simp only [List.append_assoc, List.cons_append]
  rw [hall, exists_afterTicks?_iff hquote fun _ => Text.isBlank_of_mem_endBlanks, hcells, hrow,
    Option.isSome_iff_exists]
  constructor
  · rintro ⟨c, hc⟩
    obtain ⟨before, body, after, hcut, hbefore, hbody, -, hends, -⟩ := exists_of_cells? hc
    obtain ⟨-, hbehind⟩ := Text.cut_unique hlead hbefore hcut
    exact ⟨body, after, hbehind, hbody, hends⟩
  · rintro ⟨body, after, hbehind, hbody, hends⟩
    rw [hbehind]
    refine ⟨_, (cells?_append hlead hbody after _).mpr ⟨?_, hends, rfl⟩⟩
    obtain ⟨lead, htype, -⟩ := exists_typeOf_append hbegins (Text.trimStart l.code)
    obtain ⟨q, rest, hq, -⟩ := hbegins.trimEnd
    rw [htype, hq]
    exact List.append_ne_nil_of_right_ne_nil _ (List.cons_ne_nil _ _)

end Line

end Exemplar.Struct
