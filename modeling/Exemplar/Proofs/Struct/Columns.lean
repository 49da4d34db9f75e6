import Mathlib.Data.List.SplitBy
import Exemplar.Proofs.Struct.Cells
import Exemplar.Proofs.Struct.Rows
import Exemplar.Proofs.Text.Place

/-!
# Columns of laid out rows

The layout of rows seen row by row: each with the widths of the columns that it stands in.  The
main statement: the lines of a laid out text that are not blank are the rows, in their order, each
with the characters of its text and other blanks at most.
-/

namespace Exemplar.Struct

/-- The widths of the first three columns that a row stands in. -/
structure Widths where
  name : Nat
  type : Nat
  tag : Nat

/-- The widths of the columns in a block of a run: names and types are as wide as in the whole run,
tags as wide as in the block. -/
def widthsIn (run block : List Row) : Widths where
  name := width (·.name) run
  type := width (·.type) run
  tag := width (·.tag) block

/-- The rows of a run with the widths of their columns. -/
def measuredRun (run : List Row) : List (Row × Widths) :=
  (run.splitBy sameBlock).flatMap fun block => block.map fun r => (r, widthsIn run block)

/-- Rows with the widths of their columns. -/
def measured (rs : List Row) : List (Row × Widths) :=
  (rs.splitBy sameRun).flatMap measuredRun

/-- What a row is written as, apart from its indentation. -/
def Row.content (w : Widths) (r : Row) : List Char :=
  match r.cells? with
  | none => r.text
  | some c =>
    pad w.name c.name ++ ' ' :: (pad w.type c.type ++ ' ' ::
      match c.comment? with
      | none => c.tag
      | some comment => pad w.tag c.tag ++ ' ' :: comment)

/-- The line that a row is written as. -/
def Row.line (w : Widths) (r : Row) : List Char :=
  List.replicate r.depth '\t' ++ r.content w

/-- The lines that a row is written as: its own, behind a blank one if one stood before it. -/
def Row.lines (w : Widths) (r : Row) : List (List Char) :=
  (if r.gap then [[]] else []) ++ [r.line w]

/-- Measuring the rows of a run keeps them. -/
theorem fst_measuredRun (run : List Row) : (measuredRun run).map Prod.fst = run := by
  rw [measuredRun, List.map_flatMap]
  simp only [List.map_map, Function.comp_def, List.map_id']
  rw [List.flatMap_id']
  exact List.flatten_splitBy sameBlock run

/-- Measuring rows keeps them. -/
theorem fst_measured (rs : List Row) : (measured rs).map Prod.fst = rs := by
  rw [measured, List.map_flatMap]
  simp only [fst_measuredRun]
  rw [List.flatMap_id']
  exact List.flatten_splitBy sameRun rs

private theorem render_eq (w : Widths) (r : Row) :
    Row.render w.name w.type w.tag r = Text.unlines (r.lines w) := by
  rw [Row.render, Row.lines, Row.line, Row.content]
  cases r.cells? with
  | none => cases r.gap <;> simp [Text.unlines]
  | some c =>
    obtain ⟨name, type, tag, comment?⟩ := c
    cases r.gap <;> cases comment? <;> simp [Text.unlines]

private theorem renderRun_eq (run : List Row) :
    renderRun run = Text.unlines ((measuredRun run).flatMap fun p => p.1.lines p.2) := by
  rw [measuredRun, Text.unlines]
  simp only [List.flatMap_assoc, List.flatMap_map]
  rw [renderRun]
  refine List.flatMap_congr fun block _ => List.flatMap_congr fun r _ => ?_
  exact render_eq (widthsIn run block) r

private theorem renderRows_eq (rs : List Row) :
    renderRows rs = Text.unlines ((measured rs).flatMap fun p => p.1.lines p.2) := by
  rw [measured, Text.unlines, List.flatMap_assoc, List.flatMap_assoc, renderRows]
  refine List.flatMap_congr fun run _ => ?_
  rw [renderRun_eq, Text.unlines, List.flatMap_assoc]

/-! ## What is written -/

/-- Filling a text up adds blanks. -/
@[simp] theorem ink_pad (w : Nat) (cs : List Char) : Text.ink (pad w cs) = Text.ink cs := by
  rw [pad, Text.ink_append, Text.ink_replicate_of_blank (by decide), List.append_nil]

/-- A text filled up to a width, with a space behind it, is the text and the spaces. -/
theorem pad_append_cons (w : Nat) (cs ds : List Char) :
    pad w cs ++ ' ' :: ds = cs ++ (List.replicate (w - cs.length + 1) ' ' ++ ds) := by
  rw [pad, List.replicate_succ', List.append_assoc, List.append_assoc, List.singleton_append]

/-- What stands behind the tag of a row with cells. -/
def Cells.behind (w : Widths) (c : Cells) : List Char :=
  match c.comment? with
  | none => []
  | some comment => List.replicate (w.tag - c.tag.length + 1) ' ' ++ comment

/-- A row with cells is written with spaces behind its name, its type and its tag. -/
theorem content_of_some {w : Widths} {r : Row} {c : Cells} (h : r.cells? = some c) :
    r.content w = pad w.name c.name ++ ' ' :: (c.type ++
      (List.replicate (w.type - c.type.length + 1) ' ' ++ (c.tag ++ c.behind w))) := by
  rw [Row.content, h, Cells.behind]
  dsimp only
  rw [pad_append_cons w.type]
  cases c.comment? with
  | none => rw [List.append_nil]
  | some comment => rw [← pad_append_cons w.tag]

/-- What is written behind a tag has the characters of the comment. -/
theorem ink_behind (w : Widths) (c : Cells) :
    Text.ink (c.behind w) = Text.ink (c.comment?.getD []) := by
  rw [Cells.behind]
  cases c.comment? with
  | none => rfl
  | some comment =>
    rw [Text.ink_append, Text.ink_replicate_of_blank (by decide), List.nil_append]
    rfl

/-- The cells of a row that was read are those of its text. -/
theorem Row.IsRead.cells?_of_some {r : Row} (h : r.IsRead) {c : Cells} (hc : r.cells? = some c) :
    Struct.cells? r.text = some c := by
  have hread := h.cells?_eq
  rw [hc] at hread
  split at hread
  · cases hread
  · exact hread.symm

/-- A row is written with the characters of its text. -/
theorem ink_content (w : Widths) {r : Row} (h : r.IsRead) :
    Text.ink (r.content w) = Text.ink r.text := by
  cases hcells : r.cells? with
  | none => rw [Row.content, hcells]
  | some c =>
    obtain ⟨before, body, after, htext, -, -, -, -, rfl⟩ :=
      exists_of_cells? (h.cells?_of_some hcells)
    have hblank : Text.isBlank ' ' = true := by decide
    have htick : Text.isBlank tick = false := by decide
    have hafter := ink_comment_cellsOf before body after
    have hbefore := ink_nameOf_append_typeOf before
    rw [content_of_some hcells, htext, Text.ink_append, Text.ink_cons_of_blank hblank,
      Text.ink_append, Text.ink_append, Text.ink_append, ink_behind, hafter, ink_pad,
      Text.ink_replicate_of_blank hblank, List.nil_append, ← List.append_assoc]
    change (Text.ink (nameOf before) ++ Text.ink (typeOf before)) ++
      (Text.ink (tick :: (body ++ [tick])) ++ Text.ink after) = _
    rw [hbefore]
    simp only [Text.ink_append, Text.ink_cons_of_not_blank htick, List.append_assoc,
      List.cons_append]
    rfl

private theorem ink_line (w : Widths) {r : Row} (h : r.IsRead) :
    Text.ink (r.line w) = Text.ink r.text := by
  rw [Row.line, Text.ink_append, Text.ink_replicate_of_blank (by decide), List.nil_append,
    ink_content w h]

private theorem ink_line_ne_nil (w : Widths) {r : Row} (h : r.IsRead) :
    Text.ink (r.line w) ≠ [] := by
  have hne := h.ne_nil
  rw [← h.trimmed, Ne, Text.trim_eq_nil_iff, ← Text.ink_eq_nil_iff] at hne
  rw [ink_line w h]
  exact hne

/-- A row that was read is written with a character that is not blank in front. -/
theorem beginsSolid_content (w : Widths) {r : Row} (h : r.IsRead) :
    Text.BeginsSolid (r.content w) := by
  have hsolid : ∀ c cs, r.text = c :: cs → Text.isBlank c = false := fun c cs htext =>
    Text.not_isBlank_of_trim_eq_cons (h.trimmed.trans htext)
  cases hcells : r.cells? with
  | none =>
    rw [Row.content, hcells]
    cases htext : r.text with
    | nil => exact absurd htext h.ne_nil
    | cons c cs => exact ⟨c, cs, rfl, hsolid c cs htext⟩
  | some c =>
    obtain ⟨before, body, after, htext, -, -, htype, -, rfl⟩ :=
      exists_of_cells? (h.cells?_of_some hcells)
    cases before with
    | nil => exact absurd rfl htype
    | cons b before =>
      have hb := hsolid b _ htext
      have hname : Text.BeginsSolid (nameOf (b :: before)) := by
        unfold nameOf
        rw [Text.trimEnd_cons hb, List.takeWhile_cons_of_pos (by simp [hb])]
        exact ⟨b, _, rfl, hb⟩
      rw [content_of_some hcells]
      exact (hname.append _).append _

private theorem mem_or_eq_of_mem_pad {w : Nat} {cs : List Char} {c : Char} (h : c ∈ pad w cs) :
    c ∈ cs ∨ c = ' ' := by
  rw [pad, List.mem_append] at h
  exact h.imp_right List.eq_of_mem_replicate

private theorem mem_text_of_mem_cells {text : List Char} {c : Cells} (h : cells? text = some c)
    {d : Char} (hd : d ∈ c.name ∨ d ∈ c.type ∨ d ∈ c.tag ∨ d ∈ c.comment?.getD []) :
    d ∈ text := by
  obtain ⟨before, body, after, rfl, -, -, -, -, rfl⟩ := exists_of_cells? h
  have hbefore : d ∈ Text.trimEnd before → d ∈ before ++ tick :: (body ++ tick :: after) :=
    fun hd => List.mem_append_left _ (Text.mem_of_mem_trimEnd hd)
  rcases hd with hd | hd | hd | hd
  · exact hbefore ((List.takeWhile_prefix _).mem hd)
  · exact hbefore (List.mem_of_mem_drop (Text.mem_of_mem_trim hd))
  · simp only [cellsOf, List.mem_cons, List.mem_append, List.not_mem_nil, or_false] at hd
    simp only [List.mem_append, List.mem_cons]
    tauto
  · have hafter : d ∈ after := by
      rw [cellsOf] at hd
      dsimp only at hd
      split at hd
      · cases hd
      · exact Text.mem_of_mem_trim hd
    simp only [List.mem_append, List.mem_cons]
    tauto

private theorem mem_text_of_mem_line (w : Widths) {r : Row} (h : r.IsRead) {d : Char}
    (hd : d ∈ r.line w) : d ∈ r.text ∨ d = ' ' ∨ d = '\t' := by
  rw [Row.line, List.mem_append] at hd
  rcases hd with hd | hd
  · exact .inr (.inr (List.eq_of_mem_replicate hd))
  · cases hcells : r.cells? with
    | none =>
      rw [Row.content, hcells] at hd
      exact .inl hd
    | some c =>
      have hmem := fun hd => mem_text_of_mem_cells (h.cells?_of_some hcells) (d := d) hd
      have hbehind : d ∈ c.behind w → d = ' ' ∨ d ∈ c.comment?.getD [] := by
        rw [Cells.behind]
        cases c.comment? with
        | none => exact fun hd => by cases hd
        | some comment =>
          rw [List.mem_append]
          exact fun hd => hd.imp_left List.eq_of_mem_replicate
      rw [content_of_some hcells] at hd
      simp only [List.mem_append, List.mem_cons] at hd
      rcases hd with hd | hd | hd | hd | hd | hd
      · exact (mem_or_eq_of_mem_pad hd).imp (fun hd => hmem (.inl hd)) .inl
      · exact .inr (.inl hd)
      · exact .inl (hmem (.inr (.inl hd)))
      · exact .inr (.inl (List.eq_of_mem_replicate hd))
      · exact .inl (hmem (.inr (.inr (.inl hd))))
      · rcases hbehind hd with hd | hd
        · exact .inr (.inl hd)
        · exact .inl (hmem (.inr (.inr (.inr hd))))

/-- The line of a row has no line feed. -/
theorem lineFeed_notMem_line (w : Widths) {r : Row} (h : r.IsRead) : '\n' ∉ r.line w := by
  intro hfeed
  rcases mem_text_of_mem_line w h hfeed with hfeed | hfeed | hfeed
  · exact h.lineFeed_notMem hfeed
  · exact absurd hfeed (by decide)
  · exact absurd hfeed (by decide)

private theorem lineFeed_notMem_lines (w : Widths) {r : Row} (h : r.IsRead) :
    ∀ l ∈ r.lines w, '\n' ∉ l := by
  intro l hl
  rw [Row.lines] at hl
  rcases List.mem_append.mp hl with hl | hl
  · split at hl
    · rw [List.mem_singleton.mp hl]
      exact List.not_mem_nil
    · cases hl
  · rw [List.mem_singleton.mp hl]
    exact lineFeed_notMem_line w h

/-- The rows that are measured are those that were read. -/
theorem isRead_of_mem_measured {rs : List Row} (h : ∀ r ∈ rs, r.IsRead) :
    ∀ p ∈ measured rs, p.1.IsRead := by
  intro p hp
  refine h p.1 ?_
  rw [← fst_measured rs]
  exact List.mem_map_of_mem hp

/-- The lines of laid out rows are those that the rows are written as. -/
theorem lines_renderRows {rs : List Row} (h : ∀ r ∈ rs, r.IsRead) :
    Text.lines (renderRows rs) = (measured rs).flatMap fun p => p.1.lines p.2 := by
  rw [renderRows_eq]
  refine Text.lines_unlines fun l hl => ?_
  obtain ⟨p, hp, hl⟩ := List.mem_flatMap.mp hl
  exact lineFeed_notMem_lines p.2 (isRead_of_mem_measured h p hp) l hl

/-- The lines of a text that are not blank. -/
def inkLines (cs : List Char) : List (List Char) :=
  (Text.lines cs).filter fun l => !(Text.ink l).isEmpty

private theorem text_rowsFrom {number depth : Nat} {started gap : Bool} {ls : List (List Char)}
    {rs : List Row} (h : rowsFrom number depth started gap ls = .ok rs) :
    rs.map (·.text) = (ls.filter fun l => !(Text.ink l).isEmpty).map Text.trim := by
  induction ls generalizing number depth started gap rs with
  | nil =>
    obtain ⟨-, rfl⟩ := rowsFrom_nil_eq_ok_iff.mp h
    rfl
  | cons l ls ih =>
    have hink : Text.trim l = [] ↔ Text.ink l = [] := by
      rw [Text.trim_eq_nil_iff, Text.ink_eq_nil_iff]
    by_cases hblank : Text.trim l = []
    · rw [rowsFrom_blank hblank] at h
      simpa [hink.mp hblank] using ih h
    · obtain ⟨depth', rs', -, hrs', rfl⟩ := (rowsFrom_cons_eq_ok_iff hblank).mp h
      simpa [mt hink.mpr hblank] using ih hrs'

/-- The rows of a text are its lines that are not blank, trimmed. -/
theorem text_rows {source : List Char} {rs : List Row} (h : rows source = .ok rs) :
    rs.map (·.text) = (inkLines source).map Text.trim :=
  text_rowsFrom h

/-- The lines of laid out rows that are not blank are the lines of the rows. -/
theorem inkLines_renderRows {rs : List Row} (h : ∀ r ∈ rs, r.IsRead) :
    inkLines (renderRows rs) = (measured rs).map fun p => p.1.line p.2 := by
  have hmeasured := isRead_of_mem_measured h
  rw [inkLines, lines_renderRows h, List.filter_flatMap, List.map_eq_flatMap]
  refine List.flatMap_congr fun p hp => ?_
  have hline : (Text.ink (p.1.line p.2)).isEmpty = false := by
    rw [List.isEmpty_eq_false_iff]
    exact ink_line_ne_nil p.2 (hmeasured p hp)
  rw [Row.lines, List.filter_append, List.filter_singleton, hline]
  cases p.1.gap <;> rfl

/-- The layout keeps the characters of each line that is not blank. -/
theorem ink_inkLines_layout {source out : List Char} (h : layout source = .ok out) :
    (inkLines out).map Text.ink = (inkLines source).map Text.ink := by
  obtain ⟨rs, hrows, rfl⟩ := map_eq_ok_iff.mp h
  have hread := isRead_of_mem_rows hrows
  have hline : ∀ p ∈ measured rs, Text.ink (p.1.line p.2) = Text.ink p.1.text := fun p hp =>
    ink_line p.2 (isRead_of_mem_measured hread p hp)
  calc (inkLines (renderRows rs)).map Text.ink
      = (measured rs).map fun p => Text.ink (p.1.line p.2) := by
        rw [inkLines_renderRows hread, List.map_map]
        rfl
    _ = (measured rs).map fun p => Text.ink p.1.text := List.map_congr_left hline
    _ = ((measured rs).map Prod.fst).map fun r => Text.ink r.text := by
        rw [List.map_map]
        rfl
    _ = (rs.map (·.text)).map Text.ink := by
        rw [fst_measured, List.map_map]
        rfl
    _ = (inkLines source).map Text.ink := by
        rw [text_rows hrows, List.map_map]
        exact List.map_congr_left fun l _ => Text.ink_trim l

/-! ## Rows and lines -/

/-- The row of a line, behind other rows, stands at the depth of the line and holds its text; it is
measured with the widths of its columns. -/
theorem exists_measured_behind {examples : Bool} {ls : List Line} {rs : List Row}
    {before : List (Nat × List Char)}
    (hrows : rs.map (fun r => (r.depth, r.text)) = before ++ rowsOf examples ls) {k : Nat}
    {l : Line} (hl : ls[k]? = some l) :
    ∃ r w, (measured rs)[before.length + k]? = some (r, w) ∧ r ∈ rs ∧ r.depth = l.depth ∧
      r.text = Text.trim (l.text examples) := by
  have hrow : (rs.map fun r => (r.depth, r.text))[before.length + k]? =
      some (l.depth, Text.trim (l.text examples)) := by
    rw [hrows, rowsOf, List.getElem?_append_right (Nat.le_add_right _ _), Nat.add_sub_cancel_left,
      List.getElem?_map, hl]
    rfl
  rw [List.getElem?_map] at hrow
  obtain ⟨r, hr, hsame⟩ := Option.map_eq_some_iff.mp hrow
  have hmeasured := hr
  rw [← fst_measured rs, List.getElem?_map] at hmeasured
  obtain ⟨⟨r', w⟩, hw, rfl⟩ := Option.map_eq_some_iff.mp hmeasured
  obtain ⟨hdepth, htext⟩ := Prod.mk.inj hsame
  exact ⟨r', w, hw, List.mem_of_getElem? hr, hdepth, htext⟩

/-- The row at the number of a line holds the line, with the widths of its columns. -/
theorem exists_measured {examples : Bool} {ls : List Line} {rs : List Row}
    (hrows : rs.map (fun r => (r.depth, r.text)) = rowsOf examples ls) {k : Nat} {l : Line}
    (hl : ls[k]? = some l) :
    ∃ r w, (measured rs)[k]? = some (r, w) ∧ r ∈ rs ∧ r.text = Text.trim (l.text examples) := by
  rw [← List.nil_append (rowsOf examples ls)] at hrows
  obtain ⟨r, w, hmeasured, hr, -, htext⟩ := exists_measured_behind hrows hl
  rw [List.length_nil, Nat.zero_add] at hmeasured
  exact ⟨r, w, hmeasured, hr, htext⟩

/-- Texts that follow one another have the lines of both that are not blank. -/
theorem inkLines_unlines_append {ls ms : List (List Char)} (hls : ∀ l ∈ ls, '\n' ∉ l)
    (hms : ∀ l ∈ ms, '\n' ∉ l) :
    inkLines (Text.unlines (ls ++ ms)) =
      inkLines (Text.unlines ls) ++ inkLines (Text.unlines ms) := by
  have hboth : ∀ l ∈ ls ++ ms, '\n' ∉ l := fun l hl =>
    (List.mem_append.mp hl).elim (hls l) (hms l)
  unfold inkLines
  rw [Text.lines_unlines hboth, Text.lines_unlines hls, Text.lines_unlines hms,
    List.filter_append]

/-- The lines of a file that are not blank are its lines. -/
theorem inkLines_fileTexts (examples : Bool) {root : RootFields} {named : List NamedObject}
    {rootName : String} (h : ∀ l ∈ fileLines root named rootName, IsCode l.code) :
    inkLines (Text.unlines (fileTexts examples root named rootName)) =
      (fileLines root named rootName).map (Line.text examples) := by
  have hfeed := lineFeed_notMem_fileTexts examples h
  have hkeep : ∀ ls : List Line, (∀ l ∈ ls, IsCode l.code) →
      (ls.map (Line.text examples)).filter (fun text => !(Text.ink text).isEmpty) =
        ls.map (Line.text examples) := by
    intro ls hls
    rw [List.filter_eq_self]
    intro text htext
    obtain ⟨l, hl, rfl⟩ := List.mem_map.mp htext
    have hne : Text.trim (l.text examples) ≠ [] := trim_text_ne_nil (hls l hl)
    rw [Ne, Text.trim_eq_nil_iff, ← Text.ink_eq_nil_iff] at hne
    simpa using hne
  rw [fileLines] at h ⊢
  rw [inkLines, Text.lines_unlines hfeed, fileTexts, List.filter_append, List.map_append,
    hkeep _ fun l hl => h l (List.mem_append_left _ hl), List.filter_flatMap, List.map_flatMap]
  congr 1
  refine List.flatMap_congr fun o ho => ?_
  exact hkeep _ fun l hl => h l (List.mem_append_right _ (List.mem_flatMap.mpr ⟨o, ho, hl⟩))

/-- The text that is written for a model, laid out or not. -/
theorem emit_eq {style : Style} {model : Model} {rootName : String} {text : List Char}
    {rs : List Row} (hsource : source style model rootName = .ok (String.ofList text))
    (hrows : rows text = .ok rs) :
    emit style model rootName =
      .ok (String.ofList (if style.format then renderRows rs else text)) := by
  rw [emit, hsource]
  change (if style.format then _ else _) = _
  rw [String.toList_ofList, layout, hrows]
  cases style.format <;> rfl

/-- What is written for a model has the characters of its source line by line, laid out or not. -/
theorem ink_inkLines_emit {style : Style} {model : Model} {rootName out : String}
    {text : List Char} (hsource : source style model rootName = .ok (String.ofList text))
    (h : emit style model rootName = .ok out) :
    (inkLines out.toList).map Text.ink = (inkLines text).map Text.ink := by
  rw [emit, hsource] at h
  change (if style.format then _ else _) = _ at h
  rw [String.toList_ofList] at h
  split at h
  · split at h
    · next cs hlayout =>
      obtain rfl := Except.ok.inj h
      rw [String.toList_ofList]
      exact ink_inkLines_layout hlayout
    · obtain rfl := Except.ok.inj h
      rw [String.toList_ofList]
  · obtain rfl := Except.ok.inj h
    rw [String.toList_ofList]

end Exemplar.Struct
