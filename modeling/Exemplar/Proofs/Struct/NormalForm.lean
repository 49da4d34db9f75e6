import Exemplar.Proofs.Struct.Respaced

/-!
# The layout of laid out texts

The rows of a laid out text are those of the text, each with its content for its text, and rows
are written without regard to the texts of field lines.  The main statement: a laid out text is
its own layout.
-/

namespace Exemplar.Struct

/-! ## Reading what was written -/

/-- A row whose text is what it is written as. -/
def Row.rewritten (w : Widths) (r : Row) : Row :=
  { r with text := r.content w }

private theorem Row.IsRead.rewritten {r : Row} (h : r.IsRead) (w : Widths) :
    (r.rewritten w).IsRead where
  ne_nil := by
    obtain ⟨c, rest, hcontent, -⟩ := beginsSolid_content w h
    rw [Row.rewritten, hcontent]
    exact List.cons_ne_nil _ _
  trimmed := h.trim_content w
  lineFeed_notMem := fun hfeed => lineFeed_notMem_line w h (List.mem_append_right _ hfeed)
  cells?_eq := by
    change r.cells? = if opens (codePart (r.content w)) then none else Struct.cells? (r.content w)
    rw [h.opens_codePart_content w]
    cases hcells : r.cells? with
    | none =>
      have hcontent : r.content w = r.text := by rw [Row.content, hcells]
      rw [hcontent, ← h.cells?_eq, hcells]
    | some c =>
      obtain ⟨gap, gap', blanks, blanks', body, after, hrespaced⟩ := h.exists_respaced hcells w
      have hopens := h.cells?_eq
      rw [hcells] at hopens
      split at hopens
      · cases hopens
      · next hclosed => rw [if_neg hclosed, hrespaced.cells?_content]

private theorem Row.IsRead.trim_line {r : Row} (h : r.IsRead) (w : Widths) :
    Text.trim (r.line w) = r.content w := by
  have htabs : ∀ c ∈ List.replicate r.depth '\t', Text.isBlank c = true := by
    intro c hc
    rw [List.eq_of_mem_replicate hc]
    decide
  rw [Row.line, Text.trim_blank_append htabs, h.trim_content w]

/-- Whether each of some rows stands at the number of blocks around it, if a given number is open
before the first one, and none is open behind the last. -/
def StandInBlocks : (depth : Nat) → List Row → Prop
  | depth, [] => depth = 0
  | depth, r :: rs =>
    depth = r.depth + (if closes (codePart r.text) then 1 else 0) ∧
      StandInBlocks (r.depth + if opens (codePart r.text) then 1 else 0) rs

private theorem standInBlocks_of_rowsFrom {number depth : Nat} {started gap : Bool}
    {ls : List (List Char)} {rs : List Row} (h : rowsFrom number depth started gap ls = .ok rs)
    (hgap : gap → started) :
    StandInBlocks depth rs ∧ ∀ r ∈ rs.head?, r.gap → started := by
  induction ls generalizing number depth started gap rs with
  | nil =>
    obtain ⟨hdepth, rfl⟩ := rowsFrom_nil_eq_ok_iff.mp h
    exact ⟨hdepth, fun r hr => by cases hr⟩
  | cons l ls ih =>
    by_cases hblank : Text.trim l = []
    · rw [rowsFrom_blank hblank] at h
      exact ih h id
    · obtain ⟨depth', rs', hdepth, hrs', rfl⟩ := (rowsFrom_cons_eq_ok_iff hblank).mp h
      refine ⟨⟨hdepth, (ih hrs' fun h => by cases h).1⟩, fun r hr => ?_⟩
      obtain rfl := Option.some.inj hr
      exact hgap

private theorem rowsFrom_lines {ps : List (Row × Widths)} {number depth : Nat} {started : Bool}
    (hread : ∀ p ∈ ps, p.1.IsRead) (hblocks : StandInBlocks depth (ps.map Prod.fst))
    (hgap : ∀ p ∈ ps.head?, p.1.gap → started) :
    rowsFrom number depth started false (ps.flatMap fun p => p.1.lines p.2) =
      .ok (ps.map fun p => p.1.rewritten p.2) := by
  induction ps generalizing number depth started with
  | nil =>
    have hdepth : depth = 0 := hblocks
    exact rowsFrom_nil_eq_ok_iff.mpr ⟨hdepth, rfl⟩
  | cons p ps ih =>
    obtain ⟨r, w⟩ := p
    obtain ⟨hdepth, hrest⟩ := hblocks
    have hr : r.IsRead := hread (r, w) List.mem_cons_self
    have hrow : ∀ number, rowsFrom number depth started r.gap
        (r.line w :: ps.flatMap fun p => p.1.lines p.2) =
          .ok (r.rewritten w :: ps.map fun p => p.1.rewritten p.2) := by
      intro number
      have hne : Text.trim (r.line w) ≠ [] := by
        rw [hr.trim_line w]
        exact (hr.rewritten w).ne_nil
      rw [rowsFrom_cons_eq_ok_iff hne, hr.trim_line w]
      refine ⟨r.depth, _, ?_, ih (fun p hp => hread p (List.mem_cons_of_mem _ hp)) ?_
        fun _ _ _ => rfl, ?_⟩
      · rw [hr.closes_codePart_content w]
        exact hdepth
      · rw [hr.opens_codePart_content w]
        exact hrest
      · have hcells : r.cells? = if opens (codePart (r.content w)) then none
            else cells? (r.content w) := (hr.rewritten w).cells?_eq
        rw [← hcells]
        rfl
    rw [List.flatMap_cons, List.map_cons, Row.lines]
    cases hrgap : r.gap with
    | false =>
      have hlines := hrow number
      rwa [hrgap] at hlines
    | true =>
      have hstarted : started = true := hgap (r, w) rfl hrgap
      have hlines := hrow (number + 1)
      rw [hrgap] at hlines
      rw [if_pos rfl, List.append_assoc, List.singleton_append, rowsFrom_blank rfl, hstarted]
      rw [hstarted] at hlines
      exact hlines

/-! ## Rows without their texts -/

/-- A row without its text, if it has cells to be written in its place. -/
def Row.bare (r : Row) : Row :=
  { r with text := if r.cells?.isSome then [] else r.text }

private theorem Row.bare_rewritten (w : Widths) (r : Row) : (r.rewritten w).bare = r.bare := by
  rw [Row.bare, Row.bare, Row.rewritten, Row.content]
  cases r.cells? <;> rfl

/-- Images of a list are grouped as the list is, if the images are compared as its items are. -/
theorem splitBy_map {α β : Type} {f : α → β} {same : α → α → Bool} {same' : β → β → Bool}
    (h : ∀ a b, same' (f a) (f b) = same a b) (xs : List α) :
    (xs.map f).splitBy same' = (xs.splitBy same).map (List.map f) := by
  have hloop : ∀ (xs : List α) (a : α) (group : List α) (groups : List (List α)),
      List.splitBy.loop same' (xs.map f) (f a) (group.map f) (groups.map (List.map f)) =
        (List.splitBy.loop same xs a group groups).map (List.map f) := by
    intro xs
    induction xs with
    | nil =>
      intro a group groups
      simp only [List.map_nil, List.splitBy.loop, List.map_reverse, List.map_cons]
    | cons x xs ih =>
      intro a group groups
      rw [List.map_cons, List.splitBy.loop, List.splitBy.loop, h]
      cases same a x with
      | true => exact ih x (a :: group) groups
      | false =>
        have hnext := ih x [] ((a :: group).reverse :: groups)
        rwa [List.map_cons, List.map_reverse, List.map_cons] at hnext
  cases xs with
  | nil => rfl
  | cons x xs => exact hloop xs x [] []

private theorem width_map_bare (cell : Cells → List Char) (rs : List Row) :
    width cell (rs.map Row.bare) = width cell rs := by
  rw [width, width, List.filterMap_map]
  rfl

private theorem render_bare (nameWidth typeWidth tagWidth : Nat) (r : Row) :
    Row.render nameWidth typeWidth tagWidth r.bare = Row.render nameWidth typeWidth tagWidth r := by
  obtain ⟨gap, depth, text, cells?⟩ := r
  cases cells? <;> rfl

private theorem renderRun_map_bare (run : List Row) :
    renderRun (run.map Row.bare) = renderRun run := by
  have hblocks : (run.map Row.bare).splitBy sameBlock =
      (run.splitBy sameBlock).map (List.map Row.bare) := splitBy_map (fun _ _ => rfl) run
  rw [renderRun, renderRun, hblocks, List.flatMap_map, width_map_bare, width_map_bare]
  refine List.flatMap_congr fun block _ => ?_
  rw [List.flatMap_map, width_map_bare]
  exact List.flatMap_congr fun r _ => render_bare _ _ _ r

private theorem renderRows_map_bare (rs : List Row) :
    renderRows (rs.map Row.bare) = renderRows rs := by
  have hruns : (rs.map Row.bare).splitBy sameRun =
      (rs.splitBy sameRun).map (List.map Row.bare) := splitBy_map (fun _ _ => rfl) rs
  rw [renderRows, renderRows, hruns, List.flatMap_map]
  exact List.flatMap_congr fun run _ => renderRun_map_bare run

/-! ## Laid out texts -/

/-- The rows of a laid out text are the rows that were laid out, with their contents for their
texts. -/
theorem rows_renderRows {source : List Char} {rs : List Row} (h : rows source = .ok rs) :
    rows (renderRows rs) = .ok ((measured rs).map fun p => p.1.rewritten p.2) := by
  have hread := isRead_of_mem_rows h
  obtain ⟨hblocks, hfirst⟩ := standInBlocks_of_rowsFrom h id
  have hhead : ∀ p ∈ (measured rs).head?, p.1.gap → false := by
    intro p hp
    refine hfirst p.1 ?_
    rw [← fst_measured rs, List.head?_map]
    exact Option.mem_map_of_mem Prod.fst hp
  rw [rows, lines_renderRows hread]
  exact rowsFrom_lines (isRead_of_mem_measured hread) ((fst_measured rs).symm ▸ hblocks) hhead

/-- A laid out text is its own layout. -/
theorem layout_layout {source out : List Char} (h : layout source = .ok out) :
    layout out = .ok out := by
  obtain ⟨rs, hrows, rfl⟩ := map_eq_ok_iff.mp h
  rw [layout, rows_renderRows hrows]
  change Except.ok _ = Except.ok _
  rw [← renderRows_map_bare, List.map_map]
  simp only [Function.comp_def, Row.bare_rewritten]
  rw [← renderRows_map_bare rs]
  conv_rhs => rw [← fst_measured rs]
  rw [List.map_map]
  rfl

end Exemplar.Struct
