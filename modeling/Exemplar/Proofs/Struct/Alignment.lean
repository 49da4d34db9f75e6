import Exemplar.Proofs.Struct.NormalForm

/-!
# Aligned columns

A run is a longest list of field rows of one depth without a blank line between them, and a block
is a longest list of commented rows in a run.  The main statement: in the layout of a text the
types and the tags of a run, and the comments of a block, stand in columns, each one space behind
the widest cell before it, and rows outside the run make no difference to them.
-/

namespace Exemplar.Struct

/-! ## Runs and blocks -/

/-- Whether a row is a field line of a given depth. -/
def Row.IsField (depth : Nat) (r : Row) : Prop :=
  r.cells?.isSome = true ∧ r.depth = depth

/-- Whether a row is a field line with a comment. -/
def Row.IsCommented (r : Row) : Prop :=
  (r.cells?.bind (·.comment?)).isSome = true

/-- Whether rows between others are a run: field lines of one depth that follow one another without
a blank line, and as many as there are. -/
structure IsRun (depth : Nat) (before run after : List Row) : Prop where
  ne_nil : run ≠ []
  field : ∀ r ∈ run, r.IsField depth
  joined : ∀ r ∈ run.tail, r.gap = false
  start : ∀ r ∈ run.head?, r.gap = true ∨ ∀ p ∈ before.getLast?, ¬ p.IsField depth
  stop : ∀ r ∈ after.head?, r.gap = true ∨ ¬ r.IsField depth

/-- Whether rows of a run between others are a block: commented lines that follow one another, and
as many as there are. -/
structure IsBlock (front block back : List Row) : Prop where
  ne_nil : block ≠ []
  commented : ∀ r ∈ block, r.IsCommented
  start : ∀ r ∈ front.getLast?, ¬ r.IsCommented
  stop : ∀ r ∈ back.head?, ¬ r.IsCommented

private theorem sameRun_eq_true_iff {depth : Nat} {a b : Row} (ha : a.IsField depth) :
    sameRun a b = true ↔ b.gap = false ∧ b.IsField depth := by
  rw [sameRun, Row.IsField, ha.1, ha.2, Bool.true_and, Bool.and_eq_true, Bool.and_eq_true,
    beq_iff_eq, Bool.not_eq_true']
  constructor
  · rintro ⟨⟨hcells, hdepth⟩, hgap⟩
    exact ⟨hgap, hcells, hdepth.symm⟩
  · rintro ⟨hgap, hcells, hdepth⟩
    exact ⟨⟨hcells, hdepth.symm⟩, hgap⟩

private theorem sameRun_eq_false {depth : Nat} {a b : Row} (ha : ¬ a.IsField depth)
    (hb : b.IsField depth) : sameRun a b = false := by
  rw [Row.IsField, not_and] at ha
  rw [sameRun, hb.1, hb.2]
  cases hcells : a.cells?.isSome with
  | false => rfl
  | true => simp [ha hcells]

private theorem sameBlock_eq_true_iff {a b : Row} :
    sameBlock a b = true ↔ a.IsCommented ∧ b.IsCommented := by
  rw [sameBlock, Bool.and_eq_true, Row.IsCommented, Row.IsCommented]

namespace IsRun

variable {depth : Nat} {before run after : List Row}

private theorem isChain (h : IsRun depth before run after) :
    run.IsChain fun a b => sameRun a b = true := by
  have hjoined := h.joined
  have hfield := h.field
  clear h
  induction run with
  | nil => exact .nil
  | cons a run ih =>
    cases run with
    | nil => exact .singleton a
    | cons b run =>
      have ha := hfield a List.mem_cons_self
      have hb := hfield b (List.mem_cons_of_mem a List.mem_cons_self)
      refine .cons_cons ((sameRun_eq_true_iff ha).mpr ⟨hjoined b List.mem_cons_self, hb⟩) ?_
      refine ih (fun r hr => hjoined r (List.mem_cons_of_mem b hr)) ?_
      exact fun r hr => hfield r (List.mem_cons_of_mem a hr)

private theorem splitBy_eq (h : IsRun depth before run after) :
    (before ++ run ++ after).splitBy sameRun =
      before.splitBy sameRun ++ [run] ++ after.splitBy sameRun := by
  have hstart : ∀ p ∈ before.getLast?, ∀ r ∈ run.head?, sameRun p r = false := by
    intro p hp r hr
    have hfield := h.field r (List.mem_of_mem_head? hr)
    rcases h.start r hr with hgap | hother
    · rw [sameRun, hgap]
      simp
    · exact sameRun_eq_false (hother p hp) hfield
  have hstop : ∀ p ∈ (before ++ run).getLast?, ∀ r ∈ after.head?, sameRun p r = false := by
    intro p hp r hr
    rw [List.getLast?_append_of_ne_nil before h.ne_nil] at hp
    have hfield := h.field p (List.mem_of_mem_getLast? hp)
    apply eq_false_of_ne_true
    intro hsame
    obtain ⟨hgap, hr'⟩ := (sameRun_eq_true_iff hfield).mp hsame
    rcases h.stop r hr with hgap' | hother
    · rw [hgap] at hgap'
      cases hgap'
    · exact hother hr'
  rw [List.splitBy_append hstop, List.splitBy_append hstart,
    List.splitBy_of_isChain h.ne_nil h.isChain]

end IsRun

private theorem IsBlock.splitBy_eq {front block back : List Row} (h : IsBlock front block back) :
    (front ++ block ++ back).splitBy sameBlock =
      front.splitBy sameBlock ++ [block] ++ back.splitBy sameBlock := by
  have hchain : block.IsChain fun a b => sameBlock a b = true := by
    refine List.Pairwise.isChain (List.pairwise_of_forall_mem_list ?_)
    intro a ha b hb
    exact sameBlock_eq_true_iff.mpr ⟨h.commented a ha, h.commented b hb⟩
  have hstart : ∀ p ∈ front.getLast?, ∀ r ∈ block.head?, sameBlock p r = false := by
    intro p hp r _
    apply eq_false_of_ne_true
    intro hsame
    exact h.start p hp (sameBlock_eq_true_iff.mp hsame).1
  have hstop : ∀ p ∈ (front ++ block).getLast?, ∀ r ∈ back.head?, sameBlock p r = false := by
    intro p _ r hr
    apply eq_false_of_ne_true
    intro hsame
    exact h.stop r hr (sameBlock_eq_true_iff.mp hsame).2
  rw [List.splitBy_append hstop, List.splitBy_append hstart,
    List.splitBy_of_isChain h.ne_nil hchain]

/-! ## Widths -/

/-- Whether a number is the width of the widest of the cells that some rows have in one place. -/
def IsWidest (cell : Cells → List Char) (rs : List Row) (w : Nat) : Prop :=
  (∃ r ∈ rs, ∃ c, r.cells? = some c ∧ (cell c).length = w) ∧
    ∀ r ∈ rs, ∀ c, r.cells? = some c → (cell c).length ≤ w

private theorem foldl_max_spec {α : Type} (f : α → Nat) (xs : List α) (w : Nat) :
    (w ≤ xs.foldl (fun w x => max w (f x)) w ∧
      ∀ x ∈ xs, f x ≤ xs.foldl (fun w x => max w (f x)) w) ∧
      (xs.foldl (fun w x => max w (f x)) w = w ∨
        ∃ x ∈ xs, f x = xs.foldl (fun w x => max w (f x)) w) := by
  induction xs generalizing w with
  | nil => exact ⟨⟨Nat.le_refl w, fun x hx => absurd hx List.not_mem_nil⟩, .inl rfl⟩
  | cons x xs ih =>
    obtain ⟨⟨hfirst, hrest⟩, hattained⟩ := ih (max w (f x))
    rw [List.foldl_cons]
    refine ⟨⟨?_, ?_⟩, ?_⟩
    · omega
    · intro y hy
      rcases List.mem_cons.mp hy with rfl | hy
      · omega
      · exact hrest y hy
    · rcases hattained with hmax | ⟨y, hy, hattained⟩
      · rcases Nat.le_total (f x) w with hle | hle
        · exact .inl (by omega)
        · exact .inr ⟨x, List.mem_cons_self, by omega⟩
      · exact .inr ⟨y, List.mem_cons_of_mem x hy, hattained⟩

private theorem isWidest_width (cell : Cells → List Char) {rs : List Row} {r : Row} (hr : r ∈ rs)
    {c : Cells} (hc : r.cells? = some c) : IsWidest cell rs (width cell rs) := by
  have hmem : ∀ c, c ∈ rs.filterMap (·.cells?) ↔ ∃ r ∈ rs, r.cells? = some c := fun c =>
    List.mem_filterMap
  obtain ⟨⟨-, hle⟩, hattained⟩ :=
    foldl_max_spec (fun c => (cell c).length) (rs.filterMap (·.cells?)) 0
  have hbound : ∀ r ∈ rs, ∀ c, r.cells? = some c → (cell c).length ≤ width cell rs :=
    fun r hr c hc => hle c ((hmem c).mpr ⟨r, hr, hc⟩)
  refine ⟨?_, hbound⟩
  rcases hattained with hzero | ⟨c', hc', hattained⟩
  · -- No cell is wider than nothing, so any of them attains the width.
    have hwidth : width cell rs = 0 := hzero
    have hle := hbound r hr c hc
    exact ⟨r, hr, c, hc, by omega⟩
  · obtain ⟨r', hr', hcells⟩ := (hmem c').mp hc'
    exact ⟨r', hr', c', hcells, hattained⟩

/-! ## Cells in columns -/

/-- The columns of a line, counted in characters, at which its type, its tag and its comment
begin. -/
structure Columns where
  type : Nat
  tag : Nat
  comment : Nat

/-- Whether a line is made of cells that begin at the given columns, its name behind as many tabs
as its depth, with spaces between them and with nothing behind the tag if there is no comment. -/
def Cells.StandIn (c : Cells) (depth : Nat) (columns : Columns) (line : List Char) : Prop :=
  ∃ gap gap' behind,
    line = List.replicate depth '\t' ++ (c.name ++ (List.replicate gap ' ' ++
      (c.type ++ (List.replicate gap' ' ' ++ (c.tag ++ behind))))) ∧
    depth + c.name.length + gap = columns.type ∧
    columns.type + c.type.length + gap' = columns.tag ∧
    match c.comment? with
    | none => behind = []
    | some comment => ∃ gap'', behind = List.replicate gap'' ' ' ++ comment ∧
      columns.tag + c.tag.length + gap'' = columns.comment

/-- The columns of a line at a depth, each one space behind a cell of the given width. -/
def columnsAt (depth : Nat) (w : Widths) : Columns where
  type := depth + w.name + 1
  tag := depth + w.name + 1 + w.type + 1
  comment := depth + w.name + 1 + w.type + 1 + w.tag + 1

private theorem standIn_line {w : Widths} {r : Row} {c : Cells} (hc : r.cells? = some c)
    (hname : c.name.length ≤ w.name) (htype : c.type.length ≤ w.type)
    (htag : c.comment?.isSome = true → c.tag.length ≤ w.tag) :
    c.StandIn r.depth (columnsAt r.depth w) (r.line w) := by
  refine ⟨w.name - c.name.length + 1, w.type - c.type.length + 1, c.behind w, ?_, ?_, ?_, ?_⟩
  · rw [Row.line, content_of_some hc, pad_append_cons]
  · rw [columnsAt]
    dsimp only
    omega
  · rw [columnsAt]
    dsimp only
    omega
  · rw [Cells.behind]
    cases hcomment : c.comment? with
    | none => rfl
    | some comment =>
      have htag := htag (by rw [hcomment]; rfl)
      refine ⟨w.tag - c.tag.length + 1, rfl, ?_⟩
      rw [columnsAt]
      dsimp only
      omega

/-! ## The lines of a run -/

/-- The lines that the rows of a run are written as. -/
def runLines (run : List Row) : List (List Char) :=
  (measuredRun run).map fun p => p.1.line p.2

private theorem IsRun.lines_eq {depth : Nat} {before run after : List Row}
    (h : IsRun depth before run after) (hread : ∀ r ∈ before ++ run ++ after, r.IsRead) :
    ((inkLines (renderRows (before ++ run ++ after))).drop before.length).take run.length =
      runLines run := by
  have hmeasured : measured (before ++ run ++ after) =
      measured before ++ (measuredRun run ++ measured after) := by
    rw [measured, h.splitBy_eq, List.flatMap_append, List.flatMap_append, List.flatMap_singleton,
      List.append_assoc]
    rfl
  have hbefore : (measured before).length = before.length := by
    rw [← List.length_map Prod.fst, fst_measured]
  have hrun : (measuredRun run).length = run.length := by
    rw [← List.length_map Prod.fst, fst_measuredRun]
  rw [inkLines_renderRows hread, hmeasured, List.map_append, List.map_append,
    List.drop_left' (by rw [List.length_map, hbefore]),
    List.take_left' (by rw [List.length_map, hrun])]
  rfl

private theorem exists_of_mem_measuredRun {run : List Row} {r : Row} {w : Widths}
    (h : (r, w) ∈ measuredRun run) : ∃ block, r ∈ block ∧ w = widthsIn run block := by
  obtain ⟨block, -, hr⟩ := List.mem_flatMap.mp h
  obtain ⟨r', hr', heq⟩ := List.mem_map.mp hr
  obtain ⟨rfl, rfl⟩ := Prod.mk.inj heq
  exact ⟨block, hr', rfl⟩

private theorem IsBlock.measuredRun_getElem? {front block back : List Row}
    (h : IsBlock front block back) {k : Nat} {r : Row} (hr : block[k]? = some r) :
    (measuredRun (front ++ block ++ back))[front.length + k]? =
      some (r, widthsIn (front ++ block ++ back) block) := by
  have hfront : ((front.splitBy sameBlock).flatMap fun b =>
      b.map fun r => (r, widthsIn (front ++ block ++ back) b)).length = front.length := by
    rw [← List.length_map Prod.fst, List.map_flatMap]
    simp only [List.map_map, Function.comp_def, List.map_id']
    rw [List.flatMap_id', List.flatten_splitBy]
  rw [measuredRun, h.splitBy_eq, List.flatMap_append, List.flatMap_append, List.flatMap_singleton,
    List.append_assoc, List.getElem?_append_right (by omega), hfront, Nat.add_sub_cancel_left,
    List.getElem?_append_left ?bound, List.getElem?_map, hr, Option.map_some]
  case bound =>
    rw [List.length_map]
    exact (List.getElem?_eq_some_iff.mp hr).1

/-- Whether the lines of a run are aligned: types and tags one space behind the widest name and the
widest type of the run, and the comments of each block one space behind the widest tag of the
block. -/
def IsAligned (depth : Nat) (run : List Row) (lines : List (List Char)) : Prop :=
  ∃ nameWidth typeWidth, IsWidest (·.name) run nameWidth ∧ IsWidest (·.type) run typeWidth ∧
    (∀ (k : Nat) (r : Row) (c : Cells), run[k]? = some r → r.cells? = some c →
      ∃ tagWidth line, lines[k]? = some line ∧
        c.StandIn depth (columnsAt depth ⟨nameWidth, typeWidth, tagWidth⟩) line) ∧
    ∀ front block back, run = front ++ block ++ back → IsBlock front block back →
      ∃ tagWidth, IsWidest (·.tag) block tagWidth ∧
        ∀ (k : Nat) (r : Row) (c : Cells), block[k]? = some r → r.cells? = some c →
          ∃ line, lines[front.length + k]? = some line ∧
            c.StandIn depth (columnsAt depth ⟨nameWidth, typeWidth, tagWidth⟩) line

private theorem isAligned_runLines {depth : Nat} {run : List Row} (hne : run ≠ [])
    (hfield : ∀ r ∈ run, r.IsField depth) : IsAligned depth run (runLines run) := by
  obtain ⟨r₀, hr₀⟩ := List.exists_mem_of_ne_nil run hne
  obtain ⟨c₀, hc₀⟩ := Option.isSome_iff_exists.mp (hfield r₀ hr₀).1
  have hname := isWidest_width (·.name) hr₀ hc₀
  have htype := isWidest_width (·.type) hr₀ hc₀
  have hstand : ∀ (block : List Row) (r : Row) (c : Cells), r ∈ run → r ∈ block →
      r.cells? = some c → c.StandIn depth (columnsAt depth (widthsIn run block))
        (r.line (widthsIn run block)) := by
    intro block r c hr hblock hc
    have htag := (isWidest_width (·.tag) hblock hc).2 r hblock c hc
    have hline := standIn_line (w := widthsIn run block) hc (hname.2 r hr c hc)
      (htype.2 r hr c hc) fun _ => htag
    rwa [(hfield r hr).2] at hline
  refine ⟨_, _, hname, htype, ?_, ?_⟩
  · intro k r c hr hc
    have hmeasured : ((measuredRun run).map Prod.fst)[k]? = some r := by
      rw [fst_measuredRun]
      exact hr
    rw [List.getElem?_map] at hmeasured
    obtain ⟨⟨r', w⟩, hp, rfl⟩ := Option.map_eq_some_iff.mp hmeasured
    obtain ⟨block, hblock, rfl⟩ := exists_of_mem_measuredRun (List.mem_of_getElem? hp)
    refine ⟨width (·.tag) block, r'.line (widthsIn run block), ?_, ?_⟩
    · rw [runLines, List.getElem?_map, hp]
      rfl
    · exact hstand block r' c (List.mem_of_getElem? hr) hblock hc
  · rintro front block back rfl hblock
    obtain ⟨r₁, hr₁⟩ := List.exists_mem_of_ne_nil block hblock.ne_nil
    have hrun : ∀ r ∈ block, r ∈ front ++ block ++ back := fun r hr =>
      List.mem_append_left back (List.mem_append_right front hr)
    obtain ⟨c₁, hc₁⟩ := Option.isSome_iff_exists.mp (hfield r₁ (hrun r₁ hr₁)).1
    refine ⟨_, isWidest_width (·.tag) hr₁ hc₁, ?_⟩
    intro k r c hr hc
    have hmem := List.mem_of_getElem? hr
    refine ⟨r.line (widthsIn (front ++ block ++ back) block), ?_, ?_⟩
    · rw [runLines, List.getElem?_map, hblock.measuredRun_getElem? hr]
      rfl
    · exact hstand block r c (hrun r hmem) hmem hc

/-! ## What lines outside a run have to do with it -/

/-- What a field line is written from: its depth and its cells. -/
def Row.core (r : Row) : Row :=
  { r with gap := false, text := [] }

private theorem width_map_core (cell : Cells → List Char) (rs : List Row) :
    width cell (rs.map Row.core) = width cell rs := by
  rw [width, width, List.filterMap_map]
  rfl

private theorem measuredRun_map_core (run : List Row) :
    measuredRun (run.map Row.core) = (measuredRun run).map fun p => (p.1.core, p.2) := by
  have hblocks : (run.map Row.core).splitBy sameBlock =
      (run.splitBy sameBlock).map (List.map Row.core) := splitBy_map (fun _ _ => rfl) run
  rw [measuredRun, measuredRun, hblocks, List.flatMap_map, List.map_flatMap]
  refine List.flatMap_congr fun block _ => ?_
  have hwidths : widthsIn (run.map Row.core) (block.map Row.core) = widthsIn run block := by
    simp only [widthsIn, width_map_core]
  rw [hwidths, List.map_map, List.map_map]
  rfl

private theorem runLines_congr {depth : Nat} {run run' : List Row} (h : ∀ r ∈ run, r.IsField depth)
    (h' : ∀ r ∈ run', r.IsField depth) (hcells : run'.map (·.cells?) = run.map (·.cells?)) :
    runLines run' = runLines run := by
  have hlines : ∀ run : List Row, (∀ r ∈ run, r.IsField depth) →
      runLines (run.map Row.core) = runLines run := by
    intro run h
    rw [runLines, runLines, measuredRun_map_core, List.map_map]
    refine List.map_congr_left fun p hp => ?_
    have hmem : p.1 ∈ run := by
      rw [← fst_measuredRun run]
      exact List.mem_map_of_mem hp
    obtain ⟨c, hc⟩ := Option.isSome_iff_exists.mp (h p.1 hmem).1
    have hcore : p.1.core.cells? = some c := hc
    simp only [Function.comp_apply, Row.line, Row.content, hc, hcore]
    rfl
  have hcore : ∀ run : List Row, (∀ r ∈ run, r.IsField depth) →
      run.map Row.core = (run.map (·.cells?)).map fun cells? => ⟨false, depth, [], cells?⟩ := by
    intro run h
    rw [List.map_map]
    refine List.map_congr_left fun r hr => ?_
    rw [Row.core, (h r hr).2]
    rfl
  rw [← hlines run' h', hcore run' h', hcells, ← hcore run h, hlines run h]

/-- The rows of a text that has a layout are its lines that are not blank.  In the layout each run
of field lines is aligned, and its lines are those that any other text has in its layout for a run
of the same cells at the same depth. -/
theorem layout_aligned {source out : List Char} (h : layout source = .ok out) :
    ∃ rs, rows source = .ok rs ∧ rs.map (·.text) = (inkLines source).map Text.trim ∧
      ∀ depth before run after, rs = before ++ run ++ after → IsRun depth before run after →
        IsAligned depth run (((inkLines out).drop before.length).take run.length) ∧
        ∀ source' out' before' run' after', layout source' = .ok out' →
          rows source' = .ok (before' ++ run' ++ after') → IsRun depth before' run' after' →
          run'.map (·.cells?) = run.map (·.cells?) →
            ((inkLines out').drop before'.length).take run'.length =
              ((inkLines out).drop before.length).take run.length := by
  obtain ⟨rs, hrows, rfl⟩ := map_eq_ok_iff.mp h
  refine ⟨rs, hrows, text_rows hrows, ?_⟩
  rintro depth before run after rfl hrun
  rw [hrun.lines_eq (isRead_of_mem_rows hrows)]
  refine ⟨isAligned_runLines hrun.ne_nil hrun.field, ?_⟩
  intro source' out' before' run' after' h' hrows' hrun' hcells
  rw [layout, hrows'] at h'
  obtain rfl := Except.ok.inj h'
  rw [hrun'.lines_eq (isRead_of_mem_rows hrows')]
  exact runLines_congr hrun.field hrun'.field hcells

/-- A text with a field line that has a comment and one that has none. -/
def fieldsText : List Char :=
  "A struct \x7b\nAb int `a` // x\nC string `b`\n\x7d".toList

/-- The text with a longer field line above the two, and a blank line between. -/
def moreFieldsText : List Char :=
  "A struct \x7b\nLong int `l`\n\nAb int `a` // x\nC string `b`\n\x7d".toList

/-- The row of a line that opens or closes a block. -/
def braceRow (text : String) : Row where
  gap := false
  depth := 0
  text := text.toList
  cells? := none

/-- The row of a field line in a block. -/
def fieldRow (gap : Bool) (text name type tag : String) (comment? : Option String) : Row where
  gap
  depth := 1
  text := text.toList
  cells? := some ⟨name.toList, type.toList, tag.toList, comment?.map (·.toList)⟩

/-- The rows of the two field lines. -/
def fieldRows (gap : Bool) : List Row :=
  [fieldRow gap "Ab int `a` // x" "Ab" "int" "`a`" (some "// x"),
   fieldRow false "C string `b`" "C" "string" "`b`" none]

/-- The two field lines are aligned, and those above the blank line do not change that. -/
theorem layout_aligned_fieldsText :
    ∃ out out', layout fieldsText = .ok out ∧ layout moreFieldsText = .ok out' ∧
      IsAligned 1 (fieldRows false) (((inkLines out).drop 1).take 2) ∧
      ((inkLines out').drop 2).take 2 = ((inkLines out).drop 1).take 2 := by
  have hlayout : ∀ {source rs}, rows source = .ok rs → layout source = .ok (renderRows rs) :=
    fun hrows => map_eq_ok_iff.mpr ⟨_, hrows, rfl⟩
  have hrows : rows fieldsText =
      .ok ([braceRow "A struct \x7b"] ++ fieldRows false ++ [braceRow "\x7d"]) := by
    decide +kernel
  have hrows' : rows moreFieldsText =
      .ok ([braceRow "A struct \x7b", fieldRow false "Long int `l`" "Long" "int" "`l`" none] ++
        fieldRows true ++ [braceRow "\x7d"]) := by
    decide +kernel
  have hrun : IsRun 1 [braceRow "A struct \x7b"] (fieldRows false) [braceRow "\x7d"] := by
    constructor <;> simp [fieldRows, fieldRow, braceRow, Row.IsField]
  have hrun' : IsRun 1
      [braceRow "A struct \x7b", fieldRow false "Long int `l`" "Long" "int" "`l`" none]
      (fieldRows true) [braceRow "\x7d"] := by
    constructor <;> simp [fieldRows, fieldRow, braceRow, Row.IsField]
  obtain ⟨rs, hrs, -, haligned⟩ := layout_aligned (hlayout hrows)
  rw [hrows] at hrs
  obtain ⟨hlines, hsame⟩ := haligned 1 _ _ _ (Except.ok.inj hrs).symm hrun
  exact ⟨_, _, hlayout hrows, hlayout hrows', hlines,
    hsame _ _ _ _ _ (hlayout hrows') hrows' hrun' rfl⟩

end Exemplar.Struct
