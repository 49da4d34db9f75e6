import Exemplar.Proofs.Struct.Columns

/-!
# Lines with other gaps

What is read off a line does not depend on the blanks between its cells.  The main statement: the
content that a row is written with is read as the row itself, with the same cells, and it opens and
closes the blocks that the text of the row does.
-/

namespace Exemplar.Struct

/-! ## The search for comments -/

/-- Whether a search for comments can be in a state: outside of quotes or in one of the two
kinds. -/
def IsQuotation (q : Option Char) : Prop :=
  ∀ c ∈ q, c = '"' ∨ c = tick

/-- Whether the search for a comment finds the same characters before it in two texts, or none in
both, whatever state it begins in. -/
def SameBefore (xs ys : List Char) : Prop :=
  ∀ q, IsQuotation q →
    (beforeComment? q xs).map Text.ink = (beforeComment? q ys).map Text.ink

/-- Whether a text begins with a character that neither quotes nor escapes nor begins a comment, if
it begins with one. -/
def BeginsInert (cs : List Char) : Prop :=
  ∀ c ∈ cs.head?, c ≠ '/' ∧ c ≠ '"' ∧ c ≠ '\\'

private theorem map_ink_behind (xs : List Char) {found? found?' : Option (List Char)}
    (h : found?.map Text.ink = found?'.map Text.ink) :
    (found?.map (xs ++ ·)).map Text.ink = (found?'.map (xs ++ ·)).map Text.ink := by
  have hbehind : ∀ ys? : Option (List Char), (ys?.map (xs ++ ·)).map Text.ink =
      (ys?.map Text.ink).map (Text.ink xs ++ ·) := by
    intro ys?
    rw [Option.map_map, Option.map_map]
    congr 1
    funext ys
    exact Text.ink_append xs ys
  rw [hbehind, hbehind, h]

private theorem Scans.map_ink {q q' : Option Char} {xs ys zs : List Char} (h : Scans q xs q')
    (hsame : (beforeComment? q' ys).map Text.ink = (beforeComment? q' zs).map Text.ink) :
    (beforeComment? q (xs ++ ys)).map Text.ink = (beforeComment? q (xs ++ zs)).map Text.ink := by
  rw [h, h]
  exact map_ink_behind xs hsame

private theorem beforeComment?_none_cons (c : Char) (cs : List Char) :
    beforeComment? none (c :: cs) =
      if c = '/' ∧ cs.head? = some '/' then some []
      else (beforeComment? (if c = '"' ∨ c = tick then some c else none) cs).map ([c] ++ ·) := by
  rw [beforeComment?.eq_def]
  rfl

private theorem beforeComment?_escape {cs : List Char} (h : BeginsInert cs) :
    beforeComment? (some '"') ('\\' :: cs) =
      (beforeComment? (some '"') cs).map (['\\'] ++ ·) := by
  cases cs with
  | nil => rfl
  | cons d ds =>
    obtain ⟨-, hquote, hescape⟩ := h d rfl
    have hnext := Scans.quoted (c := '"') (d := d) fun h => hescape h.1
    rw [if_neg hquote] at hnext
    change beforeComment? (some '"') (['\\', d] ++ ds) =
      (beforeComment? (some '"') ([d] ++ ds)).map (['\\'] ++ ·)
    rw [Scans.escaped, hnext, Option.map_map]
    rfl

private theorem SameBefore.append {ys zs : List Char} (h : SameBefore ys zs) (hy : BeginsInert ys)
    (hz : BeginsInert zs) : ∀ xs, SameBefore (xs ++ ys) (xs ++ zs)
  | [] => h
  | c :: xs => by
    intro q hq
    cases q with
    | none =>
      have hstate : IsQuotation (if c = '"' ∨ c = tick then some c else none) := by
        intro d hd
        split at hd
        · next hc => exact Option.some.inj hd ▸ hc
        · cases hd
      have hhead : (xs ++ ys).head? = some '/' ↔ (xs ++ zs).head? = some '/' := by
        cases xs with
        | nil => exact iff_of_false (fun h => (hy '/' h).1 rfl) fun h => (hz '/' h).1 rfl
        | cons x xs => exact Iff.rfl
      have hrest := SameBefore.append h hy hz xs _ hstate
      rw [List.cons_append, List.cons_append, beforeComment?_none_cons, beforeComment?_none_cons,
        if_congr (and_congr_right' hhead) rfl rfl]
      split
      · rfl
      · exact map_ink_behind [c] hrest
    | some q =>
      by_cases hescape : c = '\\' ∧ q = '"'
      · obtain ⟨rfl, rfl⟩ := hescape
        cases xs with
        | nil =>
          -- The escape passes over the first character of what follows the text.
          rw [List.singleton_append, List.singleton_append, beforeComment?_escape hy,
            beforeComment?_escape hz]
          exact map_ink_behind _ (h _ hq)
        | cons d xs => exact (Scans.escaped d).map_ink (SameBefore.append h hy hz xs _ hq)
      · have hstate : IsQuotation (if c = q then none else some q) := by
          intro d hd
          split at hd
          · cases hd
          · exact hq d hd
        exact (Scans.quoted hescape).map_ink (SameBefore.append h hy hz xs _ hstate)
termination_by xs => xs.length

private theorem sameBefore_blank_append {blanks : List Char}
    (h : ∀ c ∈ blanks, Text.isBlank c = true) (xs : List Char) : SameBefore (blanks ++ xs) xs := by
  intro q hq
  have hscans : Scans q blanks q := by
    cases q with
    | none =>
      refine .of_code fun c hc => ⟨?_, ?_, ?_⟩ <;> rintro rfl <;> exact absurd (h _ hc) (by decide)
    | some q =>
      refine .of_quoted fun c hc => ⟨?_, ?_⟩
      · rintro rfl
        rcases hq c rfl with rfl | rfl <;> exact absurd (h _ hc) (by decide)
      · rintro ⟨rfl, -⟩
        exact absurd (h _ hc) (by decide)
  rw [hscans, Option.map_map]
  congr 1
  funext found
  change Text.ink (blanks ++ found) = _
  rw [Text.ink_append, Text.ink_eq_nil_iff.mpr h, List.nil_append]

private theorem SameBefore.gaps {blanks blanks' xs ys : List Char}
    (h : ∀ c ∈ blanks, Text.isBlank c = true) (h' : ∀ c ∈ blanks', Text.isBlank c = true)
    (hsame : SameBefore xs ys) : SameBefore (blanks ++ xs) (blanks' ++ ys) := fun q hq =>
  (sameBefore_blank_append h xs q hq).trans
    ((hsame q hq).trans (sameBefore_blank_append h' ys q hq).symm)

private theorem SameBefore.tick_cons {xs ys : List Char} (h : SameBefore xs ys) :
    SameBefore (tick :: xs) (tick :: ys) := by
  intro q hq
  cases q with
  | none =>
    have hopen : Scans none [tick] (some tick) := .code (c := tick) (by decide)
    exact hopen.map_ink (h _ fun c hc => .inr (Option.some.inj hc).symm)
  | some q =>
    have hnext : Scans (some q) [tick] (if tick = q then none else some q) :=
      .quoted fun h => absurd h.1 (by decide)
    refine hnext.map_ink (h _ ?_)
    intro c hc
    split at hc
    · cases hc
    · exact hq c hc

private theorem beginsInert_blank_append {blanks : List Char}
    (h : ∀ c ∈ blanks, Text.isBlank c = true)
    {xs : List Char} (hxs : blanks = [] → BeginsInert xs) : BeginsInert (blanks ++ xs) := by
  cases blanks with
  | nil => exact hxs rfl
  | cons b blanks =>
    intro c hc
    obtain rfl := Option.some.inj hc
    refine ⟨?_, ?_, ?_⟩ <;> rintro rfl <;> exact absurd (h _ List.mem_cons_self) (by decide)

private theorem beginsInert_tick (xs : List Char) : BeginsInert (tick :: xs) := by
  intro c hc
  obtain rfl := Option.some.inj hc
  decide

/-! ## The words before a tag -/

private theorem exists_gaps {before : List Char} (htype : typeOf before ≠ []) :
    ∃ gap blanks, before = nameOf before ++ (gap ++ (typeOf before ++ blanks)) ∧ gap ≠ [] ∧
      (∀ c ∈ gap, Text.isBlank c = true) ∧ ∀ c ∈ blanks, Text.isBlank c = true := by
  obtain ⟨behind, hbehind⟩ : ∃ behind, Text.trimEnd before = nameOf before ++ behind := by
    obtain ⟨behind, h⟩ : nameOf before <+: Text.trimEnd before := List.takeWhile_prefix _
    exact ⟨behind, h.symm⟩
  have hword : behind = (Text.trimEnd before).dropWhile fun c => !Text.isBlank c := by
    refine (List.append_right_inj (nameOf before)).mp (hbehind.symm.trans ?_)
    exact List.takeWhile_append_dropWhile.symm
  have hof : typeOf before = Text.trim behind := by rw [typeOf, hbehind, List.drop_left]
  rw [hof] at htype ⊢
  have htrimmed : Text.trimEnd behind = behind := by
    have hends := Text.trimEnd_trimEnd before
    rw [hbehind, Text.trimEnd_append] at hends
    split at hends
    · next hnil =>
      exact absurd (Text.trim_eq_nil_iff.mpr (Text.trimEnd_eq_nil_iff.mp hnil)) htype
    · exact List.append_cancel_left hends
  refine ⟨Text.startBlanks behind, Text.endBlanks before, ?_, ?_,
    fun _ => Text.isBlank_of_mem_startBlanks, fun _ => Text.isBlank_of_mem_endBlanks⟩
  · rw [Text.trim_of_trimEnd_eq htrimmed, ← List.append_assoc (Text.startBlanks behind),
      Text.startBlanks_append_trimStart, ← List.append_assoc, ← hbehind,
      Text.trimEnd_append_endBlanks]
  · cases hcons : behind with
    | nil => exact absurd (by rw [hcons]; rfl) htype
    | cons c cs =>
      have hhead := List.head?_dropWhile_not (fun c => !Text.isBlank c) (Text.trimEnd before)
      rw [← hword, hcons] at hhead
      rw [Text.startBlanks, List.takeWhile_cons_of_pos (by simpa using hhead)]
      exact List.cons_ne_nil _ _

private theorem nameOf_typeOf_append {name gap type blanks : List Char}
    (hname : ∀ c ∈ name, Text.isBlank c = false) (hne : gap ≠ [])
    (hgap : ∀ c ∈ gap, Text.isBlank c = true) (htype : Text.IsSolid type)
    (hblanks : ∀ c ∈ blanks, Text.isBlank c = true) :
    nameOf (name ++ (gap ++ (type ++ blanks))) = name ∧
      typeOf (name ++ (gap ++ (type ++ blanks))) = type := by
  have hend : Text.trimEnd (name ++ (gap ++ (type ++ blanks))) = name ++ (gap ++ type) := by
    rw [← List.append_assoc gap, ← List.append_assoc name, Text.trimEnd_append,
      if_pos (Text.trimEnd_eq_nil_iff.mpr hblanks), ((htype.2.append gap).append name).trimEnd_eq]
  have hof : nameOf (name ++ (gap ++ (type ++ blanks))) = name := by
    rw [nameOf, hend, List.takeWhile_append_of_pos fun c hc => by simp [hname c hc]]
    cases gap with
    | nil => exact absurd rfl hne
    | cons b gap =>
      rw [List.cons_append, List.takeWhile_cons_of_neg (by simp [hgap b List.mem_cons_self]),
        List.append_nil]
  refine ⟨hof, ?_⟩
  rw [typeOf, hof, hend, List.drop_left, Text.trim_blank_append hgap, htype.trim_eq]

/-! ## The content of rows -/

/-- A row with cells: its text and its content are the same but for the blanks between the cells,
and for the blanks before and behind the tag. -/
structure RespacedRow (w : Widths) (r : Row) (c : Cells)
    (gap gap' blanks blanks' body after : List Char) : Prop where
  text_eq : r.text = c.name ++ (gap ++ (c.type ++ (blanks ++ tick :: (body ++ tick :: after))))
  content_eq : r.content w =
    c.name ++ (gap' ++ (c.type ++ (blanks' ++ tick :: (body ++ tick :: c.behind w))))
  cells_eq : c = cellsOf (c.name ++ (gap ++ (c.type ++ blanks))) body after
  name_solid : ∀ d ∈ c.name, Text.isBlank d = false
  type_solid : Text.IsSolid c.type
  tick_notMem_before : tick ∉ c.name ++ (gap ++ (c.type ++ blanks))
  tick_notMem_body : tick ∉ body
  endsRow : EndsRow after
  gap_ne_nil : gap ≠ []
  gap_ne_nil' : gap' ≠ []
  gap_blank : ∀ d ∈ gap, Text.isBlank d = true
  gap_blank' : ∀ d ∈ gap', Text.isBlank d = true
  blanks_blank : ∀ d ∈ blanks, Text.isBlank d = true
  blanks_blank' : ∀ d ∈ blanks', Text.isBlank d = true

private theorem isBlank_of_mem_spaces {n : Nat} {d : Char} (h : d ∈ List.replicate n ' ') :
    Text.isBlank d = true := by
  rw [List.eq_of_mem_replicate h]
  decide

/-- The text and the content of a row with cells are of this form. -/
theorem Row.IsRead.exists_respaced {r : Row} (h : r.IsRead) {c : Cells} (hc : r.cells? = some c)
    (w : Widths) :
    ∃ gap gap' blanks blanks' body after, RespacedRow w r c gap gap' blanks blanks' body after := by
  obtain ⟨before, body, after, htext, hbefore, hbody, htype, hends, rfl⟩ :=
    exists_of_cells? (h.cells?_of_some hc)
  obtain ⟨gap, blanks, hgaps, hne, hgap, hblanks⟩ := exists_gaps htype
  have hcells : cellsOf before body after =
      cellsOf (nameOf before ++ (gap ++ (typeOf before ++ blanks))) body after := by
    rw [← hgaps]
  refine ⟨gap, List.replicate (w.name - (nameOf before).length + 1) ' ', blanks,
    List.replicate (w.type - (typeOf before).length + 1) ' ', body, after, {
      text_eq := ?_
      content_eq := ?_
      cells_eq := hcells
      name_solid := fun d hd => by simpa using List.mem_takeWhile_imp hd
      type_solid := Text.isSolid_trim htype
      tick_notMem_before := hgaps ▸ hbefore
      tick_notMem_body := hbody
      endsRow := hends
      gap_ne_nil := hne
      gap_ne_nil' := List.cons_ne_nil _ _
      gap_blank := hgap
      gap_blank' := fun _ => isBlank_of_mem_spaces
      blanks_blank := hblanks
      blanks_blank' := fun _ => isBlank_of_mem_spaces }⟩
  · rw [htext]
    conv_lhs => rw [hgaps]
    simp only [cellsOf, List.append_assoc]
  · rw [content_of_some hc, pad_append_cons]
    simp only [cellsOf, List.append_assoc, List.cons_append, List.nil_append]

private theorem exists_behind_eq (w : Widths) (before body after : List Char) :
    ∃ blanks, (∀ d ∈ blanks, Text.isBlank d = true) ∧
      (cellsOf before body after).behind w = blanks ++ Text.trim after := by
  rw [Cells.behind, cellsOf]
  by_cases hnil : Text.trim after = []
  · exact ⟨[], fun d hd => (by cases hd), by rw [if_pos hnil, hnil]; rfl⟩
  · exact ⟨_, fun _ => isBlank_of_mem_spaces, by rw [if_neg hnil]⟩

private theorem endsSolid_tag_append_behind (w : Widths) (before body after : List Char) :
    Text.EndsSolid ((cellsOf before body after).tag ++ (cellsOf before body after).behind w) := by
  rw [Cells.behind, cellsOf]
  by_cases hnil : Text.trim after = []
  · rw [if_pos hnil]
    exact ⟨tick :: body, tick, by simp, by decide⟩
  · rw [if_neg hnil]
    exact ((Text.isSolid_trim hnil).2.append _).append _

namespace RespacedRow

variable {w : Widths} {r : Row} {c : Cells} {gap gap' blanks blanks' body after : List Char}

/-- The cells of the content are those of the row. -/
theorem cells?_content (h : RespacedRow w r c gap gap' blanks blanks' body after) :
    cells? (r.content w) = some c := by
  obtain ⟨spaces, hspaces, hbehind⟩ :=
    exists_behind_eq w (c.name ++ (gap ++ (c.type ++ blanks))) body after
  rw [← h.cells_eq] at hbehind
  have hafter : Text.trim (c.behind w) = Text.trim after := by
    rw [hbehind, Text.trim_blank_append hspaces, Text.trim_trim]
  obtain ⟨hname, htype⟩ := nameOf_typeOf_append h.name_solid h.gap_ne_nil h.gap_blank h.type_solid
    h.blanks_blank
  obtain ⟨hname', htype'⟩ := nameOf_typeOf_append h.name_solid h.gap_ne_nil' h.gap_blank'
    h.type_solid h.blanks_blank'
  have hbefore : tick ∉ c.name ++ (gap' ++ (c.type ++ blanks')) := by
    have hnot := h.tick_notMem_before
    have hgap : tick ∉ gap' := fun hd => absurd (h.gap_blank' _ hd) (by decide)
    have hblanks : tick ∉ blanks' := fun hd => absurd (h.blanks_blank' _ hd) (by decide)
    simp only [List.mem_append, not_or] at hnot ⊢
    exact ⟨hnot.1, hgap, hnot.2.2.1, hblanks⟩
  have hcut : r.content w = (c.name ++ (gap' ++ (c.type ++ blanks'))) ++
      tick :: (body ++ tick :: c.behind w) := by
    rw [h.content_eq]
    simp only [List.append_assoc]
  rw [hcut, cells?_append hbefore h.tick_notMem_body, EndsRow, hafter, htype']
  refine ⟨?_, h.endsRow, ?_⟩
  · obtain ⟨d, rest, hd, -⟩ := h.type_solid.1
    rw [hd]
    exact List.cons_ne_nil _ _
  · conv_lhs => rw [h.cells_eq]
    rw [cellsOf, cellsOf, hname, htype, hname', htype', hafter]

private theorem sameBefore (h : RespacedRow w r c gap gap' blanks blanks' body after)
    (hread : r.IsRead) : SameBefore (r.content w) r.text := by
  obtain ⟨spaces, hspaces, hbehind⟩ :=
    exists_behind_eq w (c.name ++ (gap ++ (c.type ++ blanks))) body after
  rw [← h.cells_eq] at hbehind
  have hafter : after = Text.startBlanks after ++ Text.trim after := by
    have hends : Text.trimEnd r.text = r.text := by
      rw [← hread.trimmed, Text.trim, Text.trimEnd_trimEnd]
    have hfront : Text.EndsSolid
        ((c.name ++ (gap ++ (c.type ++ blanks))) ++ tick :: (body ++ [tick])) :=
      ⟨_, tick, (List.append_assoc _ (tick :: body) [tick]).symm, by decide⟩
    have hcut : r.text = ((c.name ++ (gap ++ (c.type ++ blanks))) ++
        tick :: (body ++ [tick])) ++ after := by
      rw [h.text_eq]
      simp only [List.append_assoc, List.cons_append, List.nil_append]
    rw [hcut] at hends
    rw [Text.trim_of_trimEnd_eq (Text.trimEnd_of_append hends hfront.trimEnd_eq),
      Text.startBlanks_append_trimStart]
  have hcomment : SameBefore (c.behind w) after := by
    rw [hbehind]
    conv_rhs => rw [hafter]
    exact .gaps hspaces (fun _ => Text.isBlank_of_mem_startBlanks) fun _ _ => rfl
  have htag : SameBefore (blanks' ++ tick :: (body ++ tick :: c.behind w))
      (blanks ++ tick :: (body ++ tick :: after)) :=
    .gaps h.blanks_blank' h.blanks_blank
      (hcomment.tick_cons.append (beginsInert_tick _) (beginsInert_tick _) body).tick_cons
  have htype := htag.append
    (beginsInert_blank_append h.blanks_blank' fun _ => beginsInert_tick _)
    (beginsInert_blank_append h.blanks_blank fun _ => beginsInert_tick _) c.type
  rw [h.content_eq, h.text_eq]
  exact (SameBefore.gaps h.gap_blank' h.gap_blank htype).append
    (beginsInert_blank_append h.gap_blank' fun hnil => absurd hnil h.gap_ne_nil')
    (beginsInert_blank_append h.gap_blank fun hnil => absurd hnil h.gap_ne_nil) c.name

end RespacedRow

/-! ## The code of content -/

private theorem prefix_of_beforeComment? {q : Option Char} {xs before : List Char}
    (h : beforeComment? q xs = some before) : before <+: xs := by
  fun_induction beforeComment? q xs generalizing before with
  | case1 => cases h
  | case2 q c hescape => cases h
  | case3 q c hescape d ds ih =>
    obtain ⟨found, hfound, rfl⟩ := Option.map_eq_some_iff.mp h
    exact List.prefix_cons_inj c |>.mpr (List.prefix_cons_inj d |>.mpr (ih hfound))
  | case4 q c cs hescape ih =>
    obtain ⟨found, hfound, rfl⟩ := Option.map_eq_some_iff.mp h
    exact List.prefix_cons_inj c |>.mpr (ih hfound)
  | case5 c cs hslash =>
    obtain rfl := Option.some.inj h
    exact List.nil_prefix
  | case6 c cs hslash ih =>
    obtain ⟨found, hfound, rfl⟩ := Option.map_eq_some_iff.mp h
    exact List.prefix_cons_inj c |>.mpr (ih hfound)

private theorem codePart_eq_nil_or_isSolid {xs : List Char} (h : Text.trim xs = xs) :
    codePart xs = [] ∨ Text.IsSolid (codePart xs) := by
  by_cases hnil : xs = []
  · exact .inl (by rw [hnil]; rfl)
  have hsolid : Text.IsSolid xs := h ▸ Text.isSolid_trim (by rwa [h])
  rw [codePart]
  cases hbefore : beforeComment? none xs with
  | none => exact .inr hsolid
  | some before =>
    dsimp only
    by_cases hcode : Text.trimEnd before = []
    · exact .inl hcode
    · refine .inr ⟨?_, Text.endsSolid_of_trimEnd_eq (Text.trimEnd_trimEnd before) hcode⟩
      obtain ⟨c, rest, rfl, hc⟩ := hsolid.1
      cases before with
      | nil => exact absurd rfl hcode
      | cons d before =>
        obtain ⟨rfl, -⟩ := List.cons_prefix_cons.mp (prefix_of_beforeComment? hbefore)
        exact Text.BeginsSolid.trimEnd ⟨_, _, rfl, hc⟩

private theorem ends_codePart {xs : List Char} (h : Text.trim xs = xs) :
    (codePart xs).head? = (Text.ink (codePart xs)).head? ∧
      (codePart xs).getLast? = (Text.ink (codePart xs)).getLast? := by
  rcases codePart_eq_nil_or_isSolid h with hnil | ⟨⟨c, rest, hbegin, hc⟩, rest', d, hend, hd⟩
  · rw [hnil]
    exact ⟨rfl, rfl⟩
  · constructor
    · rw [hbegin, Text.ink_cons_of_not_blank hc]
      rfl
    · rw [hend, Text.ink_append, Text.ink_cons_of_not_blank hd, List.getLast?_append,
        List.getLast?_append]
      rfl

private theorem SameBefore.ink_codePart {xs ys : List Char} (h : SameBefore xs ys)
    (hink : Text.ink xs = Text.ink ys) : Text.ink (codePart xs) = Text.ink (codePart ys) := by
  have hsame := h none fun c hc => by cases hc
  unfold codePart
  cases hx : beforeComment? none xs with
  | none =>
    rw [hx, Option.map_none, eq_comm, Option.map_eq_none_iff] at hsame
    rw [hsame]
    exact hink
  | some before =>
    rw [hx, Option.map_some, eq_comm, Option.map_eq_some_iff] at hsame
    obtain ⟨before', hy, hbefore⟩ := hsame
    rw [hy]
    dsimp only
    rw [Text.ink_trimEnd, Text.ink_trimEnd, hbefore]

namespace Row.IsRead

variable {r : Row}

/-- The content of a row that was read has no blanks at its ends. -/
theorem trim_content (h : r.IsRead) (w : Widths) : Text.trim (r.content w) = r.content w := by
  cases hcells : r.cells? with
  | none =>
    rw [Row.content, hcells]
    exact h.trimmed
  | some c =>
    obtain ⟨before, body, after, -, -, -, -, -, rfl⟩ :=
      exists_of_cells? (h.cells?_of_some hcells)
    have hends := endsSolid_tag_append_behind w before body after
    refine Text.IsSolid.trim_eq ⟨beginsSolid_content w h, ?_⟩
    rw [content_of_some hcells]
    exact (((hends.append _).append _).append [' ']).append _

private theorem ink_codePart_content (h : r.IsRead) (w : Widths) :
    Text.ink (codePart (r.content w)) = Text.ink (codePart r.text) := by
  cases hcells : r.cells? with
  | none => rw [Row.content, hcells]
  | some c =>
    obtain ⟨gap, gap', blanks, blanks', body, after, hrespaced⟩ := h.exists_respaced hcells w
    exact (hrespaced.sameBefore h).ink_codePart (ink_content w h)

/-- The content of a row closes a block if its text does. -/
theorem closes_codePart_content (h : r.IsRead) (w : Widths) :
    closes (codePart (r.content w)) = closes (codePart r.text) := by
  rw [closes, closes, (ends_codePart (h.trim_content w)).1, (ends_codePart h.trimmed).1,
    h.ink_codePart_content w]

/-- The content of a row opens a block if its text does. -/
theorem opens_codePart_content (h : r.IsRead) (w : Widths) :
    opens (codePart (r.content w)) = opens (codePart r.text) := by
  rw [opens, opens, (ends_codePart (h.trim_content w)).2, (ends_codePart h.trimmed).2,
    h.ink_codePart_content w]

end Row.IsRead

end Exemplar.Struct
