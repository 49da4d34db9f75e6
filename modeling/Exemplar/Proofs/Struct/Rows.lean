import Exemplar.Proofs.Struct.Types

/-!
# Rows of struct declarations

How the lines of a file are read as rows.  What texts do to the depth is put together from what
each line does.  The main statement: a file that is written can be laid out, and its rows are its
lines, each at the number of blocks around it.
-/

namespace Exemplar.Struct

/-! ## Reading lines one by one -/

/-- No lines are read as no rows, where no block is open. -/
theorem rowsFrom_nil_eq_ok_iff {number depth : Nat} {started gap : Bool} {rs : List Row} :
    rowsFrom number depth started gap [] = .ok rs ↔ depth = 0 ∧ rs = [] := by
  rw [rowsFrom]
  split
  · next hdepth => simp [hdepth, eq_comm]
  · next hdepth => simp [hdepth]

/-- A blank line is passed over. -/
theorem rowsFrom_blank {l : List Char} (h : Text.trim l = []) (number depth : Nat)
    (started gap : Bool) (ls : List (List Char)) :
    rowsFrom number depth started gap (l :: ls) =
      rowsFrom (number + 1) depth started started ls := by
  rw [rowsFrom]
  exact if_pos h

private theorem rowsFrom_line {l : List Char} (h : Text.trim l ≠ []) (number depth : Nat)
    (started gap : Bool) (ls : List (List Char)) :
    rowsFrom number (depth + if closes (codePart (Text.trim l)) then 1 else 0) started gap
        (l :: ls) =
      (rowsFrom (number + 1) (depth + if opens (codePart (Text.trim l)) then 1 else 0) true false
        ls).map ({ gap, depth, text := Text.trim l
                   cells? := if opens (codePart (Text.trim l)) then none
                     else cells? (Text.trim l) } :: ·) := by
  rw [rowsFrom]
  dsimp only
  rw [if_neg h]
  cases hcloses : closes (codePart (Text.trim l)) <;>
    cases hopens : opens (codePart (Text.trim l)) <;> simp

/-- The rows of lines that begin with one that is not blank are its row, behind the block that it
closes, and those of the lines after it. -/
theorem rowsFrom_cons_eq_ok_iff {l : List Char} (h : Text.trim l ≠ []) {number depth : Nat}
    {started gap : Bool} {ls : List (List Char)} {rs : List Row} :
    rowsFrom number depth started gap (l :: ls) = .ok rs ↔
      ∃ depth' rs', depth = depth' + (if closes (codePart (Text.trim l)) then 1 else 0) ∧
        rowsFrom (number + 1) (depth' + if opens (codePart (Text.trim l)) then 1 else 0) true false
          ls = .ok rs' ∧
        rs = { gap, depth := depth', text := Text.trim l
               cells? := if opens (codePart (Text.trim l)) then none
                 else cells? (Text.trim l) } :: rs' := by
  constructor
  · intro hrows
    obtain ⟨depth', rfl⟩ : ∃ depth',
        depth = depth' + if closes (codePart (Text.trim l)) then 1 else 0 := by
      rw [rowsFrom] at hrows
      dsimp only at hrows
      rw [if_neg h] at hrows
      split at hrows
      · cases hrows
      · next hopen =>
        refine ⟨_, (Nat.sub_add_cancel ?_).symm⟩
        split
        · next hcloses =>
          exact Nat.one_le_iff_ne_zero.mpr fun hdepth => hopen ⟨hcloses, hdepth⟩
        · exact Nat.zero_le depth
    rw [rowsFrom_line h] at hrows
    obtain ⟨rs', hrs', rfl⟩ := map_eq_ok_iff.mp hrows
    exact ⟨depth', rs', rfl, hrs', rfl⟩
  · rintro ⟨depth', rs', rfl, hrs', rfl⟩
    rw [rowsFrom_line h, hrs']
    rfl

/-! ## What a row holds -/

/-- Whether a row holds a line as it was read: trimmed, not blank, without line feeds, and with the
cells of its text unless it opens a block. -/
structure Row.IsRead (r : Row) : Prop where
  ne_nil : r.text ≠ []
  trimmed : Text.trim r.text = r.text
  lineFeed_notMem : '\n' ∉ r.text
  cells?_eq : r.cells? = if opens (codePart r.text) then none else Struct.cells? r.text

private theorem isRead_of_mem_rowsFrom {number depth : Nat} {started gap : Bool}
    {ls : List (List Char)} {rs : List Row} (h : rowsFrom number depth started gap ls = .ok rs)
    (hls : ∀ l ∈ ls, '\n' ∉ l) : ∀ r ∈ rs, r.IsRead := by
  induction ls generalizing number depth started gap rs with
  | nil =>
    obtain ⟨-, rfl⟩ := rowsFrom_nil_eq_ok_iff.mp h
    exact fun r hr => by cases hr
  | cons l ls ih =>
    have hrest : ∀ l' ∈ ls, '\n' ∉ l' := fun l' hl' => hls l' (List.mem_cons_of_mem l hl')
    by_cases hblank : Text.trim l = []
    · rw [rowsFrom_blank hblank] at h
      exact ih h hrest
    · obtain ⟨depth', rs', -, hrs', rfl⟩ := (rowsFrom_cons_eq_ok_iff hblank).mp h
      intro r hr
      rcases List.mem_cons.mp hr with rfl | hr
      · exact {
          ne_nil := hblank
          trimmed := Text.trim_trim l
          lineFeed_notMem := fun hfeed => hls l List.mem_cons_self (Text.mem_of_mem_trim hfeed)
          cells?_eq := rfl }
      · exact ih hrs' hrest r hr

/-- The rows of a text hold its lines as they were read. -/
theorem isRead_of_mem_rows {source : List Char} {rs : List Row} (h : rows source = .ok rs) :
    ∀ r ∈ rs, r.IsRead :=
  isRead_of_mem_rowsFrom h fun _ => Text.lineFeed_notMem_of_mem_lines

/-! ## What texts do to the depth -/

/-- Whether texts lead from one depth to another through rows of given depths and texts, whatever
stands before and behind them. -/
def Leads (texts : List (List Char)) (depth : Nat) (rows : List (Nat × List Char))
    (depth' : Nat) : Prop :=
  ∀ number started gap, ∃ number' started' gap', ∃ rs : List Row,
    rs.map (fun r => (r.depth, r.text)) = rows ∧
      ∀ rest, rowsFrom number depth started gap (texts ++ rest) =
        (rowsFrom number' depth' started' gap' rest).map (rs ++ ·)

namespace Leads

variable {texts texts' : List (List Char)} {d d' d'' : Nat} {rs rs' : List (Nat × List Char)}

/-- No text leads nowhere. -/
theorem nil : Leads [] d [] d := by
  intro number started gap
  refine ⟨number, started, gap, [], rfl, fun rest => ?_⟩
  cases h : rowsFrom number d started gap rest <;> simp [h, Except.map]

/-- Texts that follow one another lead as far as both of them. -/
theorem append (h : Leads texts d rs d') (h' : Leads texts' d' rs' d'') :
    Leads (texts ++ texts') d (rs ++ rs') d'' := by
  intro number started gap
  obtain ⟨number', started', gap', first, hfirst, hrun⟩ := h number started gap
  obtain ⟨number'', started'', gap'', second, hsecond, hrun'⟩ := h' number' started' gap'
  refine ⟨number'', started'', gap'', first ++ second, ?_, fun rest => ?_⟩
  · rw [List.map_append, hfirst, hsecond]
  · rw [List.append_assoc, hrun, hrun', map_map_outcome]
    simp only [List.append_assoc]

/-- A blank line leads nowhere. -/
theorem blank : Leads [[]] d [] d := by
  intro number started gap
  refine ⟨number + 1, started, started, [], rfl, fun rest => ?_⟩
  rw [List.singleton_append, rowsFrom_blank rfl]
  cases h : rowsFrom (number + 1) d started started rest <;> simp [Except.map]

/-- A line that is not blank leads through its row, past the block that it closes and into the
block that it opens. -/
theorem line {text : List Char} (htext : Text.trim text ≠ []) :
    Leads [text] (d + if closes (codePart (Text.trim text)) then 1 else 0)
      [(d, Text.trim text)] (d + if opens (codePart (Text.trim text)) then 1 else 0) := by
  intro number started gap
  refine ⟨number + 1, true, false,
    [{ gap, depth := d, text := Text.trim text
       cells? := if opens (codePart (Text.trim text)) then none else cells? (Text.trim text) }],
    rfl, fun rest => ?_⟩
  rw [List.singleton_append, rowsFrom_line htext]
  rfl

private theorem ofLine (examples : Bool) {l : Line} (h : IsCode l.code) :
    Leads [l.text examples] (l.depth + if closes (Text.trimStart l.code) then 1 else 0)
      [(l.depth, Text.trim (l.text examples))]
      (l.depth + if l.field?.isNone && opens (Text.trimStart l.code) then 1 else 0) := by
  have hne : Text.trim (l.text examples) ≠ [] := trim_text_ne_nil h
  have hline := Leads.line (d := l.depth) hne
  rwa [closes_codePart_text h, opens_codePart_text h] at hline

/-- Texts that lead from no block back to none can be laid out. -/
theorem rows (h : Leads texts 0 rs 0) (hfeed : ∀ text ∈ texts, '\n' ∉ text) :
    ∃ read, Struct.rows (Text.unlines texts) = .ok read ∧
      read.map (fun r => (r.depth, r.text)) = rs := by
  obtain ⟨number, started, gap, read, hread, hrun⟩ := h 1 false false
  have hdone := hrun []
  rw [List.append_nil] at hdone
  refine ⟨read, ?_, hread⟩
  rw [Struct.rows, Text.lines_unlines hfeed, hdone, rowsFrom, if_pos rfl]
  change Except.ok (read ++ []) = _
  rw [List.append_nil]

end Leads

/-! ## The lines of fields -/

/-- The rows of lines: the depth of each and its text without the blanks around it. -/
def rowsOf (examples : Bool) (ls : List Line) : List (Nat × List Char) :=
  ls.map fun l => (l.depth, Text.trim (l.text examples))

/-- Whether lines are code that leads from a depth back to it. -/
structure LeadsBack (examples : Bool) (ls : List Line) (depth : Nat) : Prop where
  isCode : ∀ l ∈ ls, IsCode l.code
  leads : Leads (ls.map (Line.text examples)) depth (rowsOf examples ls) depth

private theorem isCode_brace : IsCode ['\x7d'] where
  unquoted := unquoted_of_all rfl
  trimmed := by decide
  ne_blank := by decide

namespace LeadsBack

variable {examples : Bool} {ls ms : List Line} {depth : Nat} {code : List Char}

private theorem nil : LeadsBack examples [] depth where
  isCode := fun l hl => by cases hl
  leads := .nil

private theorem append (hl : LeadsBack examples ls depth) (hm : LeadsBack examples ms depth) :
    LeadsBack examples (ls ++ ms) depth where
  isCode := by
    intro l h
    rcases List.mem_append.mp h with h | h
    · exact hl.isCode l h
    · exact hm.isCode l h
  leads := by
    rw [rowsOf, List.map_append, List.map_append]
    exact hl.leads.append hm.leads

private theorem tagged {f : Field} (hcode : IsCode code)
    (hcloses : closes (Text.trimStart code) = false) :
    LeadsBack examples [{ depth, code, field? := some f }] depth where
  isCode := by
    intro l hl
    rw [List.mem_singleton.mp hl]
    exact hcode
  leads := by
    have hline := Leads.ofLine examples (l := { depth, code, field? := some f }) hcode
    simp only [hcloses] at hline
    exact hline

private theorem block {field? : Option Field} (hcode : IsCode code)
    (hcloses : closes (Text.trimStart code) = false)
    (hopens : opens (Text.trimStart code) = true) (hbody : LeadsBack examples ls (depth + 1)) :
    LeadsBack examples
      ({ depth, code } :: (ls ++ [{ depth, code := ['\x7d'], field? }])) depth where
  isCode := by
    intro l hl
    rcases List.mem_cons.mp hl with rfl | hl
    · exact hcode
    · rcases List.mem_append.mp hl with hl | hl
      · exact hbody.isCode l hl
      · rw [List.mem_singleton.mp hl]
        exact isCode_brace
  leads := by
    have hopening := Leads.ofLine examples (l := { depth, code }) hcode
    have hclosing := Leads.ofLine examples (l := { depth, code := ['\x7d'], field? }) isCode_brace
    have hbrace : Text.trimStart ['\x7d'] = ['\x7d'] := rfl
    have hshut : (field?.isNone && opens ['\x7d']) = false := by cases field? <;> rfl
    simp only [hcloses, hopens] at hopening
    simp only [hbrace, hshut] at hclosing
    have hall := hopening.append (hbody.leads.append hclosing)
    simp only [rowsOf, List.map_cons, List.map_append, List.map_nil]
    exact hall

end LeadsBack

private theorem opens_append_block (cs : List Char) :
    opens (Text.trimStart (cs ++ "struct \x7b".toList)) = true := by
  have hblock : "struct \x7b".toList = ['s', 't', 'r', 'u', 'c', 't', ' ', '\x7b'] := rfl
  have hne : Text.trimStart (cs ++ "struct \x7b".toList) ≠ [] := by
    rw [Ne, Text.trimStart_eq_nil_iff]
    intro hall
    exact absurd (hall '\x7b' (by rw [hblock]; simp)) (by decide)
  rw [opens, Text.getLast?_trimStart hne, hblock, List.getLast?_append]
  rfl

private theorem lineCases_leadsBack (examples : Bool) :
    LineCases IsWritten fun depth ls => LeadsBack examples ls depth where
  nil _ := .nil
  append _ _ _ hl hm := hl.append hm
  field := by
    rintro depth f ⟨htype, hshape⟩ hbody
    unfold linesOfField
    rcases hshape with hnone | ⟨fields, hnode⟩
    · rw [hnone (depth + 1)]
      exact .tagged (isCode_head htype) (closes_head htype)
    · have hlines : typeLines? (depth + 1) f.node = some (linesOfFields (depth + 1) fields) := by
        rw [hnode, typeLines?]
      have hopens : opens (Text.trimStart
          ((Ident.ofKey f.key).toList ++ ' ' :: typeOpening f.node)) = true := by
        rw [hnode, typeOpening_block, ← List.singleton_append, ← List.append_assoc]
        exact opens_append_block _
      rw [hlines]
      exact .block (isCode_head htype) (closes_head htype) hopens (hbody _ hlines)

/-! ## Files -/

/-- Whether the declarations of a file have names of plain text, and fields that can be written. -/
structure IsWrittenFile (root : RootFields) (named : List NamedObject) (rootName : String) :
    Prop where
  rootName : ∀ c ∈ rootName.toList, Text.isPlain c
  rootFields : ∀ f ∈ deepFields root.fields, IsWritten f
  names : ∀ o ∈ named, ∀ c ∈ o.typeName.toList, Text.isPlain c
  fields : ∀ o ∈ named, ∀ f ∈ deepFields o.fields, IsWritten f

private theorem leadsBack_declarationLines (examples : Bool) {name : String}
    (hname : ∀ c ∈ name.toList, Text.isPlain c) (isArray : Bool) {fields : List Field}
    (hfields : ∀ f ∈ deepFields fields, IsWritten f) :
    LeadsBack examples (declarationLines name isArray fields) 0 := by
  have htype : IsType ((if isArray then ['[', ']'] else []) ++ "struct \x7b".toList) := by
    cases isArray with
    | false => exact isType_block
    | true => exact isType_slice isType_block.unquoted isType_block.trimmed
  have hkeyword : "type ".toList = ['t', 'y', 'p', 'e', ' '] := rfl
  have hletters : ∀ c ∈ ['t', 'y', 'p', 'e', ' '],
      c ≠ '/' ∧ c ≠ '"' ∧ c ≠ tick ∧ c ≠ '\n' := unquoted_of_all rfl
  rw [declarationLines]
  refine .block (isCode_append_type (fun c hc => ?_) htype) ?_ ?_
    (linesOfFields_induct (lineCases_leadsBack examples) 1 fields hfields)
  · rcases List.mem_append.mp hc with hc | hc
    · rw [hkeyword] at hc
      exact hletters c hc
    · exact (unquoted_of_isPlain (hname c hc)).1
  · rw [hkeyword]
    rfl
  · rw [← List.singleton_append, ← List.append_assoc, ← List.append_assoc]
    exact opens_append_block _

/-- The texts of a file have no line feeds. -/
theorem lineFeed_notMem_fileTexts (examples : Bool) {root : RootFields}
    {named : List NamedObject} {rootName : String}
    (h : ∀ l ∈ fileLines root named rootName, IsCode l.code) :
    ∀ text ∈ fileTexts examples root named rootName, '\n' ∉ text := by
  intro text htext
  rcases eq_nil_or_of_mem_fileTexts htext with rfl | ⟨l, hl, rfl⟩
  · exact List.not_mem_nil
  · exact lineFeed_notMem_text (h l hl)

section WrittenFile

variable (examples : Bool) {root : RootFields} {named : List NamedObject} {rootName : String}

/-- The lines of a file are code. -/
theorem isCode_of_mem_fileLines (h : IsWrittenFile root named rootName) :
    ∀ l ∈ fileLines root named rootName, IsCode l.code := by
  intro l hl
  rcases List.mem_append.mp hl with hl | hl
  · exact (leadsBack_declarationLines true h.rootName root.isArray h.rootFields).isCode l hl
  · obtain ⟨o, ho, hl⟩ := List.mem_flatMap.mp hl
    exact (leadsBack_declarationLines true (h.names o ho) false (h.fields o ho)).isCode l hl

/-- The texts of a file lead back through its lines. -/
theorem leads_fileTexts (h : IsWrittenFile root named rootName) :
    Leads (fileTexts examples root named rootName) 0
      (rowsOf examples (fileLines root named rootName)) 0 := by
  have hroot := leadsBack_declarationLines examples h.rootName root.isArray h.rootFields
  have hnamed : ∀ o ∈ named,
      LeadsBack examples (declarationLines o.typeName false o.fields) 0 := fun o ho =>
    leadsBack_declarationLines examples (h.names o ho) false (h.fields o ho)
  have hothers : Leads (named.flatMap fun o =>
      [] :: (declarationLines o.typeName false o.fields).map (Line.text examples)) 0
      (rowsOf examples (named.flatMap fun o => declarationLines o.typeName false o.fields)) 0 := by
    clear h
    induction named with
    | nil => exact .nil
    | cons o named ih =>
      rw [List.flatMap_cons, List.flatMap_cons, rowsOf, List.map_append]
      refine Leads.append ?_ (ih fun o' ho' => hnamed o' (List.mem_cons_of_mem o ho'))
      exact Leads.blank.append (hnamed o List.mem_cons_self).leads
  rw [fileTexts, fileLines, rowsOf, List.map_append]
  exact hroot.leads.append hothers

/-- A file can be laid out, and its rows are its lines, each at the number of blocks around it. -/
theorem rows_fileTexts (h : IsWrittenFile root named rootName) :
    (∀ l ∈ fileLines root named rootName, IsCode l.code) ∧
      ∃ rs, rows (Text.unlines (fileTexts examples root named rootName)) = .ok rs ∧
        rs.map (fun r => (r.depth, r.text)) = rowsOf examples (fileLines root named rootName) :=
  have hcode := isCode_of_mem_fileLines h
  ⟨hcode, (leads_fileTexts examples h).rows (lineFeed_notMem_fileTexts examples hcode)⟩

end WrittenFile

/-- The declarations that are inferred under inline nesting can be written. -/
theorem isWrittenFile_of_infer {o : InferOptions} (ho : o.nesting = .inline) {v : Json.Value}
    {model : Model} (h : infer o v = .ok model) {root : RootFields}
    (hroot : model.root.rootFields = .ok root) (requested : Option String) :
    IsWrittenFile root model.named (Ident.root requested) where
  rootName := fun _ hc => Ident.isPlain_of_mem_root hc
  rootFields := by
    intro f hf
    obtain ⟨key, v', hfield⟩ := infer_deepFields h f (rootFields_deepFields hroot ▸ hf)
    exact isWritten_of_treeField ho hfield
  names := by
    intro named hnamed c hc
    obtain ⟨key, hkey⟩ := infer_named_key h hnamed
    rw [hkey] at hc
    exact Ident.isPlain_of_mem_ofKey hc
  fields := by
    intro named hnamed f hf
    obtain ⟨key, v', hfield⟩ := infer_deepFields h f (infer_named_deepFields h hnamed hf)
    exact isWritten_of_treeField ho hfield

end Exemplar.Struct
