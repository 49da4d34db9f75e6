import Exemplar.Proofs.Class.Replay
import Exemplar.Proofs.Ident.Characters
import Exemplar.Proofs.Json.NumberText
import Exemplar.Proofs.Json.Quoting
import Exemplar.Proofs.Shape.References
import Exemplar.Proofs.Template.LineFeeds

/-!
# Line feeds of class files

Names, literals and statements are on one line, whatever the document holds, so the line feeds of a
file of classes are those of its templates, one for each statement of a generator and one for the
end of each class.  The main statement counts them by the fields and the items that are declared.
-/

namespace Exemplar

/-! ## Names -/

namespace Text

private theorem lineFeed_notMem_toLower {c : Char} (hc : c ≠ '\n') : '\n' ∉ toLower c := by
  have hexpansions : ∀ p ∈ lowerExpansions, '\n' ∉ p.2 := by decide
  have hruns : ∀ r ∈ lowerRuns, '\n'.toNat < r.target := by decide +kernel
  rw [toLower, mapCase]
  cases hexpansion : lowerExpansions.lookup c.toNat with
  | some cs =>
    obtain ⟨before, after, htable, -⟩ := List.lookup_eq_some_iff.mp hexpansion
    refine hexpansions (c.toNat, cs) ?_
    rw [htable]
    exact List.mem_append_right before List.mem_cons_self
  | none =>
    cases hrun : CaseRun.find? lowerRuns c.toNat with
    | none => exact fun h => hc (List.mem_singleton.mp h).symm
    | some n =>
      obtain ⟨r, hr, -, himage, -⟩ := exists_run_of_find? hrun
      have htarget : '\n'.toNat < n := Nat.lt_of_lt_of_le (hruns r hr) himage
      intro h
      have hfeed := congrArg Char.toNat (List.mem_singleton.mp h)
      by_cases hvalid : n.isValidChar
      · have hn : (Char.ofNat n).toNat = n := by
          rw [Char.ofNat, dif_pos hvalid]
          rfl
        exact absurd (hfeed.trans hn) (Nat.ne_of_lt htarget)
      · have hn : (Char.ofNat n).toNat = 0 := by
          rw [Char.ofNat, dif_neg hvalid]
          rfl
        exact absurd (hfeed.trans hn) (by decide)

private theorem lineFeeds_of_isPlain {s : String} (h : ∀ c ∈ s.toList, isPlain c) :
    lineFeeds s = 0 :=
  lineFeeds_eq_zero_iff.mpr fun hfeed => absurd (h '\n' hfeed) (by decide)

private theorem lineFeeds_of_isNumeralChar {cs : List Char} (h : ∀ c ∈ cs, isNumeralChar c) :
    lineFeeds (String.ofList cs) = 0 := by
  rw [lineFeeds_ofList, List.count_eq_zero]
  exact fun hfeed => absurd (h '\n' hfeed) (by decide)

private theorem lineFeeds_decimal (n : Nat) : lineFeeds (String.ofList (decimal n)) = 0 :=
  lineFeeds_of_isNumeralChar fun _ => isNumeralChar_of_mem_decimal

private theorem lineFeeds_intDecimal (n : Int) : lineFeeds (String.ofList (intDecimal n)) = 0 :=
  lineFeeds_of_isNumeralChar fun _ => isNumeralChar_of_mem_intDecimal

end Text

open Text (lineFeeds)

namespace Ident

@[simp] private theorem lineFeeds_ofKey (key : String) : lineFeeds (ofKey key) = 0 :=
  Text.lineFeeds_of_isPlain fun _ => isPlain_of_mem_ofKey

private theorem lineFeeds_root (requested : Option String) : lineFeeds (root requested) = 0 :=
  Text.lineFeeds_of_isPlain fun _ => isPlain_of_mem_root

private theorem lineFeeds_lowerFirst {ident : String} (h : lineFeeds ident = 0) :
    lineFeeds (lowerFirst ident) = 0 := by
  rw [Text.lineFeeds_eq_zero_iff] at h ⊢
  rw [lowerFirst, String.toList_ofList]
  cases hchars : ident.toList with
  | nil => exact List.not_mem_nil
  | cons c cs =>
    rw [hchars, List.mem_cons, not_or] at h
    rw [Text.lowerFirst, List.mem_append, not_or]
    exact ⟨Text.lineFeed_notMem_toLower (Ne.symm h.1), h.2⟩

end Ident

namespace Class

private theorem Dialect.lineFeeds_memberName (d : Dialect) {ident : String}
    (h : lineFeeds ident = 0) :
    lineFeeds (d.memberName ident) = 0 := by
  have hplain := Ident.lineFeeds_lowerFirst h
  rw [Dialect.memberName]
  split
  · rw [Text.lineFeeds_append, hplain]
    rfl
  · exact hplain

/-! ## Literals -/

/-- The texts that are written as literals: numbers of either sort, floating-point data, truth
values, null and quoted strings. -/
inductive IsLiteral (d : Dialect) : String → Prop
  | int (n : Int) : IsLiteral d (d.intLiteral n)
  | float (n : Json.Number) : IsLiteral d (floatLiteral n)
  | extended (x : Extended) : IsLiteral d (extendedLiteral d x)
  | number (n : Json.Number) : IsLiteral d (String.ofList n.render)
  | bool (b : Bool) : IsLiteral d (boolLiteral b)
  | null : IsLiteral d "null"
  | string (s : String) : IsLiteral d (String.ofList (Json.quote s))

private theorem isLiteral_of_literal? {d : Dialect} {quoted : Bool} {kind : ScalarKind}
    {v : Json.Value}
    {text : String} (h : literal? d quoted kind v = some text) : IsLiteral d text := by
  unfold literal? at h
  -- integers, floats and truth values, each plain and quoted, then null, strings and what is any
  split at h
  · obtain ⟨n, -, rfl⟩ := Option.map_eq_some_iff.mp h
    exact .int n
  · obtain ⟨n, rfl⟩ := exists_of_quoted h
    exact .int n
  · exact Option.some.inj h ▸ .float _
  · obtain ⟨x, rfl⟩ := exists_of_quoted h
    exact .extended x
  · exact Option.some.inj h ▸ .bool _
  · obtain ⟨b, rfl⟩ := exists_of_quoted h
    exact .bool b
  iterate 4 exact Option.some.inj h ▸ .null
  iterate 4 exact Option.some.inj h ▸ .string _
  · exact Option.some.inj h ▸ .number _
  · exact Option.some.inj h ▸ .bool _
  · cases h

private theorem IsLiteral.lineFeeds_eq {d : Dialect} {text : String} (h : IsLiteral d text) :
    lineFeeds text = 0 := by
  cases h with
  | int n =>
    cases d with
    | java _ =>
      rw [Dialect.intLiteral, Text.lineFeeds_append, Text.lineFeeds_intDecimal]
      rfl
    | typescript => rw [Dialect.intLiteral, Text.lineFeeds_intDecimal]
  | float n =>
    have hdigits : lineFeeds (String.ofList n.render) = 0 :=
      Text.lineFeeds_of_isNumeralChar fun _ => n.isNumeralChar_of_mem_render
    rw [floatLiteral]
    split
    · exact hdigits
    · rw [String.ofList_append, Text.lineFeeds_append, hdigits]
      rfl
  | extended x =>
    cases x with
    | finite x =>
      exact Text.lineFeeds_of_isNumeralChar fun _ => NumberStyle.isNumeralChar_of_mem_render
    | infinite negative =>
      rw [extendedLiteral]
      cases d <;> cases negative <;> rw [Dialect.infinityLiteral] <;> decide
    | nan =>
      rw [extendedLiteral]
      cases d <;> rw [Dialect.nanLiteral] <;> decide
  | number n => exact Text.lineFeeds_of_isNumeralChar fun _ => n.isNumeralChar_of_mem_render
  | bool b => cases b <;> rfl
  | null => rfl
  | string s =>
    rw [Text.lineFeeds_ofList, List.count_eq_zero]
    exact fun hfeed => absurd ((Json.isClosed_quote s).controls '\n' hfeed) (by decide)

private theorem lineFeeds_of_literal {d : Dialect} {kind : ScalarKind} {v : Json.Value}
    {key text : String}
    {quoted : Bool} (h : literal d kind v key quoted = .ok text) : lineFeeds text = 0 :=
  (isLiteral_of_literal? (literal_eq_ok_iff.mp h)).lineFeeds_eq

/-! ## Statements -/

/-- Whether a field leaves a statement for an item with given members: they have its key, and the
value is not passed over. -/
def leavesStatement (members : List (String × Json.Value)) (f : Field) : Bool :=
  match members.lookup f.key, f.node with
  | none, _ => false
  | some v, .scalar kind => !v.isNull || kind.isNullable
  | some _, _ => true

/-- The number of statements for an item: one for each field that leaves one, and those that make
and store its object. -/
def statementCount (fields : List Field) : Json.Value → Nat
  | .object members => fields.countP (leavesStatement members) + 2
  | _ => 0

private theorem leavesStatement_iff {members : List (String × Json.Value)} {f : Field} :
    leavesStatement members f ↔ ∃ v, members.lookup f.key = some v ∧ ¬ PassedOver f v := by
  rw [leavesStatement]
  cases members.lookup f.key with
  | none => simp
  | some v =>
    cases hnode : f.node with
    | scalar kind => cases hnull : v.isNull <;> simp [passedOver_iff hnode, hnull]
    | array element | object name? fields => simp [PassedOver, hnode]

/-- Whether a statement is on one line behind any variable. -/
def Statement.OnOneLine : Statement → Prop
  | set name value => lineFeeds name = 0 ∧ lineFeeds value = 0
  | placeholder => True

private theorem Statement.OnOneLine.lineFeeds_text {s : Statement} (h : s.OnOneLine) {var : String}
    (hvar : lineFeeds var = 0) : lineFeeds (s.text var) = 0 := by
  cases s with
  | set name value =>
    obtain ⟨hname, hvalue⟩ := h
    rw [Statement.text]
    simp only [Text.lineFeeds_append, hvar, hname, hvalue]
    rfl
  | placeholder =>
    rw [Statement.text]
    decide

variable {d : Dialect} {fields : List Field}

private theorem memberStatements_onOneLine {members : List (String × Json.Value)} {f : Field}
    {statements : List Statement} (h : memberStatements d members f = .ok statements) :
    statements.length = (if leavesStatement members f then 1 else 0) ∧
      ∀ s ∈ statements, s.OnOneLine := by
  rcases memberStatements_cases h with ⟨rfl, hpassed⟩ | ⟨s, v, rfl, hv, hpassed, hs⟩
  · have hleaves : ¬ leavesStatement members f := by
      rw [leavesStatement_iff]
      rintro ⟨v, hv, hnot⟩
      exact hnot (hpassed v hv)
    exact ⟨(if_neg hleaves).symm, fun s hs => by cases hs⟩
  · refine ⟨(if_pos (leavesStatement_iff.mpr ⟨v, hv, hpassed⟩)).symm, ?_⟩
    intro s' hs'
    rw [List.mem_singleton.mp hs']
    cases s with
    | set name value =>
      obtain ⟨rfl, kind, -, hvalue⟩ := hs
      exact ⟨Ident.lineFeeds_ofKey f.key, (isLiteral_of_literal? hvalue).lineFeeds_eq⟩
    | placeholder => exact trivial

private theorem mapM_memberStatements_onOneLine {members : List (String × Json.Value)}
    {statements : List (List Statement)}
    (h : fields.mapM (memberStatements d members) = .ok statements) :
    statements.flatten.length = fields.countP (leavesStatement members) ∧
      ∀ s ∈ statements.flatten, s.OnOneLine := by
  rw [mapM_eq_ok_iff] at h
  induction h with
  | nil => exact ⟨rfl, fun s hs => by cases hs⟩
  | @cons f here fields statements hf _ ih =>
    obtain ⟨hlength, hline⟩ := memberStatements_onOneLine hf
    rw [List.flatten_cons, List.length_append, List.countP_cons, hlength, ih.1]
    exact ⟨Nat.add_comm _ _, List.forall_mem_append.mpr ⟨hline, ih.2⟩⟩

/-- Whether the class of a block and its statements are on one line. -/
structure Block.OnOneLine (b : Block) : Prop where
  typeName : lineFeeds b.typeName = 0
  statements : ∀ s ∈ b.statements, s.OnOneLine

private theorem itemBlock_onOneLine {typeName key : String} (htype : lineFeeds typeName = 0)
    {v : Json.Value} {b : Block} (h : itemBlock d typeName key fields v = .ok b) :
    b.statements.length + 2 = statementCount fields v ∧ b.OnOneLine := by
  obtain ⟨rfl, members, statements, rfl, hstatements, hflatten⟩ := itemBlock_ok h
  obtain ⟨hlength, hline⟩ := mapM_memberStatements_onOneLine hstatements
  rw [← hflatten] at hlength hline
  exact ⟨by rw [hlength, statementCount], htype, hline⟩

private theorem lineFeeds_itemVar (index : Nat) : lineFeeds (itemVar index) = 0 := by
  rw [itemVar, Text.lineFeeds_append, Text.lineFeeds_decimal]
  rfl

private theorem Block.OnOneLine.texts {b : Block} (h : b.OnOneLine) (index : Nat) :
    (b.texts d index).length = b.statements.length + 2 ∧
      ∀ t ∈ b.texts d index, lineFeeds t = 0 := by
  have hvar := lineFeeds_itemVar index
  have hcreate : lineFeeds (d.newObject b.typeName (itemVar index)) = 0 := by
    cases d <;> simp only [Dialect.newObject, Text.lineFeeds_append, h.typeName, hvar] <;> rfl
  have hstore : lineFeeds (d.store (itemVar index) index) = 0 := by
    cases d <;>
      simp only [Dialect.store, Text.lineFeeds_append, Text.lineFeeds_decimal, hvar] <;> rfl
  rw [Block.texts]
  refine ⟨by simp, ?_⟩
  rw [List.forall_mem_cons, List.forall_mem_append]
  refine ⟨hcreate, fun t ht => ?_, fun t ht => ?_⟩
  · obtain ⟨s, hs, rfl⟩ := List.mem_map.mp ht
    exact (h.statements s hs).lineFeeds_text hvar
  · rw [List.mem_singleton.mp ht, hstore]

private theorem blockTexts_onOneLine {bs : List Block} (h : ∀ b ∈ bs, b.OnOneLine) (index : Nat) :
    (blockTexts d index bs).length = (bs.map fun b => b.statements.length + 2).sum ∧
      ∀ t ∈ blockTexts d index bs, lineFeeds t = 0 := by
  induction bs generalizing index with
  | nil => exact ⟨rfl, fun t ht => by cases ht⟩
  | cons b bs ih =>
    obtain ⟨hb, hrest⟩ := List.forall_mem_cons.mp h
    obtain ⟨hlength, hline⟩ := hb.texts (d := d) index
    obtain ⟨hlengths, hlines⟩ := ih hrest (index + 1)
    rw [blockTexts, List.length_append, hlength, hlengths, List.map_cons, List.sum_cons]
    exact ⟨rfl, List.forall_mem_append.mpr ⟨hline, hlines⟩⟩

private theorem arrayStatements_onOneLine {typeName key : String} (htype : lineFeeds typeName = 0)
    {items : List Json.Value} {statements : List String}
    (h : arrayStatements d typeName key items fields = .ok statements) :
    statements.length = (items.map (statementCount fields)).sum ∧
      ∀ t ∈ statements, lineFeeds t = 0 := by
  rw [arrayStatements, statementsFrom_eq] at h
  obtain ⟨blocks, hblocks, rfl⟩ := map_eq_ok_iff.mp h
  have hitems : (items.map (statementCount fields)).sum =
        (blocks.map fun b => b.statements.length + 2).sum ∧ ∀ b ∈ blocks, b.OnOneLine := by
    rw [mapM_eq_ok_iff] at hblocks
    clear h
    induction hblocks with
    | nil => exact ⟨rfl, fun b hb => by cases hb⟩
    | cons hb _ ih =>
      obtain ⟨hcount, hline⟩ := itemBlock_onOneLine htype hb
      rw [List.map_cons, List.map_cons, List.sum_cons, List.sum_cons, hcount, ih.1]
      exact ⟨rfl, List.forall_mem_cons.mpr ⟨hline, ih.2⟩⟩
  rw [hitems.1]
  exact blockTexts_onOneLine hitems.2 0

/-! ## Counting by fields -/

namespace Dialect

/-- The line feeds for a field: those of the template for its member, and with a generator one for
each statement. -/
def memberLineFeeds (d : Dialect) (f : Field) : Nat :=
  match f.node with
  | .array (.object _ fields) =>
    d.templates.arrayAccessors.lineFeeds [] + ((rawItems f).map (statementCount fields)).sum
  | _ => d.templates.accessors.lineFeeds []

/-- The line feeds for the members of a class. -/
def membersLineFeeds (d : Dialect) (fields : List Field) : Nat :=
  (fields.map d.memberLineFeeds).sum

/-- The line feeds of the templates of a file: those of the header and of the opening of each
further class, and those for the members. -/
def templateLineFeeds (d : Dialect) (root : RootFields) (named : List NamedObject) : Nat :=
  d.templates.header.lineFeeds [("is_array", .bool root.isArray)] +
    d.membersLineFeeds root.fields +
      (named.map fun o => d.templates.classOpen.lineFeeds [] + d.membersLineFeeds o.fields).sum

private theorem lineFeeds_header (d : Dialect) {payload : Payload} {isArray : Bool}
    (h : payload.lookup "is_array" = some (.bool isArray)) :
    d.templates.header.lineFeeds payload =
      d.templates.header.lineFeeds [("is_array", .bool isArray)] := by
  have hsame : payload.lookup "is_array" =
      List.lookup "is_array" [("is_array", Argument.bool isArray)] := h
  cases d <;>
    simp only [Template.lineFeeds, templates, Template.packagedHeader, Template.exportedHeader,
      Piece.lineFeedsAll, Piece.lineFeeds, hsame]

private theorem lineFeeds_classOpen (d : Dialect) (payload : Payload) :
    d.templates.classOpen.lineFeeds payload = d.templates.classOpen.lineFeeds [] := by
  cases d <;> rfl

private theorem lineFeeds_accessors (d : Dialect) (payload : Payload) :
    d.templates.accessors.lineFeeds payload = d.templates.accessors.lineFeeds [] := by
  have hvalue : Piece.lineFeedsAll payload [.text " = ", .slot "value"] = 0 := rfl
  have hgiven : (Piece.given "value" [.text " = ", .slot "value"]).lineFeeds payload = 0 := by
    rw [Piece.lineFeeds, hvalue, ite_self]
  cases d <;>
    simp only [Template.lineFeeds, templates, Template.packagedAccessors,
      Template.exportedAccessors, List.cons_append, Piece.lineFeedsAll, hgiven] <;> rfl

private theorem lineFeeds_arrayAccessors (d : Dialect) {payload : Payload}
    {statements : List String} (h : payload.lookup "statements" = some (.list statements)) :
    d.templates.arrayAccessors.lineFeeds payload =
      d.templates.arrayAccessors.lineFeeds [] + statements.length := by
  have hparts : d.templates.arrayAccessors.pieces =
      d.templates.arrayAccessors.pieces.dropLast.dropLast ++
        [.each "statements" "        " "\n", .text "        return v;\n    \x7d\n"] := by
    cases d <;> rfl
  have hfront : Piece.lineFeedsAll payload d.templates.arrayAccessors.pieces.dropLast.dropLast =
      Piece.lineFeedsAll [] d.templates.arrayAccessors.pieces.dropLast.dropLast := by
    cases d <;> rfl
  have hitem : Text.lineFeeds "        " + Text.lineFeeds "\n" = 1 := by decide
  rw [Template.lineFeeds, Template.lineFeeds, hparts, Piece.lineFeedsAll_append,
    Piece.lineFeedsAll_append, hfront]
  simp only [Piece.lineFeedsAll, Piece.lineFeeds, h, hitem, List.lookup_nil]
  omega

end Dialect

/-! ## Members -/

private theorem lineFeeds_of_accessors {key type : String} {value? : Option String} {text : String}
    (htype : lineFeeds type = 0) (hvalue : ∀ v, value? = some v → lineFeeds v = 0)
    (h : accessors d key type value? = .ok text) :
    lineFeeds text = d.templates.accessors.lineFeeds [] := by
  unfold accessors at h
  refine (Template.lineFeeds_render ?_ h).trans (d.lineFeeds_accessors _)
  have hname := Ident.lineFeeds_ofKey key
  simp only [Payload.OnOneLine, List.forall_mem_cons]
  refine ⟨htype, d.lineFeeds_memberName hname, hname, ?_, fun p hp => by cases hp⟩
  cases value? with
  | none => exact trivial
  | some v => exact hvalue v rfl

private theorem lineFeeds_of_arrayAccessors {key type init : String} {statements : List String}
    {text : String} (htype : lineFeeds type = 0) (hinit : lineFeeds init = 0)
    (hstatements : ∀ t ∈ statements, lineFeeds t = 0)
    (h : arrayAccessors d key type init statements = .ok text) :
    lineFeeds text = d.templates.arrayAccessors.lineFeeds [] + statements.length := by
  unfold arrayAccessors at h
  refine (Template.lineFeeds_render ?_ h).trans (d.lineFeeds_arrayAccessors rfl)
  have hname := Ident.lineFeeds_ofKey key
  simp only [Payload.OnOneLine, List.forall_mem_cons]
  exact ⟨htype, d.lineFeeds_memberName hname, hname, hinit, hstatements, fun p hp => by cases hp⟩

namespace Dialect

private theorem lineFeeds_scalarType (d : Dialect) (kind : ScalarKind) :
    lineFeeds (d.scalarType kind) = 0 := by
  cases d <;> cases kind <;> rw [scalarType] <;> decide

private theorem lineFeeds_arrayType (d : Dialect) {element : String} (h : lineFeeds element = 0) :
    lineFeeds (d.arrayType element) = 0 := by
  rw [arrayType, Text.lineFeeds_append, h]
  rfl

private theorem lineFeeds_arrayLiteral (d : Dialect) {items : List String}
    (h : ∀ t ∈ items, lineFeeds t = 0) : lineFeeds (d.arrayLiteral items) = 0 := by
  have hitems : lineFeeds (String.intercalate ", " items) = 0 := Text.lineFeeds_intercalate rfl h
  cases d <;> simp only [arrayLiteral, Text.lineFeeds_append, hitems] <;> rfl

private theorem lineFeeds_arrayInit (d : Dialect) {element : String} (h : lineFeeds element = 0)
    (length : Nat) : lineFeeds (d.arrayInit element length) = 0 := by
  cases d with
  | java _ =>
    simp only [arrayInit, Text.lineFeeds_append, Text.lineFeeds_decimal, h]
    rfl
  | typescript =>
    rw [arrayInit]
    decide

private theorem lineFeeds_nestedDefault (d : Dialect) {typeName : String}
    (h : lineFeeds typeName = 0)
    {v : String} (hv : d.nestedDefault? typeName = some v) : lineFeeds v = 0 := by
  cases d with
  | java _ => cases hv
  | typescript =>
    obtain rfl := Option.some.inj hv
    simp only [Text.lineFeeds_append, h]
    rfl

end Dialect

private theorem lineFeeds_of_member {f : Field}
    (hname : ∀ o, f.node.referred? = some o → lineFeeds o.typeName = 0) {text : String}
    (h : member d f = .ok text) : lineFeeds text = d.memberLineFeeds f := by
  obtain ⟨key, node, found?, quoted⟩ := f
  match node with
  | .scalar kind =>
    obtain ⟨value, hvalue, h⟩ := bind_eq_ok_iff.mp h
    refine lineFeeds_of_accessors (d.lineFeeds_scalarType kind) (fun v hv => ?_) h
    exact Option.some.inj hv ▸ lineFeeds_of_literal hvalue
  | .array (.scalar kind) =>
    obtain ⟨values, hvalues, h⟩ := bind_eq_ok_iff.mp h
    refine lineFeeds_of_accessors (d.lineFeeds_arrayType (d.lineFeeds_scalarType kind))
      (fun v hv => ?_) h
    refine Option.some.inj hv ▸ d.lineFeeds_arrayLiteral fun t ht => ?_
    obtain ⟨item, -, hitem⟩ := exists_of_mem_mapM hvalues ht
    exact lineFeeds_of_literal hitem
  | .array (.object (some typeName) fields) =>
    have htype : lineFeeds typeName = 0 := hname _ rfl
    obtain ⟨statements, hstatements, h⟩ := bind_eq_ok_iff.mp h
    obtain ⟨hlength, hline⟩ := arrayStatements_onOneLine htype hstatements
    rw [lineFeeds_of_arrayAccessors (d.lineFeeds_arrayType htype)
      (d.lineFeeds_arrayInit htype _) hline h, hlength]
    rfl
  | .object (some typeName) fields =>
    have htype : lineFeeds typeName = 0 := hname _ rfl
    exact lineFeeds_of_accessors htype (fun v hv => d.lineFeeds_nestedDefault htype hv) h
  | .array (.object none _) | .array (.array _) | .object none _ => cases h

/-! ## Files -/

private theorem lineFeeds_join_of_mapM {α : Type} {f : α → Except Error String} {count : α → Nat}
    {xs : List α} {texts : List String} (h : xs.mapM f = .ok texts)
    (hcount : ∀ x ∈ xs, ∀ text, f x = .ok text → lineFeeds text = count x) :
    lineFeeds (String.join texts) = (xs.map count).sum := by
  rw [mapM_eq_ok_iff] at h
  rw [Text.lineFeeds_join]
  induction h with
  | nil => rfl
  | cons hx _ ih =>
    obtain ⟨hfirst, hrest⟩ := List.forall_mem_cons.mp hcount
    rw [List.map_cons, List.map_cons, List.sum_cons, List.sum_cons, hfirst _ hx, ih hrest]

private theorem lineFeeds_of_body
    (hname : ∀ f ∈ fields, ∀ o, f.node.referred? = some o → lineFeeds o.typeName = 0)
    {text : String} (h : body d fields = .ok text) :
    lineFeeds text = d.membersLineFeeds fields + 1 := by
  obtain ⟨members, hmembers, rfl⟩ := map_eq_ok_iff.mp h
  have hsum := lineFeeds_join_of_mapM hmembers fun f hf _ hmember =>
    lineFeeds_of_member (hname f hf) hmember
  rw [Text.lineFeeds_append, hsum]
  rfl

private theorem lineFeeds_of_rootClass {name : String} (hroot : lineFeeds name = 0)
    {root : RootFields} (hpackage : ∀ p, d.package? = some p → lineFeeds p = 0)
    (hname : ∀ f ∈ root.fields, ∀ o, f.node.referred? = some o → lineFeeds o.typeName = 0)
    {text : String} (h : rootClass d name root = .ok text) :
    lineFeeds text = d.templates.header.lineFeeds [("is_array", .bool root.isArray)] +
      d.membersLineFeeds root.fields + 1 := by
  obtain ⟨header, hheader, h⟩ := bind_eq_ok_iff.mp h
  obtain ⟨members, hmembers, h⟩ := bind_eq_ok_iff.mp h
  obtain rfl := Except.ok.inj h
  have hfirst : lineFeeds header =
      d.templates.header.lineFeeds [("is_array", .bool root.isArray)] := by
    refine (Template.lineFeeds_render ?_ hheader).trans (d.lineFeeds_header rfl)
    simp only [Payload.OnOneLine, List.forall_mem_cons]
    refine ⟨hroot, trivial, ?_, fun p hp => by cases hp⟩
    cases hd : d.package? with
    | none => exact trivial
    | some p => exact hpackage p hd
  rw [Text.lineFeeds_append, hfirst, lineFeeds_of_body hname hmembers, Nat.add_assoc]

private theorem lineFeeds_of_namedClass {o : NamedObject} (hopen : lineFeeds o.typeName = 0)
    (hname : ∀ f ∈ o.fields, ∀ x, f.node.referred? = some x → lineFeeds x.typeName = 0)
    {text : String} (h : namedClass d o = .ok text) :
    lineFeeds text =
      d.templates.classOpen.lineFeeds [] + d.membersLineFeeds o.fields + 1 := by
  obtain ⟨opening, hopening, h⟩ := bind_eq_ok_iff.mp h
  obtain ⟨members, hmembers, h⟩ := bind_eq_ok_iff.mp h
  obtain rfl := Except.ok.inj h
  have hline : Payload.OnOneLine [("name", .text o.typeName)] := by
    simp only [Payload.OnOneLine, List.forall_mem_cons]
    exact ⟨hopen, fun p hp => by cases hp⟩
  rw [Text.lineFeeds_append, Template.lineFeeds_render hline hopening, d.lineFeeds_classOpen,
    lineFeeds_of_body hname hmembers, Nat.add_assoc]

private theorem sum_map_succ {α : Type} (count : α → Nat) (xs : List α) :
    (xs.map fun x => count x + 1).sum = (xs.map count).sum + xs.length := by
  induction xs with
  | nil => rfl
  | cons x xs ih =>
    rw [List.map_cons, List.map_cons, List.sum_cons, List.sum_cons, ih, List.length_cons]
    omega

private theorem lineFeeds_of_emit {model : Model} {root : RootFields}
    (hroot : model.root.rootFields = .ok root) {rootName : String}
    (hrootName : lineFeeds rootName = 0) (hpackage : ∀ p, d.package? = some p → lineFeeds p = 0)
    (hnamed : ∀ o ∈ model.named, lineFeeds o.typeName = 0)
    (hreferred : ∀ f ∈ model.declared, ∀ o, f.node.referred? = some o → lineFeeds o.typeName = 0)
    {text : String} (h : emit d model rootName = .ok text) :
    lineFeeds text = d.templateLineFeeds root model.named + (model.named.length + 1) := by
  rw [declared_of_rootFields hroot, List.forall_mem_append] at hreferred
  obtain ⟨hfirst, hothers⟩ := hreferred
  obtain ⟨root', hroot', h⟩ := bind_eq_ok_iff.mp h
  obtain rfl := Except.ok.inj (hroot.symm.trans hroot')
  obtain ⟨first, hrootClass, h⟩ := bind_eq_ok_iff.mp h
  obtain ⟨others, hclasses, h⟩ := bind_eq_ok_iff.mp h
  obtain rfl := Except.ok.inj h
  have hsum := lineFeeds_join_of_mapM hclasses fun o ho _ hclass =>
    lineFeeds_of_namedClass (hnamed o ho)
      (fun f hf => hothers f (List.mem_flatMap.mpr ⟨o, ho, hf⟩)) hclass
  rw [Text.lineFeeds_append, lineFeeds_of_rootClass hrootName hpackage hfirst hrootClass, hsum,
    sum_map_succ, Dialect.templateLineFeeds]
  omega

/-- The classes of a model that is inferred have the line feeds of their templates and one for the
end of each class. -/
theorem lineFeeds_of_infer (hpackage : ∀ p, d.package? = some p → lineFeeds p = 0)
    {o : InferOptions} {v : Json.Value} {model : Model} (hmodel : infer o v = .ok model)
    {root : RootFields}
    (hroot : model.root.rootFields = .ok root) {requested : Option String} {text : String}
    (h : emit d model (Ident.root requested) = .ok text) :
    lineFeeds text = d.templateLineFeeds root model.named + (model.named.length + 1) := by
  have hnamed : ∀ x ∈ model.named, lineFeeds x.typeName = 0 := by
    intro x hx
    obtain ⟨key, hkey⟩ := infer_named_key hmodel hx
    rw [hkey, Ident.lineFeeds_ofKey]
  refine lineFeeds_of_emit hroot (Ident.lineFeeds_root requested) hpackage hnamed ?_ h
  intro f hf x hx
  exact hnamed x (infer_referred hmodel (infer_declared_subset hmodel hf) hx)

end Class

end Exemplar
