import Exemplar.Proofs.Shape.Depth
import Exemplar.Struct.Emit

/-!
# Lines of struct declarations

The lines of a file of structs with what they are made of: the blocks around a line, its code, and
the field whose tag and comment it ends with.  The main statements: each field of a model has its
tag on one line, and the text of a file is made of the texts of its head and of these lines.
-/

namespace Exemplar.Struct

/-- A line that is written: the blocks around it, its code, and the field whose tag and comment
stand behind the code, if there is one. -/
structure Line where
  depth : Nat
  code : List Char
  field? : Option Field := none

/-- The text of a line. -/
def Line.text (examples : Bool) (l : Line) : List Char :=
  match l.field? with
  | none => l.code
  | some f => l.code ++ ' ' :: (tag f.key.toList f.quoted ++ comment examples f)

/-! ## Fields -/

/-- The line that the type of a node begins with. -/
def typeOpening (node : Node) : List Char :=
  (typeText false node).opening

/-- The type of a scalar is its name. -/
theorem typeOpening_scalar (kind : ScalarKind) :
    typeOpening (.scalar kind) = (scalarType kind).toList := by
  rw [typeOpening, typeText]
  rfl

/-- The type of an array is the slice of the type of its items. -/
theorem typeOpening_array (element : Node) :
    typeOpening (.array element) = '[' :: ']' :: typeOpening element := by
  rw [typeOpening, typeText]
  rfl

/-- The type of a named object is its name. -/
theorem typeOpening_named (name : String) (fields : List Field) :
    typeOpening (.object (some name) fields) = name.toList := by
  rw [typeOpening, typeText]
  rfl

/-- The type of an object without a name opens a struct. -/
theorem typeOpening_block (fields : List Field) :
    typeOpening (.object none fields) = "struct \x7b".toList := by
  rw [typeOpening, typeText]
  rfl

/-- The lines of a field, given the line that its type begins with and the lines in that type. -/
def linesOfField (depth : Nat) (f : Field) (opening : List Char) (body? : Option (List Line)) :
    List Line :=
  let head := (Ident.ofKey f.key).toList ++ ' ' :: opening
  match body? with
  | none => [{ depth, code := head, field? := some f }]
  | some body =>
    { depth, code := head } :: (body ++ [{ depth, code := ['\x7d'], field? := some f }])

mutual

/-- The lines in the type of a node, if it opens a block. -/
def typeLines? (depth : Nat) : Node → Option (List Line)
  | .scalar _ => none
  | .array element => typeLines? depth element
  | .object (some _) _ => none
  | .object none fields => some (linesOfFields depth fields)
termination_by structural node => node

/-- The lines of fields in a row. -/
def linesOfFields (depth : Nat) : List Field → List Line
  | [] => []
  | ⟨key, node, example?, quoted⟩ :: fields =>
    linesOfField depth ⟨key, node, example?, quoted⟩ (typeOpening node)
      (typeLines? (depth + 1) node) ++ linesOfFields depth fields
termination_by structural fields => fields

end

/-- What shows a property of lines at a depth for all lines that fields of some kind are written
with: it holds of no lines, of lines one after the other, and of the lines of a field if it holds
of those in the type of the field. -/
structure LineCases (kind : Field → Prop) (motive : Nat → List Line → Prop) : Prop where
  nil : ∀ depth, motive depth []
  append : ∀ depth ls ms, motive depth ls → motive depth ms → motive depth (ls ++ ms)
  field : ∀ depth f, kind f →
    (∀ body, typeLines? (depth + 1) f.node = some body → motive (depth + 1) body) →
    motive depth (linesOfField depth f (typeOpening f.node) (typeLines? (depth + 1) f.node))

section Induction

variable {kind : Field → Prop} {motive : Nat → List Line → Prop}

mutual

private theorem typeLines?_induct (hcases : LineCases kind motive) (depth : Nat) (node : Node)
    (h : ∀ f ∈ node.deepFields, kind f) {body : List Line}
    (hbody : typeLines? depth node = some body) : motive depth body := by
  match node with
  | .scalar _ | .object (some _) _ => cases hbody
  | .array element => exact typeLines?_induct hcases depth element h hbody
  | .object none fields =>
    obtain rfl := Option.some.inj hbody
    exact linesOfFields_induct hcases depth fields h
termination_by structural node

/-- Induction over the lines of fields. -/
theorem linesOfFields_induct (hcases : LineCases kind motive) (depth : Nat) (fs : List Field)
    (h : ∀ f ∈ deepFields fs, kind f) : motive depth (linesOfFields depth fs) := by
  match fs with
  | [] => exact hcases.nil depth
  | ⟨key, node, example?, quoted⟩ :: fs =>
    have hinner : ∀ f ∈ node.deepFields, kind f :=
      fun f hf => h f (List.mem_cons_of_mem _ (List.mem_append_left _ hf))
    have hrest : ∀ f ∈ deepFields fs, kind f :=
      fun f hf => h f (List.mem_cons_of_mem _ (List.mem_append_right _ hf))
    rw [linesOfFields]
    apply hcases.append depth
    · exact hcases.field depth ⟨key, node, example?, quoted⟩ (h _ List.mem_cons_self)
        fun body hbody => typeLines?_induct hcases (depth + 1) node hinner hbody
    · exact linesOfFields_induct hcases depth fs hrest
termination_by structural fs

end

end Induction

private theorem opening_typeText (examples : Bool) (node : Node) :
    (typeText examples node).opening = typeOpening node := by
  match node with
  | .scalar _ | .object (some _) _ => rw [typeOpening, typeText, typeText]
  | .object none _ =>
    rw [typeOpening, typeText, typeText]
    rfl
  | .array element =>
    have helement := opening_typeText examples element
    rw [typeOpening] at helement
    rw [typeOpening, typeText, typeText, TypeText.slice, TypeText.slice, helement]
termination_by structural node

private theorem texts_linesOfField (examples : Bool) (depth : Nat) (f : Field) (type : TypeText)
    (body? : Option (List Line)) (h : body?.map (List.map (Line.text examples)) = type.body?) :
    (linesOfField depth f type.opening body?).map (Line.text examples) =
      fieldLinesOf examples f type := by
  simp only [linesOfField, fieldLinesOf, ← h]
  cases body? with
  | none =>
    simp only [List.map_cons, List.map_nil, Line.text, Option.map_none]
  | some body =>
    simp only [List.map_cons, List.map_append, List.map_nil, Line.text, Option.map_some]
    rfl

mutual

private theorem texts_typeLines? (examples : Bool) (depth : Nat) (node : Node) :
    (typeLines? depth node).map (List.map (Line.text examples)) =
      (typeText examples node).body? := by
  match node with
  | .scalar _ | .object (some _) _ => rfl
  | .array element =>
    rw [typeLines?, texts_typeLines? examples depth element, typeText]
    rfl
  | .object none fields =>
    rw [typeLines?, Option.map_some, texts_linesOfFields examples depth fields, typeText]
    rfl
termination_by structural node

private theorem texts_linesOfFields (examples : Bool) (depth : Nat) (fs : List Field) :
    (linesOfFields depth fs).map (Line.text examples) = fieldsLines examples fs := by
  match fs with
  | [] => rfl
  | ⟨key, node, example?, quoted⟩ :: fs =>
    have hfield := texts_linesOfField examples depth ⟨key, node, example?, quoted⟩
      (typeText examples node) _ (texts_typeLines? examples (depth + 1) node)
    rw [opening_typeText] at hfield
    rw [linesOfFields, fieldsLines, List.map_append, hfield,
      texts_linesOfFields examples depth fs]
termination_by structural fs

end

/-! ## Files -/

/-- The lines of a declaration. -/
def declarationLines (name : String) (isArray : Bool) (fields : List Field) : List Line :=
  { depth := 0
    code := "type ".toList ++ name.toList ++ ' ' ::
      ((if isArray then ['[', ']'] else []) ++ "struct \x7b".toList) } ::
    (linesOfFields 1 fields ++ [{ depth := 0, code := ['\x7d'] }])

/-- The lines of a file that are not blank. -/
def fileLines (root : RootFields) (named : List NamedObject) (rootName : String) : List Line :=
  declarationLines rootName root.isArray root.fields ++
    named.flatMap fun o => declarationLines o.typeName false o.fields

/-- The texts of the lines of a file, with a blank line before each further declaration. -/
def fileTexts (examples : Bool) (root : RootFields) (named : List NamedObject)
    (rootName : String) : List (List Char) :=
  (declarationLines rootName root.isArray root.fields).map (Line.text examples) ++
    named.flatMap fun o =>
      [] :: (declarationLines o.typeName false o.fields).map (Line.text examples)

section Texts

variable {examples : Bool} {root : RootFields} {named : List NamedObject} {rootName : String}

/-- A text of a file is blank or that of a line. -/
theorem eq_nil_or_of_mem_fileTexts {text : List Char}
    (h : text ∈ fileTexts examples root named rootName) :
    text = [] ∨ ∃ l ∈ fileLines root named rootName, l.text examples = text := by
  rcases List.mem_append.mp h with h | h
  · obtain ⟨l, hl, htext⟩ := List.mem_map.mp h
    exact .inr ⟨l, List.mem_append_left _ hl, htext⟩
  · obtain ⟨o, ho, h⟩ := List.mem_flatMap.mp h
    rcases List.mem_cons.mp h with rfl | h
    · exact .inl rfl
    · obtain ⟨l, hl, htext⟩ := List.mem_map.mp h
      exact .inr ⟨l, List.mem_append_right _ (List.mem_flatMap.mpr ⟨o, ho, hl⟩), htext⟩

/-- What takes the text of each line with or without examples to the other takes the texts of a file
there, if it keeps blank lines. -/
theorem map_fileTexts {g : List Char → List Char} (hblank : g [] = []) {examples' : Bool}
    (h : ∀ l ∈ fileLines root named rootName, g (l.text examples) = l.text examples') :
    (fileTexts examples root named rootName).map g = fileTexts examples' root named rootName := by
  have hlines : ∀ ls : List Line, ls ⊆ fileLines root named rootName →
      (ls.map (Line.text examples)).map g = ls.map (Line.text examples') := by
    intro ls hls
    rw [List.map_map]
    exact List.map_congr_left fun l hl => h l (hls hl)
  rw [fileTexts, fileTexts, List.map_append, hlines _ (List.subset_append_left _ _),
    List.map_flatMap]
  congr 1
  refine List.flatMap_congr fun o ho => ?_
  rw [List.map_cons, hblank, hlines]
  intro l hl
  exact List.mem_append_right _ (List.mem_flatMap.mpr ⟨o, ho, hl⟩)

end Texts

/-! ## The tags of a file -/

/-- The fields whose tags stand on lines. -/
def taggedFields (ls : List Line) : List Field :=
  ls.filterMap (·.field?)

private theorem taggedFields_append (ls ms : List Line) :
    taggedFields (ls ++ ms) = taggedFields ls ++ taggedFields ms :=
  List.filterMap_append

private theorem taggedFields_linesOfField (depth : Nat) (f : Field) (opening : List Char)
    (body? : Option (List Line)) :
    taggedFields (linesOfField depth f opening body?) = taggedFields (body?.getD []) ++ [f] := by
  cases body? with
  | none => rfl
  | some body =>
    change taggedFields (body ++ [_]) = _
    rw [taggedFields_append]
    rfl

private theorem perm_append_cross {α : Type} (as bs cs ds : List α) :
    ((as ++ bs) ++ (cs ++ ds)).Perm ((as ++ cs) ++ (bs ++ ds)) := by
  rw [List.append_assoc, List.append_assoc, ← List.append_assoc bs, ← List.append_assoc cs]
  exact (List.perm_append_comm.append_right ds).append_left as

/-- The tags of named objects, each in the declaration of its own. -/
def declaredTags (named : List NamedObject) : List Field :=
  named.flatMap fun o => taggedFields (linesOfFields 1 o.fields)

mutual

private theorem perm_taggedFields_typeLines? (depth : Nat) (node : Node) :
    (taggedFields ((typeLines? depth node).getD []) ++ declaredTags node.preorder).Perm
      node.deepFields := by
  match node with
  | .scalar _ => exact .refl _
  | .array element => exact perm_taggedFields_typeLines? depth element
  | .object none fields => exact perm_taggedFields_linesOfFields depth fields
  | .object (some _) fields => exact perm_taggedFields_linesOfFields 1 fields
termination_by structural node

private theorem perm_taggedFields_linesOfFields (depth : Nat) (fs : List Field) :
    (taggedFields (linesOfFields depth fs) ++ declaredTags (fieldsPreorder fs)).Perm
      (deepFields fs) := by
  match fs with
  | [] => exact .refl _
  | ⟨key, node, example?, quoted⟩ :: fs =>
    have hnode := perm_taggedFields_typeLines? (depth + 1) node
    have hrest := perm_taggedFields_linesOfFields depth fs
    have hhead : (taggedFields (linesOfField depth ⟨key, node, example?, quoted⟩
        (typeOpening node) (typeLines? (depth + 1) node))).Perm
        (⟨key, node, example?, quoted⟩ ::
          taggedFields ((typeLines? (depth + 1) node).getD [])) := by
      rw [taggedFields_linesOfField]
      exact List.perm_append_comm
    rw [linesOfFields, taggedFields_append, fieldsPreorder, declaredTags, List.flatMap_append]
    refine ((hhead.append_right _).append_right _).trans (.cons _ ?_)
    exact (perm_append_cross _ _ _ _).trans (hnode.append hrest)
termination_by structural fs

end

/-- Each field of a model has its tag on one line of the file. -/
theorem perm_taggedFields_fileLines {node : Node} {root : RootFields}
    (hroot : node.rootFields = .ok root) (rootName : String) :
    (taggedFields (fileLines root (fieldsPreorder root.fields) rootName)).Perm
      node.deepFields := by
  have hdeclaration : ∀ name isArray fields,
      taggedFields (declarationLines name isArray fields) =
        taggedFields (linesOfFields 1 fields) := by
    intro name isArray fields
    change taggedFields (linesOfFields 1 fields ++ [_]) = _
    rw [taggedFields_append]
    exact List.append_nil _
  have hnamed : taggedFields ((fieldsPreorder root.fields).flatMap fun o =>
      declarationLines o.typeName false o.fields) = declaredTags (fieldsPreorder root.fields) := by
    rw [taggedFields, List.filterMap_flatMap]
    exact List.flatMap_congr fun o _ => hdeclaration o.typeName false o.fields
  rw [fileLines, taggedFields_append, hdeclaration, hnamed, rootFields_deepFields hroot]
  exact perm_taggedFields_linesOfFields 1 root.fields

/-! ## The text of a file -/

/-- Lines are written one after the other. -/
theorem unlines_append (ls ms : List (List Char)) :
    Text.unlines (ls ++ ms) = Text.unlines ls ++ Text.unlines ms :=
  List.flatMap_append

private theorem declaration_eq (style : Style) (name : String) (isArray : Bool)
    (fields : List Field) :
    declaration style name isArray fields =
      .ok (String.ofList (Text.unlines
        ((declarationLines name isArray fields).map (Line.text style.withExamples)))) := by
  have hopening : Template.structOpen.render
      [("name", .text name), ("is_array", .bool isArray)] =
        .ok ("type " ++
          (name ++ (" " ++ ((if isArray then "[]" else "") ++ "struct \x7b\n")))) := by
    cases isArray <;> rfl
  rw [declaration, hopening]
  change Except.ok _ = _
  congr 1
  rw [← String.toList_inj, String.toList_ofList, declarationLines, List.map_cons, List.map_append,
    texts_linesOfFields, ← List.singleton_append, unlines_append, unlines_append]
  simp only [String.toList_append, String.toList_ofList]
  cases isArray <;> simp [Text.unlines, Line.text]

/-- The texts of the lines of a head, if there is one. -/
def headTexts (package? : Option String) (imports : List String) : List (List Char) :=
  match package? with
  | none => []
  | some package =>
    ["// Code generated by configd. DO NOT EDIT.".toList, [],
      "package ".toList ++ package.toList, []] ++
      if imports = [] then []
      else
        "import (".toList :: ((imports.map fun i => '\t' :: '"' :: (i.toList ++ ['"'])) ++
          [[')'], []])

private theorem preamble_eq (style : Style) (root : List Field) (named : List NamedObject) :
    preamble style root named =
      .ok (String.ofList (Text.unlines (headTexts style.package? (imports root named)))) := by
  unfold preamble headTexts
  cases style.package? with
  | none => rfl
  | some package =>
    have hrender : Template.structPreamble.render
        [("package", .text package), ("imports", .list (imports root named))] =
          .ok ("// Code generated by configd. DO NOT EDIT.\n\npackage " ++ (package ++ ("\n\n" ++
            ((if imports root named = [] then "" else "import (\n" ++
              (String.join ((imports root named).map fun i => "\t\"" ++ i ++ "\"\n") ++
                ")\n\n")) ++ "")))) := by
      cases imports root named <;> rfl
    dsimp only
    rw [hrender]
    congr 1
    rw [← String.toList_inj, String.toList_ofList]
    by_cases himports : imports root named = []
    · simp [himports, Text.unlines]
    · simp [himports, Text.unlines, String.toList_join, List.flatMap_map]

/-- A file is written line by line, the head first. -/
theorem source_eq_unlines (style : Style) {model : Model} {root : RootFields}
    (hroot : model.root.rootFields = .ok root) (rootName : String) :
    source style model rootName = .ok (String.ofList (Text.unlines
      (headTexts style.package? (imports root.fields model.named) ++
        fileTexts style.withExamples root model.named rootName))) := by
  have hothers : ∀ named : List NamedObject,
      (named.mapM fun o => (declaration style o.typeName false o.fields).map ("\n" ++ ·)) =
        .ok (named.map fun o => String.ofList (Text.unlines
          ([] :: (declarationLines o.typeName false o.fields).map
            (Line.text style.withExamples)))) := by
    intro named
    rw [mapM_eq_ok_iff, List.forall₂_map_right_iff, List.forall₂_same]
    intro o _
    rw [declaration_eq]
    change Except.ok _ = _
    congr 1
    rw [← String.toList_inj]
    simp only [String.toList_append, String.toList_ofList]
    rfl
  rw [source, hroot]
  change (preamble style root.fields model.named >>= fun head =>
    declaration style rootName root.isArray root.fields >>= fun first =>
      model.named.mapM _ >>= fun others => Except.ok (head ++ first ++ String.join others)) = _
  rw [preamble_eq, declaration_eq, hothers]
  change Except.ok _ = _
  congr 1
  rw [← String.toList_inj, fileTexts, String.toList_ofList, unlines_append, unlines_append]
  simp only [String.toList_append, String.toList_ofList, String.toList_join, List.flatMap_map,
    List.append_assoc]
  rw [Text.unlines, Text.unlines, Text.unlines, List.flatMap_assoc]
  rfl

/-- A file that is not laid out is its source. -/
theorem emit_eq_source {style : Style} (h : style.format = false) (model : Model)
    (rootName : String) : emit style model rootName = source style model rootName := by
  unfold emit
  rw [h]
  cases source style model rootName <;> rfl

/-- A file without a head is written line by line. -/
theorem source_eq {style : Style} (hpackage : style.package? = none) {model : Model}
    {root : RootFields} (hroot : model.root.rootFields = .ok root) (rootName : String) :
    source style model rootName = .ok (String.ofList (Text.unlines
      (fileTexts style.withExamples root model.named rootName))) := by
  rw [source_eq_unlines style hroot, hpackage]
  rfl

end Exemplar.Struct
