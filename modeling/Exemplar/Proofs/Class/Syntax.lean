import Exemplar.Class.Emit
import Exemplar.Proofs.Outcome

/-!
# The syntax of class files

A file of classes as a tree: its classes, their members with types and initial values, and the
statements of the generators.  The main statement: every text that is emitted is the text of the
tree that is read off the model.
-/

namespace Exemplar.Class

/-! ## Trees -/

/-- A type: a scalar, a class by its name, or an array. -/
inductive TypeExpr
  | scalar (kind : ScalarKind)
  | named (typeName : String)
  | array (element : TypeExpr)

/-- A statement about the object of an item: a call of the setter of a given name, or what stands
for a member that is an object or an array itself. -/
inductive Statement
  | set (name value : String)
  | placeholder

/-- The statements for one item: the class of the object that is made, and what is done to it. -/
structure Block where
  typeName : String
  statements : List Statement

/-- The initial value of a member: a literal, that of an object of a class, or an array of objects
of a class that a generator makes. -/
inductive Initial
  | literal (text : String)
  | object (typeName : String)
  | generated (typeName : String) (blocks : List Block)

/-- A member under the key of its field. -/
structure Member where
  key : String
  type : TypeExpr
  initial : Initial

/-- A class. -/
structure ClassSyntax where
  name : String
  members : List Member

/-- A file: the class of the root, whether that stands for an array, and the further classes. -/
structure FileSyntax where
  root : ClassSyntax
  isArray : Bool
  others : List ClassSyntax

/-- All classes of a file. -/
def FileSyntax.classes (file : FileSyntax) : List ClassSyntax :=
  file.root :: file.others

/-! ## Texts -/

/-- The text of a type. -/
def TypeExpr.text (d : Dialect) : TypeExpr → String
  | scalar kind => d.scalarType kind
  | named typeName => typeName
  | array element => d.arrayType (element.text d)

/-- The text of a statement about a variable. -/
def Statement.text (var : String) : Statement → String
  | set name value => var ++ ".set" ++ name ++ "(" ++ value ++ ");"
  | placeholder => nestedPlaceholder

/-- The texts of the statements for the item at an index. -/
def Block.texts (d : Dialect) (index : Nat) (b : Block) : List String :=
  d.newObject b.typeName (itemVar index) ::
    (b.statements.map (Statement.text (itemVar index)) ++ [d.store (itemVar index) index])

/-- The texts of the statements for items from an index on. -/
def blockTexts (d : Dialect) : (index : Nat) → List Block → List String
  | _, [] => []
  | index, b :: bs => b.texts d index ++ blockTexts d (index + 1) bs

/-- The text of a member with its accessors. -/
def Member.text (d : Dialect) (m : Member) : Except Error String :=
  match m.initial with
  | .literal text => accessors d m.key (m.type.text d) (some text)
  | .object typeName => accessors d m.key (m.type.text d) (d.nestedDefault? typeName)
  | .generated typeName blocks =>
    arrayAccessors d m.key (m.type.text d) (d.arrayInit typeName blocks.length)
      (blockTexts d 0 blocks)

/-- The text of members and of the end of their class. -/
def membersText (d : Dialect) (ms : List Member) : Except Error String :=
  (ms.mapM (Member.text d)).map fun texts => String.join texts ++ "\x7d\n"

/-- The text of a further class. -/
def ClassSyntax.text (d : Dialect) (c : ClassSyntax) : Except Error String := do
  let opening ← d.templates.classOpen.render [("name", .text c.name)]
  let members ← membersText d c.members
  .ok (opening ++ members)

/-- The text of a file. -/
def FileSyntax.text (d : Dialect) (file : FileSyntax) : Except Error String := do
  let header ← d.templates.header.render
    [("name", .text file.root.name), ("is_array", .bool file.isArray),
     ("package", match d.package? with | some p => .text p | none => .null)]
  let members ← membersText d file.root.members
  let others ← file.others.mapM (ClassSyntax.text d)
  .ok (header ++ members ++ String.join others)

/-! ## Trees of models -/

/-- The statement that a field gives rise to for one item, if any. -/
def memberStatements (d : Dialect) (members : List (String × Json.Value)) (f : Field) :
    Except Error (List Statement) :=
  match members.lookup f.key with
  | none => .ok []
  | some v =>
    match f.node with
    | .scalar kind =>
      if v.isNull ∧ ¬ kind.isNullable then .ok []
      else (literal d kind v f.key f.quoted).map fun text => [.set (Ident.ofKey f.key) text]
    | _ => .ok [.placeholder]

/-- The statements for one item of an array under a key. -/
def itemBlock (d : Dialect) (typeName key : String) (fields : List Field) :
    Json.Value → Except Error Block
  | .object members =>
    (fields.mapM (memberStatements d members)).map fun statements =>
      { typeName, statements := statements.flatten }
  | v => .error (.shapeMismatch key .object (.value v.kind))

/-- The member for a field. -/
def memberSyntax (d : Dialect) (f : Field) : Except Error Member :=
  let found := f.example?.getD .null
  match f.node with
  | .scalar kind =>
    (literal d kind found f.key f.quoted).map fun value =>
      { key := f.key, type := .scalar kind, initial := .literal value }
  | .array (.scalar kind) =>
    (found.items.mapM fun v => literal d kind v f.key false).map fun values =>
      { key := f.key, type := .array (.scalar kind), initial := .literal (d.arrayLiteral values) }
  | .array (.object (some typeName) fields) =>
    (found.items.mapM (itemBlock d typeName f.key fields)).map fun blocks =>
      { key := f.key, type := .array (.named typeName), initial := .generated typeName blocks }
  | .array (.object none _) =>
    .error (.shapeMismatch f.key .arrayOfNamedObjects .arrayOfAnonymousObjects)
  | .array (.array _) => .error (.shapeMismatch f.key .arrayOfScalarsOrObjects .nestedArray)
  | .object (some typeName) _ =>
    .ok { key := f.key, type := .named typeName, initial := .object typeName }
  | .object none _ => .error (.shapeMismatch f.key .namedObject .anonymousObject)

/-- The class of a given name with members for fields. -/
def classSyntax (d : Dialect) (name : String) (fields : List Field) : Except Error ClassSyntax :=
  (fields.mapM (memberSyntax d)).map fun members => { name, members }

/-- The file of a model. -/
def fileSyntax (d : Dialect) (model : Model) (rootName : String) : Except Error FileSyntax := do
  let root ← model.root.rootFields
  let first ← classSyntax d rootName root.fields
  let others ← model.named.mapM fun o => classSyntax d o.typeName o.fields
  .ok { root := first, isArray := root.isArray, others }

/-! ## What a tree is made of -/

/-- The block of an item makes an object of the element type, and its statements are those for the
fields. -/
theorem itemBlock_ok {d : Dialect} {typeName key : String} {fields : List Field} {v : Json.Value}
    {b : Block} (h : itemBlock d typeName key fields v = .ok b) :
    b.typeName = typeName ∧ ∃ members statements, v = .object members ∧
      fields.mapM (memberStatements d members) = .ok statements ∧
        b.statements = statements.flatten := by
  match v with
  | .null | .bool _ | .number _ | .string _ | .array _ => cases h
  | .object members =>
    obtain ⟨statements, hstatements, rfl⟩ := map_eq_ok_iff.mp h
    exact ⟨rfl, members, statements, rfl, hstatements, rfl⟩

/-- A class has its name and the members for its fields. -/
theorem classSyntax_ok {d : Dialect} {name : String} {fields : List Field} {c : ClassSyntax}
    (h : classSyntax d name fields = .ok c) :
    c.name = name ∧ fields.mapM (memberSyntax d) = .ok c.members := by
  obtain ⟨ms, hms, rfl⟩ := map_eq_ok_iff.mp h
  exact ⟨rfl, hms⟩

/-- A file is made of the class of its root and of those of the named objects. -/
theorem fileSyntax_ok {d : Dialect} {model : Model} {rootName : String} {file : FileSyntax}
    (h : fileSyntax d model rootName = .ok file) :
    ∃ root, model.root.rootFields = .ok root ∧ file.isArray = root.isArray ∧
      classSyntax d rootName root.fields = .ok file.root ∧
        (model.named.mapM fun o => classSyntax d o.typeName o.fields) = .ok file.others := by
  obtain ⟨root, hroot, h⟩ := bind_eq_ok_iff.mp h
  obtain ⟨first, hfirst, h⟩ := bind_eq_ok_iff.mp h
  obtain ⟨others, hothers, h⟩ := bind_eq_ok_iff.mp h
  obtain rfl := Except.ok.inj h
  exact ⟨root, hroot, rfl, hfirst, hothers⟩

/-! ## What is emitted -/

private theorem fieldStatements_eq (d : Dialect) (var : String)
    (members : List (String × Json.Value)) (f : Field) :
    fieldStatements d var members f =
      (memberStatements d members f).map (List.map (Statement.text var)) := by
  unfold fieldStatements memberStatements
  cases members.lookup f.key with
  | none => rfl
  | some v =>
    cases f.node with
    | scalar kind =>
      dsimp only
      split
      · rfl
      · cases literal d kind v f.key f.quoted <;> rfl
    | array element => rfl
    | object name? fields => rfl

private theorem itemStatements_eq (d : Dialect) (typeName key : String) (fields : List Field)
    (index : Nat) (v : Json.Value) :
    itemStatements d typeName key fields index v =
      (itemBlock d typeName key fields v).map (Block.texts d index) := by
  match v with
  | .null | .bool _ | .number _ | .string _ | .array _ => rfl
  | .object members =>
    have hfields : fields.mapM (fieldStatements d (itemVar index) members) =
        (fields.mapM (memberStatements d members)).map
          (List.map (List.map (Statement.text (itemVar index)))) := by
      rw [map_mapM]
      exact mapM_congr fun f _ => fieldStatements_eq d (itemVar index) members f
    unfold itemStatements itemBlock
    dsimp only
    rw [hfields]
    cases fields.mapM (memberStatements d members) with
    | error e => rfl
    | ok statements =>
      change Except.ok _ = Except.ok _
      rw [Block.texts, List.map_flatten]

/-- The statements that are written for items are those of their blocks. -/
theorem statementsFrom_eq (d : Dialect) (typeName key : String) (fields : List Field)
    (index : Nat) (items : List Json.Value) :
    statementsFrom d typeName key fields index items =
      (items.mapM (itemBlock d typeName key fields)).map (blockTexts d index) := by
  induction items generalizing index with
  | nil => rfl
  | cons v vs ih =>
    rw [statementsFrom, itemStatements_eq, ih, List.mapM_cons]
    cases itemBlock d typeName key fields v with
    | error e => rfl
    | ok b => cases vs.mapM (itemBlock d typeName key fields) <;> rfl

private theorem member_eq (d : Dialect) (f : Field) :
    member d f = memberSyntax d f >>= Member.text d := by
  obtain ⟨key, node, found?, quoted⟩ := f
  match node with
  | .scalar kind =>
    unfold member memberSyntax
    dsimp only
    cases literal d kind (found?.getD .null) key quoted <;> rfl
  | .array (.scalar kind) =>
    unfold member memberSyntax
    dsimp only
    cases (found?.getD .null).items.mapM fun v => literal d kind v key false <;> rfl
  | .array (.object (some typeName) fields) =>
    unfold member memberSyntax arrayStatements
    dsimp only
    rw [statementsFrom_eq]
    cases hblocks : (found?.getD .null).items.mapM (itemBlock d typeName key fields) with
    | error e => rfl
    | ok blocks =>
      rw [(mapM_eq_ok_iff.mp hblocks).length_eq]
      rfl
  | .array (.object none _) | .array (.array _) | .object none _ => rfl
  | .object (some typeName) fields => rfl

private theorem exists_members_of_body {d : Dialect} {fields : List Field} {text : String}
    (h : body d fields = .ok text) :
    ∃ ms, fields.mapM (memberSyntax d) = .ok ms ∧ membersText d ms = .ok text := by
  obtain ⟨texts, htexts, rfl⟩ := map_eq_ok_iff.mp h
  obtain ⟨ms, hms, htext⟩ :=
    exists_mapM_through (fun f _ hf => bind_eq_ok_iff.mp ((member_eq d f).symm.trans hf)) htexts
  refine ⟨ms, hms, ?_⟩
  rw [membersText, htext]
  rfl

private theorem exists_class_of_namedClass {d : Dialect} {o : NamedObject} {text : String}
    (h : namedClass d o = .ok text) :
    ∃ c, classSyntax d o.typeName o.fields = .ok c ∧ c.text d = .ok text := by
  obtain ⟨opening, hopening, h⟩ := bind_eq_ok_iff.mp h
  obtain ⟨members, hmembers, h⟩ := bind_eq_ok_iff.mp h
  obtain ⟨ms, hms, htext⟩ := exists_members_of_body hmembers
  refine ⟨{ name := o.typeName, members := ms }, map_eq_ok_iff.mpr ⟨ms, hms, rfl⟩, ?_⟩
  exact bind_eq_ok_iff.mpr ⟨opening, hopening, bind_eq_ok_iff.mpr ⟨members, htext, h⟩⟩

/-- The file that is emitted for a model is that of the tree. -/
theorem exists_file_of_emit {d : Dialect} {model : Model} {rootName out : String}
    (h : emit d model rootName = .ok out) :
    ∃ file, fileSyntax d model rootName = .ok file ∧ file.text d = .ok out := by
  obtain ⟨root, hroot, h⟩ := bind_eq_ok_iff.mp h
  obtain ⟨first, hfirst, h⟩ := bind_eq_ok_iff.mp h
  obtain ⟨texts, htexts, h⟩ := bind_eq_ok_iff.mp h
  obtain ⟨header, hheader, hfirst⟩ := bind_eq_ok_iff.mp hfirst
  obtain ⟨members, hmembers, hfirst⟩ := bind_eq_ok_iff.mp hfirst
  obtain ⟨ms, hms, hmembersText⟩ := exists_members_of_body hmembers
  obtain ⟨others, hothers, hothersText⟩ :=
    exists_mapM_through (fun _ _ => exists_class_of_namedClass) htexts
  obtain rfl := Except.ok.inj hfirst
  have hclass : classSyntax d rootName root.fields = .ok { name := rootName, members := ms } :=
    map_eq_ok_iff.mpr ⟨ms, hms, rfl⟩
  refine ⟨{ root := { name := rootName, members := ms }, isArray := root.isArray, others }, ?_, ?_⟩
  · refine bind_eq_ok_iff.mpr ⟨root, hroot, bind_eq_ok_iff.mpr ⟨_, hclass, ?_⟩⟩
    exact bind_eq_ok_iff.mpr ⟨others, hothers, rfl⟩
  · refine bind_eq_ok_iff.mpr ⟨header, hheader, bind_eq_ok_iff.mpr ⟨members, hmembersText, ?_⟩⟩
    exact bind_eq_ok_iff.mpr ⟨texts, hothersText, h⟩

end Exemplar.Class
