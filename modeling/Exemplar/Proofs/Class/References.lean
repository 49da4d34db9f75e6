import Exemplar.Proofs.Class.Rejection
import Exemplar.Proofs.Class.Syntax
import Exemplar.Proofs.Shape.References

/-!
# References in class files

The classes that a file of classes names and the setters that it calls.  The main statement: in
the file of a document's model, every class that is named is one of the further classes, and every
setter that a generator calls belongs to a scalar field of the object that it is called on.
-/

namespace Exemplar.Class

/-! ## Names and calls -/

/-- The classes that a type names. -/
def TypeExpr.references : TypeExpr → List String
  | scalar _ => []
  | named typeName => [typeName]
  | array element => element.references

/-- The classes that an initial value names: that of an object, or that of an array and those of
the objects in it. -/
def Initial.references : Initial → List String
  | literal _ => []
  | object typeName => [typeName]
  | generated typeName blocks => typeName :: blocks.map (·.typeName)

/-- The classes that a member names. -/
def Member.references (m : Member) : List String :=
  m.type.references ++ m.initial.references

/-- The statements of the generator of a member, item by item. -/
def Member.blocks (m : Member) : List Block :=
  match m.initial with
  | .generated _ blocks => blocks
  | .literal _ | .object _ => []

/-- Whether the text of a member declares a setter of a given name. -/
def Member.DeclaresSetter (d : Dialect) (name : String) (m : Member) : Prop :=
  ∃ front back, m.text d = .ok (front ++ ("set" ++ name ++ "(") ++ back)

/-- Whether all references of a file have their declaration: each class that a member names is a
further class of the file, and each setter that is called on an object of a class is that of a
scalar field of a named object, which a member of that class declares. -/
structure FileSyntax.Closed (d : Dialect) (named : List NamedObject) (file : FileSyntax) :
    Prop where
  declared : ∀ c ∈ file.classes, ∀ m ∈ c.members, ∀ name ∈ m.references,
    ∃ c' ∈ file.others, c'.name = name
  setters : ∀ c ∈ file.classes, ∀ m ∈ c.members, ∀ b ∈ m.blocks, ∀ name value,
    Statement.set name value ∈ b.statements →
      ∃ o ∈ named, o.typeName = b.typeName ∧
        ∃ f ∈ o.fields, (∃ kind, f.node = .scalar kind) ∧ Ident.ofKey f.key = name ∧
          ∃ c' ∈ file.others, c'.name = b.typeName ∧ ∃ m' ∈ c'.members,
            memberSyntax d f = .ok m' ∧ m'.DeclaresSetter d name

/-! ## Setters -/

/-- The text before the name of a setter, in the accessors of a member. -/
def Dialect.beforeSetter : Dialect → String
  | java _ => ";\n    \x7d\n\n    public void "
  | typescript => ";\n    \x7d\n\n    public "

private theorem exists_setter_of_pieces (d : Dialect) {template : Template} {payload : Payload}
    {name : String} (h : failure? (template.render payload) = none)
    (hname : payload.lookup "name" = some (.text name)) (n : Nat)
    (hpieces : template.pieces = template.pieces.take n ++
      ([.text (d.beforeSetter ++ "set"), .slot "name", .text "("] ++
        template.pieces.drop (n + 3))) :
    ∃ front back, template.render payload = .ok (front ++ ("set" ++ name ++ "(") ++ back) := by
  obtain ⟨text, htext⟩ := exists_ok_of_failure? h
  obtain ⟨front, back, rfl⟩ := Template.exists_of_render htext hpieces hname
  refine ⟨front ++ d.beforeSetter, back, htext.trans ?_⟩
  simp only [String.append_assoc]

private theorem declaresSetter (d : Dialect) (m : Member) :
    m.DeclaresSetter d (Ident.ofKey m.key) := by
  have hplain : d.templates.accessors.pieces = d.templates.accessors.pieces.take 11 ++
      ([.text (d.beforeSetter ++ "set"), .slot "name", .text "("] ++
        d.templates.accessors.pieces.drop 14) := by
    cases d <;> rfl
  have harray : d.templates.arrayAccessors.pieces = d.templates.arrayAccessors.pieces.take 13 ++
      ([.text (d.beforeSetter ++ "set"), .slot "name", .text "("] ++
        d.templates.arrayAccessors.pieces.drop 16) := by
    cases d <;> rfl
  unfold Member.DeclaresSetter Member.text
  cases m.initial with
  | literal text =>
    have hnever := failure?_accessors d m.key (m.type.text d) (some text)
    exact exists_setter_of_pieces d hnever rfl 11 hplain
  | object typeName =>
    have hnever := failure?_accessors d m.key (m.type.text d) (d.nestedDefault? typeName)
    exact exists_setter_of_pieces d hnever rfl 11 hplain
  | generated typeName blocks =>
    have hnever := failure?_arrayAccessors d m.key (m.type.text d)
      (d.arrayInit typeName blocks.length) (blockTexts d 0 blocks)
    exact exists_setter_of_pieces d hnever rfl 13 harray

/-! ## The tree of a model -/

variable {d : Dialect}

private theorem scalar_of_set {members : List (String × Json.Value)} {f : Field}
    {l : List Statement} (h : memberStatements d members f = .ok l) {name value : String}
    (hset : Statement.set name value ∈ l) :
    (∃ kind, f.node = .scalar kind) ∧ Ident.ofKey f.key = name := by
  unfold memberStatements at h
  split at h
  · obtain rfl := Except.ok.inj h
    cases hset
  · split at h
    · next kind hnode =>
      split at h
      · obtain rfl := Except.ok.inj h
        cases hset
      · obtain ⟨text, -, rfl⟩ := map_eq_ok_iff.mp h
        obtain ⟨rfl, -⟩ := Statement.set.inj (List.mem_singleton.mp hset)
        exact ⟨⟨kind, hnode⟩, rfl⟩
    · obtain rfl := Except.ok.inj h
      cases List.mem_singleton.mp hset

private theorem exists_field_of_set {typeName key : String} {fields : List Field} {v : Json.Value}
    {b : Block} (h : itemBlock d typeName key fields v = .ok b) {name value : String}
    (hset : Statement.set name value ∈ b.statements) :
    ∃ f ∈ fields, (∃ kind, f.node = .scalar kind) ∧ Ident.ofKey f.key = name := by
  obtain ⟨-, members, statements, -, hstatements, hflatten⟩ := itemBlock_ok h
  rw [hflatten] at hset
  obtain ⟨l, hl, hset⟩ := List.mem_flatten.mp hset
  obtain ⟨f, hf, hmember⟩ := exists_of_mem_mapM hstatements hl
  exact ⟨f, hf, scalar_of_set hmember hset⟩

private theorem references_of_memberSyntax {f : Field} {m : Member} (h : memberSyntax d f = .ok m) :
    m.key = f.key ∧
      (∀ name ∈ m.references, ∃ o, f.node.referred? = some o ∧ o.typeName = name) ∧
      ∀ b ∈ m.blocks, ∃ o v, f.node.referred? = some o ∧ o.typeName = b.typeName ∧
        itemBlock d o.typeName f.key o.fields v = .ok b := by
  obtain ⟨key, node, found?, quoted⟩ := f
  match node with
  | .scalar kind =>
    obtain ⟨value, -, rfl⟩ := map_eq_ok_iff.mp h
    exact ⟨rfl, fun name hname => (by cases hname), fun b hb => (by cases hb)⟩
  | .array (.scalar kind) =>
    obtain ⟨values, -, rfl⟩ := map_eq_ok_iff.mp h
    exact ⟨rfl, fun name hname => (by cases hname), fun b hb => (by cases hb)⟩
  | .array (.object (some typeName) fields) =>
    obtain ⟨blocks, hblocks, rfl⟩ := map_eq_ok_iff.mp h
    have hitem : ∀ b ∈ blocks, b.typeName = typeName ∧
        ∃ v, itemBlock d typeName key fields v = .ok b := by
      intro b hb
      obtain ⟨v, -, hv⟩ := exists_of_mem_mapM hblocks hb
      exact ⟨(itemBlock_ok hv).1, v, hv⟩
    refine ⟨rfl, fun name hname => ⟨_, rfl, ?_⟩, fun b hb => ?_⟩
    · change name ∈ typeName :: (typeName :: blocks.map (·.typeName)) at hname
      simp only [List.mem_cons, List.mem_map] at hname
      rcases hname with rfl | rfl | ⟨b, hb, rfl⟩
      · rfl
      · rfl
      · exact (hitem b hb).1.symm
    · obtain ⟨htype, v, hv⟩ := hitem b hb
      exact ⟨_, v, rfl, htype.symm, hv⟩
  | .object (some typeName) fields =>
    obtain rfl := Except.ok.inj h
    refine ⟨rfl, fun name hname => ⟨_, rfl, ?_⟩, fun b hb => (by cases hb)⟩
    change name ∈ [typeName, typeName] at hname
    simp only [List.mem_cons, List.not_mem_nil, or_false, or_self] at hname
    exact hname.symm
  | .array (.object none _) | .array (.array _) | .object none _ => cases h

private theorem exists_declared_of_member {model : Model} {rootName : String} {file : FileSyntax}
    (h : fileSyntax d model rootName = .ok file) {c : ClassSyntax} (hc : c ∈ file.classes)
    {m : Member} (hm : m ∈ c.members) : ∃ f ∈ model.declared, memberSyntax d f = .ok m := by
  obtain ⟨root, hroot, -, hfirst, hothers⟩ := fileSyntax_ok h
  rw [declared_of_rootFields hroot]
  rcases List.mem_cons.mp hc with rfl | hc
  · obtain ⟨f, hf, hmember⟩ := exists_of_mem_mapM (classSyntax_ok hfirst).2 hm
    exact ⟨f, List.mem_append_left _ hf, hmember⟩
  · obtain ⟨o, ho, hclass⟩ := exists_of_mem_mapM hothers hc
    obtain ⟨f, hf, hmember⟩ := exists_of_mem_mapM (classSyntax_ok hclass).2 hm
    exact ⟨f, List.mem_append_right _ (List.mem_flatMap.mpr ⟨o, ho, hf⟩), hmember⟩

private theorem exists_class_of_named {model : Model} {rootName : String} {file : FileSyntax}
    (h : fileSyntax d model rootName = .ok file) {o : NamedObject} (ho : o ∈ model.named) :
    ∃ c ∈ file.others, c.name = o.typeName ∧
      ∀ f ∈ o.fields, ∃ m ∈ c.members, memberSyntax d f = .ok m := by
  obtain ⟨root, -, -, -, hothers⟩ := fileSyntax_ok h
  obtain ⟨c, hc, hclass⟩ := exists_mem_of_mapM hothers ho
  obtain ⟨hname, hmembers⟩ := classSyntax_ok hclass
  exact ⟨c, hc, hname, fun f hf => exists_mem_of_mapM hmembers hf⟩

/-- The file of the model of a document has a declaration for each of its references. -/
theorem closed_of_infer {o : InferOptions} {v : Json.Value} {model : Model}
    (hinfer : infer o v = .ok model) {rootName : String} {file : FileSyntax}
    (h : fileSyntax d model rootName = .ok file) : file.Closed d model.named where
  declared := by
    intro c hc m hm name hname
    obtain ⟨f, hf, hmember⟩ := exists_declared_of_member h hc hm
    obtain ⟨x, hx, rfl⟩ := (references_of_memberSyntax hmember).2.1 name hname
    have hnamed := infer_referred hinfer (infer_declared_subset hinfer hf) hx
    obtain ⟨c', hc', hname', -⟩ := exists_class_of_named h hnamed
    exact ⟨c', hc', hname'⟩
  setters := by
    intro c hc m hm b hb name value hset
    obtain ⟨f, hf, hmember⟩ := exists_declared_of_member h hc hm
    obtain ⟨x, item, hx, htype, hblock⟩ := (references_of_memberSyntax hmember).2.2 b hb
    obtain ⟨g, hg, hscalar, rfl⟩ := exists_field_of_set hblock hset
    have hnamed := infer_referred hinfer (infer_declared_subset hinfer hf) hx
    obtain ⟨c', hc', hname', hmembers⟩ := exists_class_of_named h hnamed
    obtain ⟨m', hm', hmember'⟩ := hmembers g hg
    refine ⟨x, hnamed, htype, g, hg, hscalar, rfl, c', hc', hname'.trans htype, m', hm', hmember',
      ?_⟩
    rw [← (references_of_memberSyntax hmember').1]
    exact declaresSetter d m'

end Exemplar.Class
