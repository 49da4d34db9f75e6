import Exemplar.Class.Emit
import Exemplar.Proofs.Class.Acceptance
import Exemplar.Proofs.Shape.Depth
import Exemplar.Proofs.Template.Filled

/-!
# Rejected items

The values that keep a model from being written as classes, in the order in which a writer meets
them.  They stand in arrays only.  The main statement: for the model of a document under named
nesting, both languages fail exactly when an array holds a rejected item, with the error of the
first one.
-/

namespace Exemplar.Class

/-! ## Rejections in order -/

/-- The raw items of an array field. -/
def rawItems (f : Field) : List Json.Value :=
  (f.example?.getD .null).items

/-- The error of a value that a kind does not accept. -/
def scalarRejections (key : String) (kind : ScalarKind) (quoted : Bool) (v : Json.Value) :
    List Error :=
  if Accepts quoted kind v then [] else [.shapeMismatch key (.literal kind) (.value v.kind)]

/-- The error of the member of an item under the key of a field.  A null is passed over where the
type cannot be null, and so is a member that is no scalar. -/
def memberRejections (members : List (String × Json.Value)) (f : Field) : List Error :=
  match members.lookup f.key, f.node with
  | some v, .scalar kind =>
    if v.isNull ∧ ¬ kind.isNullable then [] else scalarRejections f.key kind f.quoted v
  | _, _ => []

/-- The errors of an item of an array of objects. -/
def itemRejections (key : String) (fields : List Field) : Json.Value → List Error
  | .object members => fields.flatMap (memberRejections members)
  | v => [.shapeMismatch key .object (.value v.kind)]

/-- The errors of the items of a field. -/
def fieldRejections (f : Field) : List Error :=
  match f.node with
  | .array (.scalar kind) => (rawItems f).flatMap (scalarRejections f.key kind false)
  | .array (.object (some _) fields) => (rawItems f).flatMap (itemRejections f.key fields)
  | _ => []

/-- The errors of a model: those of the fields of the root, and then those of the fields of each
named object. -/
def modelRejections (model : Model) : List Error :=
  model.declared.flatMap fieldRejections

/-! ## Rejected items as a condition -/

/-- Whether an item is no object, or an object in which a scalar member of the element type has a
value that its kind does not accept, null where the type cannot be null apart. -/
def ItemRejected (fields : List Field) (item : Json.Value) : Prop :=
  (∀ members, item ≠ .object members) ∨
    ∃ members, item = .object members ∧ ∃ f ∈ fields, ∃ kind v, f.node = .scalar kind ∧
      members.lookup f.key = some v ∧ ¬ (v.isNull ∧ ¬ kind.isNullable) ∧
        ¬ Accepts f.quoted kind v

/-- Whether a field is an array with an item that its element type rejects. -/
def HoldsRejected (f : Field) : Prop :=
  (∃ kind, f.node = .array (.scalar kind) ∧ ∃ item ∈ rawItems f, ¬ Accepts false kind item) ∨
    ∃ typeName fields, f.node = .array (.object (some typeName) fields) ∧
      ∃ item ∈ rawItems f, ItemRejected fields item

private theorem scalarRejections_ne_nil_iff {key : String} {kind : ScalarKind} {quoted : Bool}
    {v : Json.Value} : scalarRejections key kind quoted v ≠ [] ↔ ¬ Accepts quoted kind v := by
  rw [scalarRejections]
  split
  · next h => exact ⟨fun h' => absurd rfl h', fun h' => absurd h h'⟩
  · next h => exact ⟨fun _ => h, fun _ => List.cons_ne_nil _ _⟩

private theorem memberRejections_ne_nil_iff {members : List (String × Json.Value)} {f : Field} :
    memberRejections members f ≠ [] ↔ ∃ kind v, f.node = .scalar kind ∧
      members.lookup f.key = some v ∧ ¬ (v.isNull ∧ ¬ kind.isNullable) ∧
        ¬ Accepts f.quoted kind v := by
  rw [memberRejections]
  constructor
  · intro h
    split at h
    · next v kind hv hnode =>
      split at h
      · exact absurd rfl h
      · next hnull => exact ⟨kind, v, hnode, hv, hnull, scalarRejections_ne_nil_iff.mp h⟩
    · exact absurd rfl h
  · rintro ⟨kind, v, hnode, hv, hnull, haccepts⟩
    simp only [hv, hnode]
    rw [if_neg hnull]
    exact scalarRejections_ne_nil_iff.mpr haccepts

/-- An item has an error exactly when it is rejected. -/
theorem itemRejections_ne_nil_iff {key : String} {fields : List Field} {item : Json.Value} :
    itemRejections key fields item ≠ [] ↔ ItemRejected fields item := by
  match item with
  | .object members =>
    rw [itemRejections, Ne, List.flatMap_eq_nil_iff]
    push Not
    constructor
    · rintro ⟨f, hf, h⟩
      exact .inr ⟨members, rfl, f, hf, memberRejections_ne_nil_iff.mp h⟩
    · rintro (h | ⟨members', hmembers, f, hf, h⟩)
      · exact absurd rfl (h members)
      · obtain rfl := Json.Value.object.inj hmembers
        exact ⟨f, hf, memberRejections_ne_nil_iff.mpr h⟩
  | .null | .bool _ | .number _ | .string _ | .array _ =>
    exact ⟨fun _ => .inl (fun _ h => by cases h), fun _ => List.cons_ne_nil _ _⟩

private theorem flatMap_ne_nil_iff {α β : Type} {f : α → List β} {xs : List α} :
    xs.flatMap f ≠ [] ↔ ∃ x ∈ xs, f x ≠ [] := by
  rw [Ne, List.flatMap_eq_nil_iff]
  push Not
  rfl

private theorem fieldRejections_ne_nil_iff {f : Field} :
    fieldRejections f ≠ [] ↔ HoldsRejected f := by
  rw [fieldRejections]
  constructor
  · intro h
    split at h
    · next kind hnode =>
      obtain ⟨item, hitem, h⟩ := flatMap_ne_nil_iff.mp h
      exact .inl ⟨kind, hnode, item, hitem, scalarRejections_ne_nil_iff.mp h⟩
    · next typeName fields hnode =>
      obtain ⟨item, hitem, h⟩ := flatMap_ne_nil_iff.mp h
      exact .inr ⟨typeName, fields, hnode, item, hitem, itemRejections_ne_nil_iff.mp h⟩
    · exact absurd rfl h
  · rintro (⟨kind, hnode, item, hitem, h⟩ | ⟨typeName, fields, hnode, item, hitem, h⟩)
    · simp only [hnode]
      exact flatMap_ne_nil_iff.mpr ⟨item, hitem, scalarRejections_ne_nil_iff.mpr h⟩
    · simp only [hnode]
      exact flatMap_ne_nil_iff.mpr ⟨item, hitem, itemRejections_ne_nil_iff.mpr h⟩

/-! ## What a writer fails with -/

private theorem failure?_literal (d : Dialect) (kind : ScalarKind) (v : Json.Value) (key : String)
    (quoted : Bool) :
    failure? (literal d kind v key quoted) = (scalarRejections key kind quoted v).head? := by
  have haccepts := isSome_literal?_iff d quoted kind v
  rw [literal, scalarRejections]
  cases hv : literal? d quoted kind v with
  | some text =>
    rw [hv] at haccepts
    rw [if_pos (haccepts.mp rfl)]
    rfl
  | none =>
    rw [hv] at haccepts
    rw [if_neg fun h => by cases haccepts.mpr h]
    rfl

private theorem failure?_fieldStatements (d : Dialect) (var : String)
    (members : List (String × Json.Value)) (f : Field) :
    failure? (fieldStatements d var members f) = (memberRejections members f).head? := by
  rw [fieldStatements, memberRejections]
  cases members.lookup f.key with
  | none => rfl
  | some v =>
    cases f.node with
    | scalar kind =>
      dsimp only
      split
      · rfl
      · rw [failure?_map, failure?_literal]
    | array element => rfl
    | object name? fields => rfl

private theorem failure?_itemStatements (d : Dialect) (typeName key : String) (fields : List Field)
    (index : Nat) (v : Json.Value) :
    failure? (itemStatements d typeName key fields index v) =
      (itemRejections key fields v).head? := by
  match v with
  | .null | .bool _ | .number _ | .string _ | .array _ => rfl
  | .object members =>
    refine (failure?_bind_left fun _ => rfl).trans (failure?_mapM fun f _ => ?_)
    exact failure?_fieldStatements d (itemVar index) members f

/-- The statements for an array fail with the first error of its items. -/
theorem failure?_arrayStatements (d : Dialect) (typeName key : String) (items : List Json.Value)
    (fields : List Field) :
    failure? (arrayStatements d typeName key items fields) =
      (items.flatMap (itemRejections key fields)).head? := by
  have hfrom : ∀ index, failure? (statementsFrom d typeName key fields index items) =
      (items.flatMap (itemRejections key fields)).head? := by
    induction items with
    | nil => exact fun _ => rfl
    | cons v vs ih =>
      intro index
      rw [statementsFrom, List.flatMap_cons]
      refine failure?_bind (failure?_itemStatements d typeName key fields index v) fun _ _ => ?_
      rw [← ih (index + 1)]
      cases statementsFrom d typeName key fields (index + 1) vs <;> rfl
  exact hfrom 0

/-! ## Templates that are always filled in -/

/-- A member with accessors can always be written. -/
theorem failure?_accessors (d : Dialect) (key type : String) (value? : Option String) :
    failure? (accessors d key type value?) = none := by
  unfold accessors
  apply Template.failure?_render
  cases d <;> rfl

/-- A member with a generator can always be written. -/
theorem failure?_arrayAccessors (d : Dialect) (key type init : String)
    (statements : List String) : failure? (arrayAccessors d key type init statements) = none := by
  unfold arrayAccessors
  apply Template.failure?_render
  cases d <;> rfl

/-! ## Fields that an inference finds -/

/-- Whether a field can be written but for the items of an array: the example of a scalar is
accepted, an array has scalars or named objects for items, and an object has a name. -/
def Emittable (f : Field) : Prop :=
  match f.node with
  | .scalar kind => Accepts f.quoted kind (f.example?.getD .null)
  | .array (.scalar _) | .array (.object (some _) _) | .object (some _) _ => True
  | _ => False

private theorem emittable_of_treeField {o : InferOptions} (ho : o.nesting = .named) {key : String}
    {v : Json.Value} {f : Field} (h : treeField o key v = .ok f) : Emittable f := by
  refine treeField_induct (motive := fun _ _ f => Emittable f)
    ⟨?scalar, ?scalars, ?objects, ?nested, ?object⟩ key v f h
  case scalar => exact fun key v r hr => accepts_leafKind hr
  case scalars => exact fun _ _ _ _ => trivial
  case objects => exact fun _ _ _ _ _ _ => trivial
  case nested => exact fun _ _ _ _ _ ih => ih
  case object =>
    intro key ms fields _ _
    rw [ho]
    exact trivial

private theorem failure?_member (d : Dialect) {f : Field} (hf : Emittable f) :
    failure? (member d f) = (fieldRejections f).head? := by
  obtain ⟨key, node, found?, quoted⟩ := f
  match node with
  | .scalar kind =>
    have haccepts : Accepts quoted kind (found?.getD .null) := hf
    have hliteral := failure?_literal d kind (found?.getD .null) key quoted
    rw [scalarRejections, if_pos haccepts] at hliteral
    exact (failure?_bind_left fun value => failure?_accessors d key _ _).trans hliteral
  | .array (.scalar kind) =>
    refine (failure?_bind_left fun values => failure?_accessors d key _ _).trans ?_
    exact failure?_mapM fun v _ => failure?_literal d kind v key false
  | .array (.object (some typeName) fields) =>
    refine (failure?_bind_left fun statements => failure?_arrayAccessors d key _ _ _).trans ?_
    exact failure?_arrayStatements d typeName key _ fields
  | .object (some typeName) fields => exact failure?_accessors d key typeName _
  | .array (.object none _) | .array (.array _) | .object none _ => exact hf.elim

/-! ## Classes and files -/

private theorem failure?_body (d : Dialect) {fields : List Field} (h : ∀ f ∈ fields, Emittable f) :
    failure? (body d fields) = (fields.flatMap fieldRejections).head? := by
  rw [body, failure?_map]
  exact failure?_mapM fun f hf => failure?_member d (h f hf)

private theorem failure?_rootClass (d : Dialect) (name : String) {root : RootFields}
    (h : ∀ f ∈ root.fields, Emittable f) :
    failure? (rootClass d name root) = (root.fields.flatMap fieldRejections).head? := by
  refine failure?_bind_right ?_ fun header => ?_
  · apply Template.failure?_render
    cases d <;> rfl
  · exact (failure?_bind_left fun _ => rfl).trans (failure?_body d h)

private theorem failure?_namedClass (d : Dialect) {o : NamedObject}
    (h : ∀ f ∈ o.fields, Emittable f) :
    failure? (namedClass d o) = (o.fields.flatMap fieldRejections).head? := by
  refine failure?_bind_right ?_ fun opening => ?_
  · apply Template.failure?_render
    cases d <;> rfl
  · exact (failure?_bind_left fun _ => rfl).trans (failure?_body d h)

private theorem failure?_emit (d : Dialect) {model : Model} {root : RootFields} (rootName : String)
    (hroot : model.root.rootFields = .ok root) (h : ∀ f ∈ model.declared, Emittable f) :
    failure? (emit d model rootName) = (modelRejections model).head? := by
  have hdeclared : model.declared = root.fields ++ model.named.flatMap (·.fields) :=
    declared_of_rootFields hroot
  rw [hdeclared] at h
  rw [modelRejections, hdeclared, List.flatMap_append, List.flatMap_assoc]
  rw [emit, hroot]
  change failure? (rootClass d rootName root >>= fun first =>
    model.named.mapM (namedClass d) >>= fun others => .ok (first ++ String.join others)) = _
  refine failure?_bind ?_ fun first _ => ?_
  · exact failure?_rootClass d rootName fun f hf => h f (List.mem_append_left _ hf)
  · refine (failure?_bind_left fun _ => rfl).trans (failure?_mapM fun o ho => ?_)
    refine failure?_namedClass d fun f hf => h f (List.mem_append_right _ ?_)
    exact List.mem_flatMap.mpr ⟨o, ho, hf⟩

/-! ## Models of documents -/

/-- The classes of a document's model fail to be written exactly when an array of it holds a
rejected item, in every language with the error of the first one.  A member that is no array can
always be written. -/
theorem emit_error_iff {o : InferOptions} (ho : o.nesting = .named) {v : Json.Value}
    {model : Model} (h : infer o v = .ok model) (rootName : String) :
    (∀ d, (∃ e, emit d model rootName = .error e) ↔ ∃ f ∈ model.declared, HoldsRejected f) ∧
      (∀ d e, emit d model rootName = .error e ↔ (modelRejections model).head? = some e) ∧
      (∀ d d' e, emit d model rootName = .error e ↔ emit d' model rootName = .error e) ∧
      ∀ d, ∀ f ∈ model.declared, (∀ element, f.node ≠ .array element) →
        ∃ text, member d f = .ok text := by
  obtain ⟨root, hroot⟩ := infer_rootFields h
  have hemittable : ∀ f ∈ model.declared, Emittable f := by
    intro f hf
    obtain ⟨key, value, hfield⟩ := infer_declared h f hf
    exact emittable_of_treeField ho hfield
  have herror : ∀ d e, emit d model rootName = .error e ↔
      (modelRejections model).head? = some e := by
    intro d e
    rw [← failure?_eq_some_iff, failure?_emit d rootName hroot hemittable]
  refine ⟨fun d => ?_, herror, fun d d' e => (herror d e).trans (herror d' e).symm, ?_⟩
  · have hsome : (∃ e, (modelRejections model).head? = some e) ↔ modelRejections model ≠ [] := by
      rw [← Option.isSome_iff_exists, List.isSome_head?]
    rw [exists_congr (herror d), hsome, modelRejections, flatMap_ne_nil_iff]
    exact exists_congr fun f => and_congr_right fun _ => fieldRejections_ne_nil_iff
  · intro d f hf harray
    have hnone : fieldRejections f = [] := by
      rw [fieldRejections]
      split
      · next kind hnode => exact absurd hnode (harray _)
      · next typeName fields hnode => exact absurd hnode (harray _)
      · rfl
    have hmember := failure?_member d (hemittable f hf)
    rw [hnone] at hmember
    cases htext : member d f with
    | ok text => exact ⟨text, rfl⟩
    | error e =>
      rw [htext] at hmember
      cases hmember

/-- A list of ports of which one is a name, behind a list of hosts of which one lacks its port. -/
def portsDocument : Json.Value :=
  .object
    [("hosts", .array
       [.object [("port", .number (.integer 80 (by decide)))], .object [("port", .null)],
        .object []]),
     ("ports", .array [.number (.integer 80 (by decide)), .string "http"])]

/-- A port that is null or lacking is passed over, and a port that is a name is an error in both
languages. -/
theorem emit_error_iff_ports :
    ∃ model, infer { nesting := .named } portsDocument = .ok model ∧
      ∀ d, emit d model "Config" =
        .error (.shapeMismatch "ports" (.literal .int64) (.value .string)) :=
  ⟨_, rfl, fun d => ((emit_error_iff (o := { nesting := .named }) (v := portsDocument) rfl rfl
    "Config").2.1 d _).mpr rfl⟩

end Exemplar.Class
