import Exemplar.Proofs.Shape.Paths
import Exemplar.Proofs.Shape.Registry

/-!
# Well-formed models

What holds of all fields that an inference finds, whatever way they come about: which nodes stand
in arrays, which fields have an example, and which strings are taken for something else.  The main
statement: every list of fields in the tree and in the registry comes from the one object at its
path, with exactly the keys of that object in the order of keys, and all fields are well formed.
-/

namespace Exemplar

/-! ## Lists of fields -/

/-- Whether a node has a list of fields at the end of a path: its own fields, through arrays, or
those inside a field. -/
inductive Node.HasFields : Node → List String → List Field → Prop
  | here (name? : Option String) (fields : List Field) : HasFields (.object name? fields) [] fields
  | element {node : Node} {path : List String} {fields : List Field}
      (h : HasFields node path fields) : HasFields (.array node) path fields
  | inside {name? : Option String} {fs : List Field} {f : Field} {path : List String}
      {fields : List Field} (hf : f ∈ fs) (h : HasFields f.node path fields) :
      HasFields (.object name? fs) (f.key :: path) fields

namespace Node.HasFields

private theorem trans {node : Node} {start path : List String} {name? : Option String}
    {fs fields : List Field} (hstart : node.HasFields start fs)
    (h : (Node.object name? fs).HasFields path fields) :
    node.HasFields (start ++ path) fields := by
  induction hstart with
  | here name?' fs =>
    cases h with
    | here => exact .here name?' _
    | inside hf h => exact .inside hf h
  | element _ ih => exact .element (ih h)
  | inside hf _ ih => exact .inside hf (ih h)

end Node.HasFields

mutual

private theorem Node.exists_hasFields {node : Node} {entry : NamedObject}
    (h : entry ∈ node.preorder) :
    ∃ path, node.HasFields path entry.fields := by
  match node with
  | .scalar _ => cases h
  | .array element =>
    obtain ⟨path, helement⟩ := element.exists_hasFields h
    exact ⟨path, .element helement⟩
  | .object none fields =>
    obtain ⟨f, hf, path, hpath⟩ := exists_hasFields_of_fieldsPreorder fields h
    exact ⟨f.key :: path, .inside hf hpath⟩
  | .object (some typeName) fields =>
    rcases List.mem_cons.mp h with rfl | h
    · exact ⟨[], .here _ _⟩
    · obtain ⟨f, hf, path, hpath⟩ := exists_hasFields_of_fieldsPreorder fields h
      exact ⟨f.key :: path, .inside hf hpath⟩
termination_by structural node

private theorem exists_hasFields_of_fieldsPreorder (fs : List Field) {entry : NamedObject}
    (h : entry ∈ fieldsPreorder fs) :
    ∃ f ∈ fs, ∃ path, f.node.HasFields path entry.fields := by
  match fs with
  | [] => cases h
  | ⟨key, node, example?, quoted⟩ :: fs =>
    rcases List.mem_append.mp h with h | h
    · obtain ⟨path, hpath⟩ := node.exists_hasFields h
      exact ⟨_, List.mem_cons_self, path, hpath⟩
    · obtain ⟨f, hf, path, hpath⟩ := exists_hasFields_of_fieldsPreorder fs h
      exact ⟨f, List.mem_cons_of_mem _ hf, path, hpath⟩
termination_by structural fs

end

/-! ## Strings taken for something else -/

/-- Whether a text spells a number or a truth value of a kind. -/
def Spells : ScalarKind → String → Prop
  | .int64, s => ∃ i, Refinement.int64? s = some i
  | .float64, s => ∃ x, Refinement.float64? s = some x
  | .bool, s => ∃ b, Refinement.bool? s = some b
  | .string, _ | .timestamp, _ | .ipAddress, _ | .any, _ => False

/-- Whether the values of a kind are numbers or truth values. -/
def ScalarKind.IsQuotable (kind : ScalarKind) : Prop :=
  kind = .int64 ∨ kind = .float64 ∨ kind = .bool

private theorem Spells.isQuotable {kind : ScalarKind} {s : String} (h : Spells kind s) :
    kind.IsQuotable := by
  cases kind with
  | int64 => exact .inl rfl
  | float64 => exact .inr (.inl rfl)
  | bool => exact .inr (.inr rfl)
  | string | timestamp | ipAddress | any => cases h

private theorem refine_cases (s : String) :
    (Refinement.refine s).quoted = true ∧ Spells (Refinement.refine s).kind s ∨
      (Refinement.refine s).quoted = false ∧ ¬ (Refinement.refine s).kind.IsQuotable ∧
        (Refinement.refine s).kind ≠ .any := by
  rw [Refinement.refine]
  split
  · exact .inr (by simp [ScalarKind.IsQuotable])
  · split
    · exact .inr (by simp [ScalarKind.IsQuotable])
    · split
      · next h => exact .inl ⟨rfl, Option.isSome_iff_exists.mp h⟩
      · split
        · next h => exact .inl ⟨rfl, Option.isSome_iff_exists.mp h⟩
        · split
          · next h => exact .inl ⟨rfl, Option.isSome_iff_exists.mp h⟩
          · exact .inr (by simp [ScalarKind.IsQuotable])

private theorem stringKind_cases (o : InferOptions) (s : String) :
    (stringKind o s).quoted = true ∧ Spells (stringKind o s).kind s ∨
      (stringKind o s).quoted = false ∧ ¬ (stringKind o s).kind.IsQuotable ∧
        (stringKind o s).kind ≠ .any := by
  rw [stringKind]
  split
  · exact refine_cases s
  · exact .inr (by simp [ScalarKind.IsQuotable])

/-! ## Fields -/

/-- What holds of a field of a model.  Its items, if it is an array, are scalars or named objects;
it has an example unless it is an object, which has a name under named nesting; it is quoted
exactly if it is a number or a truth value and its example a string, which then spells one; only
strings are taken for points in time and addresses, and only null for nothing definite. -/
structure FieldWellFormed (o : InferOptions) (f : Field) : Prop where
  element : ∀ element, f.node = .array element →
    (∃ kind, element = .scalar kind) ∨ ∃ name fields, element = .object (some name) fields
  exampleless : f.example? = none ↔ ∃ name? fields, f.node = .object name? fields
  named : o.nesting = .named → ∀ fields, f.node ≠ .object none fields
  quoted : f.quoted = true ↔
    ∃ kind s, f.node = .scalar kind ∧ kind.IsQuotable ∧ f.example? = some (.string s)
  spelled : f.quoted = true →
    ∃ kind s, f.node = .scalar kind ∧ f.example? = some (.string s) ∧ Spells kind s
  refined : ∀ kind, kind = .timestamp ∨ kind = .ipAddress →
    f.node ≠ .array (.scalar kind) ∧ (f.node = .scalar kind → ∃ s, f.example? = some (.string s))
  any : f.node = .scalar .any → f.example? = some .null

private theorem leafKind_cases {o : InferOptions} {v : Json.Value} {r : Refinement.Refined}
    (h : leafKind? o v = some r) :
    (∃ s, v = .string s ∧
        (r.quoted = true ∧ Spells r.kind s ∨
          r.quoted = false ∧ ¬ r.kind.IsQuotable ∧ r.kind ≠ .any)) ∨
      (∀ s, v ≠ .string s) ∧ r.quoted = false ∧
        (v = .null ∧ r.kind = .any ∨ r.kind.IsQuotable) := by
  match v with
  | .null =>
    obtain rfl := Option.some.inj h
    exact .inr ⟨fun s => Json.Value.noConfusion, rfl, .inl ⟨rfl, rfl⟩⟩
  | .bool b =>
    obtain rfl := Option.some.inj h
    exact .inr ⟨fun s => Json.Value.noConfusion, rfl, .inr (.inr (.inr rfl))⟩
  | .number n =>
    obtain rfl := Option.some.inj h
    refine .inr ⟨fun s => Json.Value.noConfusion, rfl, .inr ?_⟩
    rcases classify_cases n with hn | hn
    · exact .inl hn
    · exact .inr (.inl hn)
  | .string s =>
    obtain rfl := Option.some.inj h
    exact .inl ⟨s, rfl, stringKind_cases o s⟩
  | .array _ | .object _ => cases h

private theorem scalarField_wellFormed {o : InferOptions} {v : Json.Value} {r : Refinement.Refined}
    (h : leafKind? o v = some r) (key : String) :
    FieldWellFormed o (scalarField key r.kind v r.quoted) := by
  have hnode : (scalarField key r.kind v r.quoted).node = .scalar r.kind := rfl
  have hexample : (scalarField key r.kind v r.quoted).example? = some v := rfl
  have hmark : (scalarField key r.kind v r.quoted).quoted = r.quoted := rfl
  constructor <;> simp only [hnode, hexample, hmark, Node.scalar.injEq, Option.some.injEq]
  case element => simp
  case exampleless => simp
  case named => simp
  case quoted =>
    rcases leafKind_cases h with
      ⟨s, rfl, ⟨hquoted, hspells⟩ | ⟨hquoted, hkind, -⟩⟩ | ⟨hv, hquoted, -⟩
    · exact ⟨fun _ => ⟨_, s, rfl, hspells.isQuotable, rfl⟩, fun _ => hquoted⟩
    · simp [hquoted, hkind]
    · simp [hquoted, hv]
  case spelled =>
    rcases leafKind_cases h with ⟨s, rfl, ⟨-, hspells⟩ | ⟨hquoted, -⟩⟩ | ⟨-, hquoted, -⟩
    · exact fun _ => ⟨_, s, rfl, rfl, hspells⟩
    · simp [hquoted]
    · simp [hquoted]
  case refined =>
    intro kind hkind
    refine ⟨by simp, ?_⟩
    rintro rfl
    rcases leafKind_cases h with ⟨s, hs, -⟩ | ⟨-, -, ⟨-, hany⟩ | hquotable⟩
    · exact ⟨s, hs⟩
    · rw [hany] at hkind
      simp at hkind
    · rcases hkind with hkind | hkind <;> simp [hkind, ScalarKind.IsQuotable] at hquotable
  case any =>
    intro hany
    rcases leafKind_cases h with
      ⟨s, -, ⟨-, hspells⟩ | ⟨-, -, hne⟩⟩ | ⟨-, -, ⟨hnull, -⟩ | hquotable⟩
    · rw [hany] at hspells
      cases hspells
    · exact absurd hany hne
    · exact hnull
    · simp [hany, ScalarKind.IsQuotable] at hquotable

private theorem elementKind_plain {items : List Json.Value} {kind : ScalarKind}
    (h : elementKind? items = some kind) : kind ≠ .timestamp ∧ kind ≠ .ipAddress := by
  match items with
  | [] | .null :: _ | .bool _ :: _ | .string _ :: _ =>
    obtain rfl := Option.some.inj h
    decide
  | .number n :: _ =>
    obtain rfl := Option.some.inj h
    rcases classify_cases n with hn | hn <;> rw [hn] <;> decide
  | .array _ :: _ | .object _ :: _ => cases h

private theorem scalarsField_wellFormed {items : List Json.Value} {kind : ScalarKind}
    (h : elementKind? items = some kind) (o : InferOptions) (key : String) :
    FieldWellFormed o (arrayField key (.scalar kind) items) := by
  have hplain := elementKind_plain h
  constructor <;> simp [arrayField, hplain]

private theorem objectsField_wellFormed (o : InferOptions) (key name : String) (fields : List Field)
    (items : List Json.Value) :
    FieldWellFormed o (arrayField key (.object (some name) fields) items) := by
  constructor <;> simp [arrayField]

private theorem objectField_wellFormed (o : InferOptions) (key : String) (fields : List Field) :
    FieldWellFormed o (objectField key (.object (nestName? o.nesting key) fields)) := by
  constructor <;> simp +contextual [objectField, nestName?]

/-! ## The fields of an object -/

/-- What holds of the fields that an inference finds for an object: they have exactly its keys, in
the order of keys, and are well formed. -/
structure FieldsOf (o : InferOptions) (ms : List (String × Json.Value)) (fields : List Field) :
    Prop where
  sorted : (fields.map (·.key)).Pairwise KeyBefore
  keys : (fields.map (·.key)).Perm (ms.map Prod.fst)
  wellFormed : ∀ f ∈ fields, FieldWellFormed o f

/-- Whether a list of fields comes from the object that a path leads to in a value, and from no
other one. -/
def ComesFrom (o : InferOptions) (v : Json.Value) (path : List String) (fields : List Field) :
    Prop :=
  ∃ ms, (∀ ns, HasRecord v path ns ↔ ns = ms) ∧ FieldsOf o ms fields

private theorem ComesFrom.of_hasRecord {o : InferOptions} {v : Json.Value} (hv : v.WellFormed)
    {path : List String} {ms : List (String × Json.Value)} {fields : List Field}
    (hms : HasRecord v path ms) (h : FieldsOf o ms fields) : ComesFrom o v path fields := by
  refine ⟨ms, fun ns => ⟨fun hns => hns.unique hv hms, ?_⟩, h⟩
  rintro rfl
  exact hms

/-- Whether a field is well formed, has the key of the member that it was found for, and holds
lists of fields that come from the objects in the value of that member. -/
structure FoundFor (o : InferOptions) (key : String) (v : Json.Value) (f : Field) : Prop where
  key_eq : f.key = key
  wellFormed : FieldWellFormed o f
  inside : ∀ path fields, f.node.HasFields path fields →
    ∃ ms, HasRecord v path ms ∧ FieldsOf o ms fields

private theorem exists_hasRecord_of_hasFields {o : InferOptions} {ms : List (String × Json.Value)}
    {fields : List Field} (hwf : (Json.Value.object ms).WellFormed)
    (h : List.Forall₂ (fun m f => m.2.WellFormed → FoundFor o m.1 m.2 f) (sortByKey ms) fields)
    {name? : Option String} {path : List String} {inner : List Field}
    (hinner : (Node.object name? fields).HasFields path inner) :
    ∃ ns, HasRecord (.object ms) path ns ∧ FieldsOf o ns inner := by
  have hmem : ∀ m ∈ sortByKey ms, m ∈ ms := fun m hm => (sortByKey_perm ms).mem_iff.mp hm
  have hfound : List.Forall₂ (fun m f => m ∈ ms ∧ FoundFor o m.1 m.2 f) (sortByKey ms) fields := by
    rw [List.forall₂_iff_get] at h ⊢
    refine ⟨h.1, fun i hi hi' => ?_⟩
    have hm := hmem _ (List.get_mem (sortByKey ms) ⟨i, hi⟩)
    exact ⟨hm, h.2 i hi hi' (hwf.member hm)⟩
  have hkeys : fields.map (·.key) = (sortByKey ms).map Prod.fst := by
    rw [← List.forall₂_eq_eq_eq, List.forall₂_map_left_iff, List.forall₂_map_right_iff]
    exact hfound.flip.imp fun f m hm => hm.2.key_eq
  have hmember : ∀ f ∈ fields, ∃ m ∈ ms, FoundFor o m.1 m.2 f := by
    intro f hf
    obtain ⟨i, rfl⟩ := List.mem_iff_get.mp hf
    rw [List.forall₂_iff_get] at hfound
    have hi : i.1 < (sortByKey ms).length := by
      rw [hfound.1]
      exact i.2
    exact ⟨_, hfound.2 i.1 hi i.2⟩
  cases hinner with
  | here =>
    refine ⟨ms, ⟨_, .here _, rfl⟩, ?sorted, ?keys, ?wellFormed⟩
    case sorted =>
      rw [hkeys, List.pairwise_map]
      exact sortByKey_strict hwf.1
    case keys =>
      rw [hkeys]
      exact (sortByKey_perm ms).map _
    case wellFormed =>
      intro f hf
      obtain ⟨m, -, hm⟩ := hmember f hf
      exact hm.wellFormed
  | inside hf hinner =>
    obtain ⟨m, hm, hfound⟩ := hmember _ hf
    obtain ⟨ns, ⟨w, hreach, hw⟩, hns⟩ := hfound.inside _ _ hinner
    rw [hfound.key_eq]
    exact ⟨ns, ⟨w, .member hm hreach, hw⟩, hns⟩

private theorem treeField_foundFor {o : InferOptions} {key : String} {v : Json.Value} {f : Field}
    (h : treeField o key v = .ok f) : v.WellFormed → FoundFor o key v f := by
  refine treeField_induct (motive := fun key v f => v.WellFormed → FoundFor o key v f)
    ⟨?scalar, ?scalars, ?objects, ?nested, ?object⟩ key v f h
  case scalar =>
    intro key v r hr _
    refine ⟨rfl, scalarField_wellFormed hr key, ?_⟩
    intro path fields hfields
    cases hfields
  case scalars =>
    intro key items kind hkind _
    refine ⟨rfl, scalarsField_wellFormed hkind o key, ?_⟩
    intro path fields hfields
    cases hfields with
    | element hfields => cases hfields
  case objects =>
    intro key ms rest fields _ ih hwf
    refine ⟨rfl, objectsField_wellFormed o key (Ident.ofKey key) fields _, ?_⟩
    intro path inner hinner
    cases hinner with
    | element hinner =>
      obtain ⟨ns, hns, hinner⟩ := exists_hasRecord_of_hasFields hwf.1 ih hinner
      exact ⟨ns, hns.objects rest, hinner⟩
  case nested =>
    intro key first inner rest f ih hwf
    have hfound := ih hwf.1.1
    refine ⟨hfound.key_eq, hfound.wellFormed, ?_⟩
    intro path fields hfields
    obtain ⟨ms, ⟨w, hreach, hw⟩, hms⟩ := hfound.inside path fields hfields
    exact ⟨ms, ⟨w, .unwrapped inner rest hreach, hw⟩, hms⟩
  case object =>
    intro key ms fields _ ih hwf
    refine ⟨rfl, objectField_wellFormed o key fields, ?_⟩
    intro path inner hinner
    exact exists_hasRecord_of_hasFields hwf ih hinner

private theorem treeRoot_hasRecord {o : InferOptions} {v : Json.Value} {root : Node}
    (hv : v.WellFormed) (h : treeRoot o v = .ok root) {path : List String} {inner : List Field}
    (hinner : root.HasFields path inner) :
    ∃ ns, HasRecord v path ns ∧ FieldsOf o ns inner := by
  obtain ⟨ms, fields, hfields, hshape⟩ := treeRoot_ok h
  have hfound := (treeFields_ok hfields).imp fun m f hf => treeField_foundFor hf
  rcases hshape with ⟨rfl, rfl⟩ | ⟨⟨rest, rfl⟩, rfl⟩
  · exact exists_hasRecord_of_hasFields hv hfound hinner
  · cases hinner with
    | element hinner =>
      obtain ⟨ns, hns, hinner⟩ := exists_hasRecord_of_hasFields hv.1 hfound hinner
      exact ⟨ns, hns.objects rest, hinner⟩

/-- Every list of fields in the tree of a model comes from the one object at its path: its keys
are exactly those of the object, `id` first and the others by their bytes, and its fields are well
formed.  So do the lists of fields in the entries of the registry, each entry from some path on. -/
theorem infer_wellFormed {o : InferOptions} {v : Json.Value} {model : Model} (hv : v.WellFormed)
    (h : infer o v = .ok model) :
    (∀ path fields, model.root.HasFields path fields → ComesFrom o v path fields) ∧
      ∀ entry ∈ model.named, ∃ start, ∀ path fields,
        (Node.object (some entry.typeName) entry.fields).HasFields path fields →
          ComesFrom o v (start ++ path) fields := by
  rw [infer_eq] at h
  obtain ⟨root, hroot, rfl⟩ := map_eq_ok_iff.mp h
  have htree : ∀ path fields, root.HasFields path fields → ComesFrom o v path fields := by
    intro path fields hfields
    obtain ⟨ms, hms, hof⟩ := treeRoot_hasRecord hv hroot hfields
    exact .of_hasRecord hv hms hof
  refine ⟨htree, ?_⟩
  intro entry hentry
  obtain ⟨start, hstart⟩ := Node.exists_hasFields hentry
  exact ⟨start, fun path fields hfields => htree _ _ (hstart.trans hfields)⟩

/-- A document with a number in a string, an address and a list of objects. -/
def gatewayDocument : Json.Value :=
  .object
    [("port", .string "8080"),
     ("servers", .array [.object [("ip", .string "10.0.0.1"), ("id", .null)]])]

/-- The fields of the listed object and of its entry come from it. -/
theorem infer_wellFormed_gatewayDocument :
    gatewayDocument.WellFormed ∧
      ∃ root entry, infer {} gatewayDocument = .ok { root, named := [entry] } ∧
        root.HasFields ["servers"] entry.fields ∧
        ComesFrom {} gatewayDocument ["servers"] entry.fields ∧
        ∃ start, ComesFrom {} gatewayDocument start entry.fields := by
  have hwf : gatewayDocument.WellFormed := by
    simp [gatewayDocument, Json.Value.WellFormed, Json.itemsWellFormed, Json.membersWellFormed]
  refine ⟨hwf, _, _, rfl, ?_, ?_, ?_⟩
  · exact .inside (List.mem_cons_of_mem _ List.mem_cons_self) (.element (.here _ _))
  · refine (infer_wellFormed (o := {}) hwf rfl).1 _ _ ?_
    exact .inside (List.mem_cons_of_mem _ List.mem_cons_self) (.element (.here _ _))
  · obtain ⟨start, h⟩ := (infer_wellFormed (o := {}) hwf rfl).2 _ List.mem_cons_self
    exact ⟨_, h [] _ (.here _ _)⟩

end Exemplar
