import Exemplar.Proofs.Json.WellFormed
import Exemplar.Proofs.Json.Writing
import Exemplar.Proofs.Shape.Examples
import Exemplar.Proofs.Shape.Fields
import Exemplar.Shape.Schema

/-!
# What a schema tells

A schema shows an example that is missing as null, so two models may have one schema.  The main
statement: if just the fields that hold objects have no example, as in every model of a document,
the schema determines the model.
-/

namespace Exemplar

/-! ## Schemas compared part by part -/

/-- Whether a function changes no null, truth value or string, the items of an array one by one, and
what stands under each key of an object, perhaps with the members in another order. -/
structure Json.KeepsMembers (g : Json.Value → Json.Value) : Prop where
  null : g .null = .null
  bool : ∀ b, g (.bool b) = .bool b
  string : ∀ s, g (.string s) = .string s
  array : ∀ vs, g (.array vs) = .array (vs.map g)
  object : ∀ ms, ∃ ns, g (.object ms) = .object ns ∧
    ∀ key, ns.lookup key = (ms.lookup key).map g

/-- The identity changes nothing. -/
theorem Json.keepsMembers_id : Json.KeepsMembers id where
  null := rfl
  bool _ := rfl
  string _ := rfl
  array vs := congrArg Json.Value.array (List.map_id vs).symm
  object ms := ⟨ms, rfl, fun _ => Option.map_id_apply.symm⟩

/-- Sorting changes the order of members alone. -/
theorem Json.keepsMembers_sorted : Json.KeepsMembers Json.Value.sorted where
  null := rfl
  bool _ := rfl
  string _ := rfl
  array vs := congrArg Json.Value.array (Json.itemsSorted_eq_map vs)
  object ms := ⟨_, rfl, fun key => Json.lookup_sorted key ms⟩

variable {g : Json.Value → Json.Value}

namespace Json.KeepsMembers

private theorem lookup_eq (hg : KeepsMembers g) {ms ns : List (String × Value)}
    (h : g (.object ms) = g (.object ns)) (key : String) :
    (ms.lookup key).map g = (ns.lookup key).map g := by
  obtain ⟨ms', hms, hms'⟩ := hg.object ms
  obtain ⟨ns', hns, hns'⟩ := hg.object ns
  rw [hms, hns, Value.object.injEq] at h
  rw [← hms', ← hns', h]

private theorem map_eq (hg : KeepsMembers g) {vs ws : List Value}
    (h : g (.array vs) = g (.array ws)) : vs.map g = ws.map g := by
  rw [hg.array, hg.array, Value.array.injEq] at h
  exact h

private theorem string_inj (hg : KeepsMembers g) {s t : String}
    (h : g (.string s) = g (.string t)) :
    s = t := by
  rw [hg.string, hg.string, Value.string.injEq] at h
  exact h

end Json.KeepsMembers

/-! ## Nodes -/

/-- What the schema of a node is tagged with. -/
def Node.tag : Node → String
  | .scalar _ => "scalar"
  | .array _ => "array"
  | .object _ _ => "object"

/-- Whether a node is that of an object. -/
def Node.isObject : Node → Bool
  | .object _ _ => true
  | _ => false

/-- Kinds have different names. -/
theorem ScalarKind.describe_injective {k l : ScalarKind} (h : k.describe = l.describe) : k = l := by
  cases k <;> cases l <;> first | rfl | exact absurd h (by decide)

/-- Whether a field has an example just if it does not hold an object. -/
def ShowsExample (f : Field) : Prop :=
  f.example?.isNone = f.node.isObject

private theorem Node.tag_eq_of_schema (hg : Json.KeepsMembers g) {m n : Node}
    (h : g m.schema = g n.schema) : m.tag = n.tag := by
  have htag (n : Node) : ∃ ms, n.schema = .object ms ∧ ms.lookup "kind" = some (.string n.tag) := by
    cases n <;> exact ⟨_, rfl, rfl⟩
  obtain ⟨ms, hms, hm⟩ := htag m
  obtain ⟨ns, hns, hn⟩ := htag n
  rw [hms, hns] at h
  have hkind := hg.lookup_eq h "kind"
  rw [hm, hn] at hkind
  exact hg.string_inj (Option.some.inj hkind)

private theorem optionalString_injective (hg : Json.KeepsMembers g) {s t : Option String}
    (h : g (optionalString s) = g (optionalString t)) : s = t := by
  cases s <;> cases t <;> simp_all [optionalString, hg.null, hg.string]

private theorem Node.isObject_mapExamples (g : Json.Value → Json.Value) (node : Node) :
    (node.mapExamples g).isObject = node.isObject := by
  cases node <;> rfl

private theorem example_eq_of_schema {m n : Node} {x y : Option Json.Value}
    (hx : x.isNone = m.isObject) (hy : y.isNone = n.isObject)
    (hnode : m.mapExamples g = n.mapExamples g)
    (h : g (x.getD .null) = g (y.getD .null)) : x.map g = y.map g := by
  have hobject : m.isObject = n.isObject := by
    rw [← m.isObject_mapExamples g, hnode, n.isObject_mapExamples]
  cases x with
  | none =>
    cases y with
    | none => rfl
    | some y =>
      rw [← hobject, ← hx] at hy
      cases hy
  | some x =>
    cases y with
    | none =>
      rw [hobject, ← hy] at hx
      cases hx
    | some y => exact congrArg some h

mutual

private theorem Node.mapExamples_eq_of_schema (hg : Json.KeepsMembers g) {m n : Node}
    (hm : m.AllFields ShowsExample) (hn : n.AllFields ShowsExample)
    (h : g m.schema = g n.schema) : m.mapExamples g = n.mapExamples g := by
  have htag := Node.tag_eq_of_schema hg h
  match m, n with
  | .scalar k, .scalar l =>
    have hkind := hg.string_inj (Option.some.inj (hg.lookup_eq h "scalar"))
    rw [ScalarKind.describe_injective hkind]
  | .array m, .array n =>
    have helement := Option.some.inj (hg.lookup_eq h "element")
    have ih := Node.mapExamples_eq_of_schema hg (m := m) (n := n) hm hn helement
    rw [Node.mapExamples, Node.mapExamples, ih]
  | .object name fs, .object name' fs' =>
    have hname := Option.some.inj (hg.lookup_eq h "name")
    have hfields := hg.map_eq (Option.some.inj (hg.lookup_eq h "fields"))
    have ih := fieldsMapExamples_eq_of_schema hg hm hn hfields
    rw [Node.mapExamples, Node.mapExamples, ih, optionalString_injective hg hname]
  | .scalar _, .array _ | .scalar _, .object _ _ | .array _, .scalar _ | .array _, .object _ _
  | .object _ _, .scalar _ | .object _ _, .array _ => simp [Node.tag] at htag
termination_by structural m

private theorem fieldsMapExamples_eq_of_schema (hg : Json.KeepsMembers g) {fs fs' : List Field}
    (hfs : AllFieldsIn ShowsExample fs) (hfs' : AllFieldsIn ShowsExample fs')
    (h : (fieldsSchema fs).map g = (fieldsSchema fs').map g) :
    fieldsMapExamples g fs = fieldsMapExamples g fs' := by
  match fs, fs' with
  | [], [] => rfl
  | [], _ :: _ => cases h
  | _ :: _, [] => cases h
  | ⟨key, node, example?, quoted⟩ :: fs, ⟨key', node', example?', quoted'⟩ :: fs' =>
    obtain ⟨hfield, hrest⟩ := List.cons.inj h
    have hkey := hg.string_inj (Option.some.inj (hg.lookup_eq hfield "key"))
    have hnode := Option.some.inj (hg.lookup_eq hfield "node")
    have hexample := Option.some.inj (hg.lookup_eq hfield "example")
    have hquoted := Option.some.inj (hg.lookup_eq hfield "quoted")
    rw [hg.bool, hg.bool, Json.Value.bool.injEq] at hquoted
    have ih := Node.mapExamples_eq_of_schema hg hfs.2.1 hfs'.2.1 hnode
    have ihs := fieldsMapExamples_eq_of_schema hg hfs.2.2 hfs'.2.2 hrest
    rw [fieldsMapExamples, fieldsMapExamples, ih, ihs, hkey, hquoted,
      example_eq_of_schema hfs.1 hfs'.1 ih hexample]
termination_by structural fs

end

/-! ## Models -/

private theorem NamedObject.mapExamples_eq_of_schema (hg : Json.KeepsMembers g) {o o' : NamedObject}
    (ho : AllFieldsIn ShowsExample o.fields) (ho' : AllFieldsIn ShowsExample o'.fields)
    (h : g o.schema = g o'.schema) : o.mapExamples g = o'.mapExamples g := by
  have hname := hg.string_inj (Option.some.inj (hg.lookup_eq h "type_name"))
  have hfields := hg.map_eq (Option.some.inj (hg.lookup_eq h "fields"))
  rw [mapExamples, mapExamples, hname, fieldsMapExamples_eq_of_schema hg ho ho' hfields]

private theorem map_mapExamples_eq_of_schema (hg : Json.KeepsMembers g) {os os' : List NamedObject}
    (hos : ∀ o ∈ os, AllFieldsIn ShowsExample o.fields)
    (hos' : ∀ o ∈ os', AllFieldsIn ShowsExample o.fields)
    (h : (os.map NamedObject.schema).map g = (os'.map NamedObject.schema).map g) :
    os.map (NamedObject.mapExamples g) = os'.map (NamedObject.mapExamples g) := by
  induction os generalizing os' with
  | nil =>
    cases os' with
    | nil => rfl
    | cons o' os' => cases h
  | cons o os ih =>
    cases os' with
    | nil => cases h
    | cons o' os' =>
      obtain ⟨hfirst, hrest⟩ := List.cons.inj h
      obtain ⟨ho, hos⟩ := List.forall_mem_cons.mp hos
      obtain ⟨ho', hos'⟩ := List.forall_mem_cons.mp hos'
      rw [List.map_cons, List.map_cons, ih hos hos' hrest,
        NamedObject.mapExamples_eq_of_schema hg ho ho' hfirst]

/-- A schema determines the name of the root and the model, but for what the function changes in
examples. -/
theorem SchemaView.eq_of_toJson (hg : Json.KeepsMembers g) {a b : SchemaView}
    (ha : a.model.AllFields ShowsExample) (hb : b.model.AllFields ShowsExample)
    (h : g a.toJson = g b.toJson) :
    a.rootName = b.rootName ∧ a.model.mapExamples g = b.model.mapExamples g := by
  have hname := hg.string_inj (Option.some.inj (hg.lookup_eq h "root_name"))
  have hroot := Option.some.inj (hg.lookup_eq h "root")
  have hnamed := hg.map_eq (Option.some.inj (hg.lookup_eq h "registry"))
  refine ⟨hname, ?_⟩
  rw [Model.mapExamples, Model.mapExamples, Node.mapExamples_eq_of_schema hg ha.root hb.root hroot,
    map_mapExamples_eq_of_schema hg ha.named hb.named hnamed]

mutual

private theorem Node.mapExamples_id (node : Node) : node.mapExamples id = node := by
  match node with
  | .scalar _ => rfl
  | .array element => rw [Node.mapExamples, element.mapExamples_id]
  | .object _ fields => rw [Node.mapExamples, fieldsMapExamples_id fields]
termination_by structural node

private theorem fieldsMapExamples_id (fs : List Field) : fieldsMapExamples id fs = fs := by
  match fs with
  | [] => rfl
  | ⟨key, node, example?, quoted⟩ :: fs =>
    rw [fieldsMapExamples, node.mapExamples_id, fieldsMapExamples_id fs, Option.map_id_apply]
termination_by structural fs

end

/-- A model whose examples stay as they are stays as it is. -/
theorem Model.mapExamples_id (model : Model) : model.mapExamples id = model := by
  have hnamed : NamedObject.mapExamples id = id :=
    funext fun o => by rw [NamedObject.mapExamples, fieldsMapExamples_id, id]
  rw [Model.mapExamples, Node.mapExamples_id, hnamed, List.map_id]

/-! ## The values in a schema -/

/-- Whether a property holds of null, of truth values and strings, and of the arrays and objects of
which it holds of all parts, the keys of an object being distinct. -/
structure Json.HoldsOfWhole (Q : Json.Value → Prop) : Prop where
  null : Q .null
  bool : ∀ b, Q (.bool b)
  string : ∀ s, Q (.string s)
  array : ∀ vs, (∀ v ∈ vs, Q v) → Q (.array vs)
  object : ∀ ms, (ms.map Prod.fst).Nodup → (∀ m ∈ ms, Q m.2) → Q (.object ms)

/-- Being well formed is such a property. -/
theorem Json.holdsOfWhole_wellFormed : Json.HoldsOfWhole Json.Value.WellFormed where
  null := trivial
  bool _ := trivial
  string _ := trivial
  array _ h := Json.itemsWellFormed_iff.mpr h
  object _ hkeys h := ⟨hkeys, Json.membersWellFormed_iff.mpr h⟩

/-- Having no doubles is such a property. -/
theorem Json.holdsOfWhole_withoutDoubles : Json.HoldsOfWhole Json.Value.WithoutDoubles where
  null := trivial
  bool _ := trivial
  string _ := trivial
  array _ h := Json.itemsWithoutDoubles_iff.mpr h
  object _ _ h := Json.membersWithoutDoubles_iff.mpr h

/-- Whether a property holds of the example of a field, if it has one. -/
def ExampleIs (Q : Json.Value → Prop) (f : Field) : Prop :=
  ∀ v ∈ f.example?, Q v

variable {Q : Json.Value → Prop}

mutual

private theorem Json.HoldsOfWhole.schema (hQ : Json.HoldsOfWhole Q) {node : Node}
    (h : node.AllFields (ExampleIs Q)) : Q node.schema := by
  match node with
  | .scalar kind =>
    refine hQ.object _ (show ["kind", "scalar"].Nodup by decide) ?_
    rw [List.forall_mem_cons, List.forall_mem_singleton]
    exact ⟨hQ.string _, hQ.string _⟩
  | .array element =>
    have helement : element.AllFields (ExampleIs Q) := h
    have ih := Json.HoldsOfWhole.schema hQ helement
    refine hQ.object _ (show ["kind", "element"].Nodup by decide) ?_
    rw [List.forall_mem_cons, List.forall_mem_singleton]
    exact ⟨hQ.string _, ih⟩
  | .object name? fields =>
    have hfields : AllFieldsIn (ExampleIs Q) fields := h
    have ih := Json.HoldsOfWhole.fieldsSchema hQ hfields
    refine hQ.object _ (show ["kind", "name", "fields"].Nodup by decide) ?_
    rw [List.forall_mem_cons, List.forall_mem_cons, List.forall_mem_singleton]
    refine ⟨hQ.string _, ?_, hQ.array _ ih⟩
    cases name? with
    | none => exact hQ.null
    | some name => exact hQ.string name
termination_by structural node

private theorem Json.HoldsOfWhole.fieldsSchema (hQ : Json.HoldsOfWhole Q) {fs : List Field}
    (h : AllFieldsIn (ExampleIs Q) fs) : ∀ v ∈ fieldsSchema fs, Q v := by
  match fs with
  | [] => exact fun _ hv => (List.not_mem_nil hv).elim
  | ⟨key, node, example?, quoted⟩ :: fs =>
    have ih := Json.HoldsOfWhole.schema hQ h.2.1
    have ihs := Json.HoldsOfWhole.fieldsSchema hQ h.2.2
    have hexample : Q (example?.getD .null) := by
      cases example? with
      | none => exact hQ.null
      | some v => exact h.1 v rfl
    refine List.forall_mem_cons.mpr ⟨?_, ihs⟩
    refine hQ.object _ (show ["key", "node", "example", "quoted"].Nodup by decide) ?_
    rw [List.forall_mem_cons, List.forall_mem_cons, List.forall_mem_cons, List.forall_mem_singleton]
    exact ⟨hQ.string key, ih, hexample, hQ.bool quoted⟩
termination_by structural fs

end

/-- A property that whole values have if their parts do holds of a schema if it holds of all
examples. -/
theorem Json.HoldsOfWhole.toJson (hQ : Json.HoldsOfWhole Q) {view : SchemaView}
    (h : view.model.AllFields (ExampleIs Q)) : Q view.toJson := by
  have hnamed : ∀ v ∈ view.model.named.map NamedObject.schema, Q v := by
    rw [List.forall_mem_map]
    intro o ho
    refine hQ.object _ (show ["type_name", "fields"].Nodup by decide) ?_
    rw [List.forall_mem_cons, List.forall_mem_singleton]
    exact ⟨hQ.string o.typeName, hQ.array _ (hQ.fieldsSchema (h.named o ho))⟩
  refine hQ.object _ (show ["root_name", "root", "registry"].Nodup by decide) ?_
  rw [List.forall_mem_cons, List.forall_mem_cons, List.forall_mem_singleton]
  exact ⟨hQ.string view.rootName, hQ.schema h.root, hQ.array _ hnamed⟩

/-! ## Models of documents -/

/-- In the models of documents just the fields that hold objects have no example. -/
theorem holdsOfFound_showsExample (o : InferOptions) :
    HoldsOfFound o (fun _ => True) ShowsExample where
  first _ := trivial
  member _ _ := trivial
  scalar _ _ _ := rfl
  scalars _ _ _ := rfl
  objects _ _ _ _ := rfl
  object _ _ _ := rfl

/-- In the models of well-formed documents all examples are well formed. -/
theorem holdsOfFound_wellFormed (o : InferOptions) :
    HoldsOfFound o Json.Value.WellFormed (ExampleIs Json.Value.WellFormed) where
  first h := h.1
  member h hm := h.member hm
  scalar _ hv _ := fun _ h => Option.some.inj h ▸ hv
  scalars hv _ _ := fun _ h => Option.some.inj h ▸ hv
  objects hv _ _ _ := fun _ h => Option.some.inj h ▸ hv
  object _ _ _ := fun _ h => by cases h

end Exemplar
