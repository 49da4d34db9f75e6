import Exemplar.Proofs.Class.Execution
import Exemplar.Proofs.Class.Rejection

/-!
# Generators replay their items

How the statements of a generator come from the items of an array.  The main statement: there is
one block for each item in order, with one statement for each member that the element type has and
the item holds; the blocks run to their end on the array that the generator begins with and fill
it; and there are no statements at all exactly when an item is no object or a member of it has no
literal.
-/

namespace Exemplar.Class

/-! ## One item -/

/-- Whether the value of a member leaves no trace: a null whose type cannot be null. -/
def PassedOver (f : Field) (v : Json.Value) : Prop :=
  v.isNull ∧ ∃ kind, f.node = .scalar kind ∧ ¬ kind.isNullable

/-- Whether a statement is the one for a field whose member has a value: the call of its setter
with the literal for the value if the field is a scalar, and the placeholder if it is not. -/
def IsStatementFor (d : Dialect) (f : Field) (v : Json.Value) : Statement → Prop
  | .set name text =>
    name = Ident.ofKey f.key ∧
      ∃ kind, f.node = .scalar kind ∧ literal? d f.quoted kind v = some text
  | .placeholder => ∀ kind, f.node ≠ .scalar kind

/-- Whether statements, each with its field, replay the members of an item: they stand in the order
of the fields, one for a field at most, and those fields have one whose members are there and not
passed over. -/
structure ReplaysMembers (d : Dialect) (fields : List Field) (members : List (String × Json.Value))
    (calls : List (Field × Statement)) : Prop where
  order : (calls.map Prod.fst).Sublist fields
  sound : ∀ c ∈ calls, ∃ v, members.lookup c.1.key = some v ∧ ¬ PassedOver c.1 v ∧
    IsStatementFor d c.1 v c.2
  complete : ∀ f ∈ fields, ∀ v, members.lookup f.key = some v → ¬ PassedOver f v →
    ∃ s, (f, s) ∈ calls

/-- Whether a block replays an item: it makes an object of the element type, and its statements
replay the members of the item, no key twice. -/
def ReplaysItem (d : Dialect) (typeName : String) (fields : List Field) (item : Json.Value)
    (b : Block) : Prop :=
  ∃ members calls, item = .object members ∧ ReplaysMembers d fields members calls ∧
    (calls.map fun c => c.1.key).Nodup ∧ b.typeName = typeName ∧ b.statements = calls.map Prod.snd

/-- Whether an item has no block: it is no object, or a scalar member of it that is not passed over
has no literal. -/
def HasNoBlock (d : Dialect) (fields : List Field) (item : Json.Value) : Prop :=
  (∀ members, item ≠ .object members) ∨
    ∃ members, item = .object members ∧ ∃ f ∈ fields, ∃ kind v, f.node = .scalar kind ∧
      members.lookup f.key = some v ∧ ¬ PassedOver f v ∧ literal? d f.quoted kind v = none

/-- An item without the members whose keys no field has. -/
def restrictTo (fields : List Field) : Json.Value → Json.Value
  | .object members => .object (members.filter fun m => m.1 ∈ fields.map (·.key))
  | v => v

variable {d : Dialect} {fields : List Field} {members : List (String × Json.Value)}

/-- The value of a scalar member is passed over if it is null and the kind is never null. -/
theorem passedOver_iff {f : Field} {kind : ScalarKind} (hnode : f.node = .scalar kind)
    {v : Json.Value} : PassedOver f v ↔ v.isNull ∧ ¬ kind.isNullable := by
  refine and_congr_right fun _ => ⟨?_, fun hkind => ⟨kind, hnode, hkind⟩⟩
  rintro ⟨kind', hkind, hnullable⟩
  rw [hnode] at hkind
  obtain rfl := Node.scalar.inj hkind
  exact hnullable

/-- A field gives rise to no statement if the item lacks its member or the value is passed over,
and else to one, which is that for the value. -/
theorem memberStatements_cases {f : Field} {statements : List Statement}
    (h : memberStatements d members f = .ok statements) :
    (statements = [] ∧ ∀ v, members.lookup f.key = some v → PassedOver f v) ∨
      ∃ s v, statements = [s] ∧ members.lookup f.key = some v ∧ ¬ PassedOver f v ∧
        IsStatementFor d f v s := by
  unfold memberStatements at h
  cases hv : members.lookup f.key with
  | none =>
    rw [hv] at h
    exact .inl ⟨(Except.ok.inj h).symm, fun v hsome => by cases hsome⟩
  | some v =>
    rw [hv] at h
    cases hnode : f.node with
    | scalar kind =>
      simp only [hnode] at h
      split at h
      · next hnull =>
        refine .inl ⟨(Except.ok.inj h).symm, fun v' hv' => ?_⟩
        obtain rfl := Option.some.inj hv'
        exact (passedOver_iff hnode).mpr hnull
      · next hnull =>
        obtain ⟨text, htext, rfl⟩ := map_eq_ok_iff.mp h
        have hpassed : ¬ PassedOver f v := fun hv => hnull ((passedOver_iff hnode).mp hv)
        refine .inr ⟨_, v, rfl, rfl, hpassed, rfl, kind, hnode, ?_⟩
        exact literal_eq_ok_iff.mp htext
    | array element | object name? fields =>
      rw [hnode] at h
      obtain rfl := Except.ok.inj h
      have hscalar : ∀ kind, f.node ≠ .scalar kind := fun kind hkind => by
        rw [hnode] at hkind
        cases hkind
      refine .inr ⟨_, v, rfl, rfl, ?_, hscalar⟩
      rintro ⟨-, kind, hkind, -⟩
      exact hscalar kind hkind

private theorem exists_calls {statements : List (List Statement)}
    (h : fields.mapM (memberStatements d members) = .ok statements) :
    ∃ calls, ReplaysMembers d fields members calls ∧
      statements.flatten = calls.map Prod.snd := by
  rw [mapM_eq_ok_iff] at h
  induction h with
  | nil =>
    exact ⟨[], ⟨.slnil, fun c hc => (by cases hc), fun f hf => (by cases hf)⟩, rfl⟩
  | @cons f here fields statements hf _ ih =>
    obtain ⟨calls, hcalls, hflatten⟩ := ih
    rcases memberStatements_cases hf with ⟨rfl, hnone⟩ | ⟨s, v, rfl, hv, hpassed, hs⟩
    · refine ⟨calls, ⟨hcalls.order.cons f, hcalls.sound, ?_⟩, hflatten⟩
      intro g hg v hv hpassed
      rcases List.mem_cons.mp hg with rfl | hg
      · exact absurd (hnone v hv) hpassed
      · exact hcalls.complete g hg v hv hpassed
    · refine ⟨(f, s) :: calls, ⟨hcalls.order.cons_cons f, ?_, ?_⟩, ?_⟩
      · intro c hc
        rcases List.mem_cons.mp hc with rfl | hc
        · exact ⟨v, hv, hpassed, hs⟩
        · exact hcalls.sound c hc
      · intro g hg v hv hpassed
        rcases List.mem_cons.mp hg with rfl | hg
        · exact ⟨s, List.mem_cons_self⟩
        · obtain ⟨s', hs'⟩ := hcalls.complete g hg v hv hpassed
          exact ⟨s', List.mem_cons_of_mem _ hs'⟩
      · rw [List.flatten_cons, hflatten]
        rfl

private theorem replaysItem_of_itemBlock (hkeys : (fields.map (·.key)).Nodup)
    {typeName key : String}
    {item : Json.Value} {b : Block} (h : itemBlock d typeName key fields item = .ok b) :
    ReplaysItem d typeName fields item b := by
  obtain ⟨hname, members, statements, rfl, hstatements, hflatten⟩ := itemBlock_ok h
  obtain ⟨calls, hcalls, hsnd⟩ := exists_calls hstatements
  have hsublist := hcalls.order.map (·.key)
  rw [List.map_map] at hsublist
  exact ⟨members, calls, rfl, hcalls, hkeys.sublist hsublist, hname, hflatten.trans hsnd⟩

/-! ## All items -/

private theorem exists_blocks (hkeys : (fields.map (·.key)).Nodup) {typeName key : String}
    {items : List Json.Value} {statements : List String}
    (h : arrayStatements d typeName key items fields = .ok statements) :
    ∃ blocks, List.Forall₂ (ReplaysItem d typeName fields) items blocks ∧
      statements = (commandsFrom 0 blocks).map (Command.text d) := by
  rw [arrayStatements, statementsFrom_eq] at h
  obtain ⟨blocks, hblocks, rfl⟩ := map_eq_ok_iff.mp h
  refine ⟨blocks, ?_, (map_text_commandsFrom d 0 blocks).symm⟩
  exact (mapM_eq_ok_iff.mp hblocks).imp fun _ _ hb => replaysItem_of_itemBlock hkeys hb

/-- An item has no block exactly when it is rejected. -/
theorem hasNoBlock_iff {item : Json.Value} :
    HasNoBlock d fields item ↔ ItemRejected fields item := by
  refine or_congr_right (exists_congr fun members => and_congr_right fun _ =>
    exists_congr fun f => and_congr_right fun _ => exists_congr fun kind =>
      exists_congr fun v => and_congr_right fun hnode => and_congr_right fun _ => ?_)
  rw [passedOver_iff hnode, ← isSome_literal?_iff d, Option.not_isSome_iff_eq_none]

/-- No statements are made for an array exactly when one of its items has no block. -/
theorem arrayStatements_error_iff {typeName key : String} {items : List Json.Value} :
    (∃ e, arrayStatements d typeName key items fields = .error e) ↔
      ∃ item ∈ items, HasNoBlock d fields item := by
  have hfirst : ∀ e, arrayStatements d typeName key items fields = .error e ↔
      (items.flatMap (itemRejections key fields)).head? = some e := by
    intro e
    rw [← failure?_eq_some_iff, failure?_arrayStatements]
  rw [exists_congr hfirst, ← Option.isSome_iff_exists, List.isSome_head?, Ne,
    List.flatMap_eq_nil_iff]
  push Not
  exact exists_congr fun item => and_congr_right fun _ =>
    itemRejections_ne_nil_iff.trans hasNoBlock_iff.symm

private theorem lookup_filter {f : Field} (hf : f ∈ fields) (members : List (String × Json.Value)) :
    (members.filter fun m => m.1 ∈ fields.map (·.key)).lookup f.key = members.lookup f.key := by
  induction members with
  | nil => rfl
  | cons m members ih =>
    rw [List.filter_cons, List.lookup_cons]
    split
    · rw [List.lookup_cons, ih]
    · next hkey =>
      have hne : (f.key == m.1) = false := by
        refine beq_eq_false_iff_ne.mpr fun heq => hkey ?_
        rw [← heq]
        exact decide_eq_true (List.mem_map_of_mem hf)
      rw [hne, ih]

private theorem itemBlock_restrictTo (typeName key : String) (item : Json.Value) :
    itemBlock d typeName key fields (restrictTo fields item) =
      itemBlock d typeName key fields item := by
  cases item with
  | null | bool _ | number _ | string _ | array _ => rfl
  | object members =>
    rw [restrictTo, itemBlock, itemBlock]
    refine congrArg _ (mapM_congr fun f hf => ?_)
    rw [memberStatements, lookup_filter hf]
    rfl

private theorem arrayStatements_restrictTo (typeName key : String) (items : List Json.Value) :
    arrayStatements d typeName key (items.map (restrictTo fields)) fields =
      arrayStatements d typeName key items fields := by
  rw [arrayStatements, arrayStatements, statementsFrom_eq, statementsFrom_eq, List.mapM_map]
  exact congrArg _ (mapM_congr fun item _ => itemBlock_restrictTo typeName key item)

/-! ## The generator -/

/-- How a generator goes on behind its name or the type that it returns. -/
def Dialect.openGenerator : Dialect → String
  | java _ => "Array() \x7b\n        "
  | typescript => " \x7b\n        const v: "

/-- What stands between the type of the generated array and the value that it begins with. -/
def Dialect.beforeInit : Dialect → String
  | java _ => " v = "
  | typescript => " = "

/-- The body of the generator for an array of a length. -/
def generatorBody (d : Dialect) (typeName : String) (length : Nat) (statements : List String) :
    String :=
  d.openGenerator ++ d.arrayType typeName ++ d.beforeInit ++ d.arrayInit typeName length ++
    ";\n" ++ String.join (statements.map fun s => "        " ++ s ++ "\n") ++
      "        return v;\n    \x7d\n"

/-- The parts of a template for the body of a generator. -/
def Dialect.generatorParts (d : Dialect) : List Piece :=
  [.text d.openGenerator, .slot "type", .text d.beforeInit, .slot "init", .text ";\n",
   .each "statements" "        " "\n", .text "        return v;\n    \x7d\n"]

private theorem renderAll?_generatorParts {payload : Payload} {typeName : String} {length : Nat}
    {statements : List String}
    (htype : payload.lookup "type" = some (.text (d.arrayType typeName)))
    (hinit : payload.lookup "init" = some (.text (d.arrayInit typeName length)))
    (hstatements : payload.lookup "statements" = some (.list statements)) :
    Piece.renderAll? payload d.generatorParts =
      some (generatorBody d typeName length statements) := by
  simp only [Dialect.generatorParts, Piece.renderAll?, Piece.render?, htype, hinit, hstatements,
    Option.map_some, Argument.render, bind, Option.bind_some, generatorBody, String.append_assoc,
    String.append_empty]

private theorem exists_generatorBody {key typeName out : String} {length : Nat}
    {statements : List String}
    (h : arrayAccessors d key (d.arrayType typeName) (d.arrayInit typeName length) statements =
      .ok out) :
    ∃ front, out = front ++ generatorBody d typeName length statements := by
  have hparts : d.templates.arrayAccessors.pieces =
      d.templates.arrayAccessors.pieces.take 28 ++ d.generatorParts := by
    cases d <;> rfl
  obtain ⟨front, back, rfl, hback⟩ := Template.exists_of_render_append h hparts
  rw [renderAll?_generatorParts rfl rfl rfl] at hback
  exact ⟨front, congrArg _ (Option.some.inj hback).symm⟩

private theorem exists_generatorBody_of_member {f : Field} {typeName out : String}
    (hnode : f.node = .array (.object (some typeName) fields)) (h : member d f = .ok out) :
    ∃ statements front, arrayStatements d typeName f.key (rawItems f) fields = .ok statements ∧
      out = front ++ generatorBody d typeName (rawItems f).length statements := by
  unfold member at h
  simp only [hnode] at h
  obtain ⟨statements, hstatements, h⟩ := bind_eq_ok_iff.mp h
  obtain ⟨front, hout⟩ := exists_generatorBody h
  exact ⟨statements, front, hstatements, hout⟩

/-- The statements for the items of an array under a key, where no two fields of its elements have
the same key.  If they are made, they are those of one block for each item, which replays the item,
and run to their end on the array that the generator begins with, where they leave in each place
the object of its block.  They are not made exactly when an item has no block, and members whose
keys no field has make no difference to them.  The generator of a field has them, with an array
that begins with the length of the items. -/
theorem arrayStatements_replay (d : Dialect) (typeName key : String) (items : List Json.Value)
    {fields : List Field} (hkeys : (fields.map (·.key)).Nodup) :
    (∀ statements, arrayStatements d typeName key items fields = .ok statements →
      ∃ blocks, List.Forall₂ (ReplaysItem d typeName fields) items blocks ∧
        statements = (commandsFrom 0 blocks).map (Command.text d) ∧
          ∃ m, runAll d (commandsFrom 0 blocks)
              { objects := [], array := d.emptyArray items.length } = some m ∧
            m.contents = blocks.map fun b => some b.made) ∧
      ((∃ e, arrayStatements d typeName key items fields = .error e) ↔
        ∃ item ∈ items, HasNoBlock d fields item) ∧
      arrayStatements d typeName key (items.map (restrictTo fields)) fields =
        arrayStatements d typeName key items fields ∧
      ∀ f, f.key = key → f.node = .array (.object (some typeName) fields) → rawItems f = items →
        ∀ out, member d f = .ok out →
          ∃ statements front, arrayStatements d typeName key items fields = .ok statements ∧
            out = front ++ generatorBody d typeName items.length statements := by
  refine ⟨fun statements h => ?_, arrayStatements_error_iff, arrayStatements_restrictTo _ _ _, ?_⟩
  · obtain ⟨blocks, hblocks, htext⟩ := exists_blocks hkeys h
    obtain ⟨m, hm, hcontents⟩ := exists_runAll d blocks
    rw [← hblocks.length_eq] at hm
    exact ⟨blocks, hblocks, htext, m, hm, hcontents⟩
  · rintro f rfl hnode rfl out hout
    exact exists_generatorBody_of_member hnode hout

/-- The fields of a host: its port, its name and its tags. -/
def hostFields : List Field :=
  [{ key := "port", node := .scalar .int64 }, { key := "name", node := .scalar .string },
   { key := "tags", node := .array (.scalar .string) }]

/-- A host with its tags and a weight, for which there is no field, and one whose port and name are
null. -/
def hosts : List Json.Value :=
  [.object [("tags", .array []), ("port", .number (.integer 8443 (by decide))), ("weight", .null)],
   .object [("port", .null), ("name", .null)]]

/-- The members of hosts are set in the order of the fields, and the port that is null is not. -/
theorem arrayStatements_replay_hosts :
    (hostFields.map (·.key)).Nodup ∧
      arrayStatements (.java "app.settings") "Host" "hosts" hosts hostFields = .ok
        ["Host obj0 = new Host();", "obj0.setPort(8443L);", nestedPlaceholder, "v[0] = obj0;",
         "Host obj1 = new Host();", "obj1.setName(null);", "v[1] = obj1;"] ∧
      ∃ blocks, List.Forall₂ (ReplaysItem (.java "app.settings") "Host" hostFields) hosts blocks :=
  ⟨by decide, rfl,
   ((arrayStatements_replay (.java "app.settings") "Host" "hosts" hosts (by decide)).1 _ rfl).imp
     fun _ h => h.1⟩

end Exemplar.Class
