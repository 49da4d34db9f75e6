import Exemplar.Generate
import Exemplar.Proofs.Class.Integers
import Exemplar.Proofs.Shape.Registry

/-!
# Integers in generated Java

Which integers the Java for a document spells without a suffix, a fraction or an exponent.  The
main statement: they are those of no definite kind, which follow a null in an array, so all of
them are in the range of `int` exactly when those are.
-/

namespace Exemplar

/-! ## Values of no definite kind -/

/-- Whether a value is taken for null: null itself, or an array of arrays whose first inner item
is. -/
def isTakenForNull : Json.Value → Bool
  | .null => true
  | .array (.array (first :: _) :: _) => isTakenForNull first
  | _ => false
termination_by structural v => v

/-- Whether an integer stands in an array of no definite kind: one that begins with null, or one
that begins with an object in which the member of the same key is taken for null. -/
def FollowsNull (items : List Json.Value) (n : Int) : Prop :=
  (∃ rest range, items = .null :: rest ∧ .number (.integer n range) ∈ rest) ∨
    ∃ first rest key v, items = .object first :: rest ∧ (key, v) ∈ first ∧ isTakenForNull v ∧
      ∃ members range, .object members ∈ items ∧
        members.lookup key = some (.number (.integer n range))

private theorem classify_ne_any (n : Json.Number) : classify n ≠ .any := by
  rcases classify_cases n with h | h <;> rw [h] <;> decide

private theorem stringKind_ne_any (o : InferOptions) (s : String) :
    (stringKind o s).kind ≠ .any := by
  rw [stringKind]
  split
  · rw [Refinement.refine]
    split_ifs <;> decide
  · decide

private theorem eq_null_of_leafKind? {o : InferOptions} {v : Json.Value} {r : Refinement.Refined}
    (h : leafKind? o v = some r) (hany : r.kind = .any) : v = .null := by
  match v with
  | .null => rfl
  | .bool b =>
    obtain rfl := Option.some.inj h
    cases hany
  | .number n =>
    obtain rfl := Option.some.inj h
    exact absurd hany (classify_ne_any n)
  | .string s =>
    obtain rfl := Option.some.inj h
    exact absurd hany (stringKind_ne_any o s)
  | .array _ | .object _ => cases h

private theorem eq_null_of_elementKind? {items : List Json.Value}
    (h : elementKind? items = some .any) :
    items = [] ∨ ∃ rest, items = .null :: rest := by
  match items with
  | [] => exact .inl rfl
  | .null :: rest => exact .inr ⟨rest, rfl⟩
  | .number n :: _ => exact absurd (Option.some.inj h) (classify_ne_any n)
  | .bool _ :: _ | .string _ :: _ | .array _ :: _ | .object _ :: _ => cases h

private theorem isTakenForNull_of_treeField {o : InferOptions} {key : String} {v : Json.Value}
    {f : Field} (h : treeField o key v = .ok f) : f.node = .scalar .any → isTakenForNull v := by
  refine treeField_induct (motive := fun _ v f => f.node = .scalar .any → isTakenForNull v)
    ⟨?scalar, ?scalars, ?objects, ?nested, ?object⟩ key v f h
  case scalar =>
    intro key v r hr hnode
    rw [eq_null_of_leafKind? hr (Node.scalar.inj hnode)]
    rfl
  case scalars => exact fun _ _ _ _ h => by cases h
  case objects => exact fun _ _ _ _ _ _ h => by cases h
  case nested => exact fun _ _ _ _ _ ih => ih
  case object => exact fun _ _ _ _ _ h => by cases h

private theorem Class.mem_untypedInteger_iff {kind : ScalarKind} {v : Json.Value} {n : Int} :
    n ∈ Class.untypedInteger kind v ↔ kind = .any ∧ ∃ range, v = .number (.integer n range) := by
  unfold Class.untypedInteger
  split
  · next m range =>
    rw [List.mem_singleton]
    refine ⟨?_, ?_⟩
    · rintro rfl
      exact ⟨rfl, range, rfl⟩
    · rintro ⟨-, range', h⟩
      exact (Json.Number.integer.inj (Json.Value.number.inj h)).symm
  · next hnone =>
    refine iff_of_false List.not_mem_nil ?_
    rintro ⟨rfl, range, rfl⟩
    exact hnone n range rfl rfl

private theorem Class.mem_itemIntegers {fields : List Field} {item : Json.Value} {n : Int}
    (h : n ∈ Class.itemIntegers fields item) :
    ∃ members, item = .object members ∧ ∃ f ∈ fields, f.node = .scalar .any ∧
      ∃ range, members.lookup f.key = some (.number (.integer n range)) := by
  unfold Class.itemIntegers at h
  split at h
  · next members =>
    obtain ⟨f, hf, h⟩ := List.mem_flatMap.mp h
    unfold Class.memberIntegers at h
    split at h
    · next v kind hv hnode =>
      obtain ⟨rfl, range, rfl⟩ := Class.mem_untypedInteger_iff.mp h
      exact ⟨members, rfl, f, hf, hnode, range, hv⟩
    · cases h
  · cases h

private theorem followsNull_of_treeField {o : InferOptions} {key : String} {v : Json.Value}
    {f : Field} (h : treeField o key v = .ok f) :
    ∀ n ∈ Class.untypedIntegers f, FollowsNull (Class.rawItems f) n := by
  refine treeField_induct
    (motive := fun _ _ f => ∀ n ∈ Class.untypedIntegers f, FollowsNull (Class.rawItems f) n)
    ⟨?scalar, ?scalars, ?objects, ?nested, ?object⟩ key v f h
  case scalar =>
    intro key v r hr n hn
    obtain ⟨hany, range, hv⟩ := Class.mem_untypedInteger_iff.mp hn
    rw [eq_null_of_leafKind? hr hany] at hv
    cases hv
  case scalars =>
    intro key items kind hkind n hn
    obtain ⟨item, hitem, hn⟩ := List.mem_flatMap.mp hn
    obtain ⟨rfl, range, rfl⟩ := Class.mem_untypedInteger_iff.mp hn
    rcases eq_null_of_elementKind? hkind with rfl | ⟨rest, rfl⟩
    · cases hitem
    · rcases List.mem_cons.mp hitem with hitem | hitem
      · cases hitem
      · exact .inl ⟨rest, range, rfl, hitem⟩
  case objects =>
    intro key ms rest fields hfields _ n hn
    obtain ⟨item, hitem, hn⟩ := List.mem_flatMap.mp hn
    obtain ⟨members, rfl, f, hf, hnode, range, hlookup⟩ := Class.mem_itemIntegers hn
    rw [treeFields_eq] at hfields
    obtain ⟨m, hm, hfield⟩ := exists_of_mem_mapM hfields hf
    rw [(treeField_namedByKey hfield).1] at hlookup
    exact .inr ⟨ms, rest, m.1, m.2, rfl, (sortByKey_perm ms).mem_iff.mp hm,
      isTakenForNull_of_treeField hfield hnode, members, range, hitem, hlookup⟩
  case nested => exact fun _ _ _ _ _ ih => ih
  case object =>
    intro key ms fields _ _ n hn
    cases o.nesting <;> cases hn

/-! ## Generated Java -/

/-- Whether an integer can be written in Java without a suffix. -/
def IsInt32 (n : Int) : Prop :=
  -2147483648 ≤ n ∧ n ≤ 2147483647

/-- Java that is generated is the text of a file of classes whose plain integers, those in initial
values and arguments of setters without a suffix, a fraction or an exponent, are the integers of no
definite kind in the document.  Each of these follows a null in an array.  So the plain integers
are in the range of `int` exactly when those are. -/
theorem generateFromValue_plainIntegers {v : Json.Value} {options : GenerateOptions}
    {out : String} (h : generateFromValue v .java options = .ok out) :
    ∃ model file,
      infer { nesting := .named, refineStrings := options.refineStrings } v = .ok model ∧
      Class.fileSyntax (.java Class.Dialect.defaultPackage) model (Ident.root options.rootName?) =
        .ok file ∧
      file.text (.java Class.Dialect.defaultPackage) = .ok out ∧
      file.plainIntegers = model.declared.flatMap Class.untypedIntegers ∧
      (∀ f ∈ model.declared, ∀ n ∈ Class.untypedIntegers f, FollowsNull (Class.rawItems f) n) ∧
      ((∀ n ∈ file.plainIntegers, IsInt32 n) ↔
        ∀ f ∈ model.declared, ∀ n ∈ Class.untypedIntegers f, IsInt32 n) := by
  obtain ⟨model, hinfer, hemit⟩ := bind_eq_ok_iff.mp h
  obtain ⟨file, hfile, htext⟩ := Class.exists_file_of_emit hemit
  have hintegers := Class.plainIntegers_fileSyntax hfile
  refine ⟨model, file, hinfer, hfile, htext, hintegers, ?_, ?_⟩
  · intro f hf
    obtain ⟨key, value, hfield⟩ := infer_declared hinfer f hf
    exact followsNull_of_treeField hfield
  · rw [hintegers]
    constructor
    · exact fun hall f hf n hn => hall n (List.mem_flatMap.mpr ⟨f, hf, hn⟩)
    · intro hall n hn
      obtain ⟨f, hf, hn⟩ := List.mem_flatMap.mp hn
      exact hall f hf n hn

/-- A document with an array that begins with null and goes on with integers, and one that begins
with an integer of more than 32 bits. -/
def mixedDocument : Json.Value :=
  .object
    [("ids", .array [.null, .number (.integer 7 (by decide))]),
     ("sizes", .array [.number (.integer 99999999999 (by decide))])]

/-- The integer behind null is plain and in the range of `int`, the other one has a suffix. -/
theorem generateFromValue_plainIntegers_mixed :
    ∃ out model file, generateFromValue mixedDocument .java {} = .ok out ∧
      Class.fileSyntax (.java Class.Dialect.defaultPackage) model "Config" = .ok file ∧
      file.text (.java Class.Dialect.defaultPackage) = .ok out ∧ file.plainIntegers = [7] ∧
      ∀ n ∈ file.plainIntegers, IsInt32 n := by
  obtain ⟨out, hout⟩ : ∃ out, generateFromValue mixedDocument .java {} = .ok out := ⟨_, rfl⟩
  obtain ⟨model, file, hinfer, hfile, htext, hintegers, -, -⟩ :=
    generateFromValue_plainIntegers hout
  obtain rfl := Except.ok.inj hinfer
  have hseven : file.plainIntegers = [7] := hintegers.trans rfl
  refine ⟨out, _, file, hout, hfile, htext, hseven, ?_⟩
  rw [hseven]
  intro n hn
  obtain rfl := List.mem_singleton.mp hn
  exact ⟨by decide, by decide⟩

/-- A document with an integer of more than 32 bits behind null. -/
def largeBehindNull : Json.Value :=
  .object [("a", .array [.null, .number (.integer 99999999999 (by decide))])]

/-- The Java for an integer of more than 32 bits behind null has it without a suffix. -/
theorem generateFromValue_largeBehindNull :
    ∃ out model file, generateFromValue largeBehindNull .java {} = .ok out ∧
      infer { nesting := .named } largeBehindNull = .ok model ∧
      Class.fileSyntax (.java Class.Dialect.defaultPackage) model "Config" = .ok file ∧
      file.text (.java Class.Dialect.defaultPackage) = .ok out ∧
      ¬ ∀ n ∈ file.plainIntegers, IsInt32 n := by
  refine ⟨_, _, _, rfl, rfl, rfl, rfl, fun hall => ?_⟩
  have hlarge := hall 99999999999 (by decide)
  exact absurd hlarge.2 (by decide)

end Exemplar
