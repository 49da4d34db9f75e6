import Exemplar.Proofs.Shape.Paths
import Exemplar.Proofs.Shape.Registry

/-!
# Failing inferences

An inference gives up on an array that begins with an empty one, since it is taken for what the
first inner item is and there is none.  The main statement: a document with a root fails exactly
if such an array is reached, and the error names the key of the one that stands first in the order
in which fields are emitted.
-/

namespace Exemplar

/-! ## Where an inference is stuck -/

/-- Whether a path leads to an array that begins with an empty one. -/
def StuckAt (v : Json.Value) (path : List String) : Prop :=
  ∃ rest, Reaches v path (.array (.array [] :: rest))

private theorem not_stuckAt_of_leafKind {o : InferOptions} {v : Json.Value} {r : Refinement.Refined}
    (h : leafKind? o v = some r) (path : List String) : ¬ StuckAt v path := by
  rintro ⟨rest, hreach⟩
  cases hreach <;> cases h

private theorem not_stuckAt_of_elementKind {items : List Json.Value} {kind : ScalarKind}
    (h : elementKind? items = some kind) (path : List String) : ¬ StuckAt (.array items) path := by
  rintro ⟨rest, hreach⟩
  cases hreach <;> cases h

private theorem stuckAt_stuck_iff {rest : List Json.Value} {path : List String} :
    StuckAt (.array (.array [] :: rest)) path ↔ path = [] := by
  constructor
  · rintro ⟨rest', hreach⟩
    cases hreach
    rfl
  · rintro rfl
    exact ⟨rest, .here _⟩

private theorem stuckAt_object_iff {ms : List (String × Json.Value)} {path : List String} :
    StuckAt (.object ms) path ↔ ∃ m ∈ ms, ∃ inner, path = m.1 :: inner ∧ StuckAt m.2 inner := by
  constructor
  · rintro ⟨rest, hreach⟩
    cases hreach with
    | member hm hreach => exact ⟨_, hm, _, rfl, rest, hreach⟩
  · rintro ⟨m, hm, inner, rfl, rest, hreach⟩
    exact ⟨rest, .member hm hreach⟩

private theorem stuckAt_objects_iff {ms : List (String × Json.Value)} {rest : List Json.Value}
    {path : List String} :
    StuckAt (.array (.object ms :: rest)) path ↔ StuckAt (.object ms) path := by
  constructor
  · rintro ⟨rest', hreach⟩
    cases hreach with
    | item _ hm hreach => exact ⟨rest', .member hm hreach⟩
  · rintro ⟨rest', hreach⟩
    cases hreach with
    | member hm hreach => exact ⟨rest', .item rest hm hreach⟩

private theorem stuckAt_nested_iff {first : Json.Value} {inner rest : List Json.Value}
    {path : List String} :
    StuckAt (.array (.array (first :: inner) :: rest)) path ↔ StuckAt first path := by
  constructor
  · rintro ⟨rest', hreach⟩
    cases hreach with
    | unwrapped _ _ hreach => exact ⟨rest', hreach⟩
  · rintro ⟨rest', hreach⟩
    exact ⟨rest', .unwrapped inner rest hreach⟩

/-! ## What an outcome reports -/

/-- Whether an outcome tells what is stuck under a value that stands under some keys: it has a
result if nothing is, and otherwise it names the last key on the first of the paths there. -/
structure ReportsStuck {α : Type} (above : List String) (v : Json.Value) (x : Except Error α) :
    Prop where
  ok : ∀ a, x = .ok a → ∀ path, ¬ StuckAt v path
  error : ∀ e, x = .error e → ∃ path key,
    StuckAt v path ∧ (v.WellFormed → IsFirst (StuckAt v) path) ∧
      (above ++ path).getLast? = some key ∧
      e = .shapeMismatch key .nonEmptyNestedArray (.value .emptyArray)

namespace ReportsStuck

variable {α β : Type} {above : List String} {v w : Json.Value} {x : Except Error α}

private theorem of_ok {a : α} (h : ∀ path, ¬ StuckAt v path) :
    ReportsStuck above v (.ok a : Except Error α) where
  ok _ _ := h
  error e he := by cases he

private theorem map (h : ReportsStuck above v x) (f : α → β) : ReportsStuck above v (x.map f) := by
  cases x with
  | ok a => exact of_ok (h.ok a rfl)
  | error e =>
    constructor
    case ok =>
      intro b hb
      cases hb
    case error =>
      intro e' he
      obtain rfl := Except.error.inj he
      exact h.error e rfl

private theorem of_iff (h : ReportsStuck above v x) (hwf : w.WellFormed → v.WellFormed)
    (hiff : ∀ path, StuckAt w path ↔ StuckAt v path) : ReportsStuck above w x := by
  have heq : StuckAt w = StuckAt v := funext fun path => propext (hiff path)
  refine ⟨heq ▸ h.ok, ?_⟩
  intro e he
  obtain ⟨path, key, hstuck, hfirst, hkey, rfl⟩ := h.error e he
  rw [heq]
  exact ⟨path, key, hstuck, fun hw => hfirst (hwf hw), hkey, rfl⟩

end ReportsStuck

private theorem isFirst_stuckAt_object {ms before after : List (String × Json.Value)}
    {m : String × Json.Value} (hwf : (Json.Value.object ms).WellFormed)
    (hsplit : sortByKey ms = before ++ m :: after)
    (hbefore : ∀ n ∈ before, ∀ path, ¬ StuckAt n.2 path) {path : List String}
    (hfirst : IsFirst (StuckAt m.2) path) :
    IsFirst (StuckAt (.object ms)) (m.1 :: path) := by
  have hmem : ∀ n, n ∈ ms ↔ n ∈ before ∨ n = m ∨ n ∈ after := by
    intro n
    rw [← (sortByKey_perm ms).mem_iff, hsplit, List.mem_append, List.mem_cons]
  have hstrict := sortByKey_strict hwf.1
  rw [hsplit, List.pairwise_append, List.pairwise_cons] at hstrict
  constructor
  · exact stuckAt_object_iff.mpr ⟨m, (hmem m).mpr (.inr (.inl rfl)), path, rfl, hfirst.1⟩
  · intro other hother hne
    obtain ⟨n, hn, inner, rfl, hinner⟩ := stuckAt_object_iff.mp hother
    rcases (hmem n).mp hn with hn | rfl | hn
    · exact absurd hinner (hbefore n hn inner)
    · apply List.Lex.cons
      apply hfirst.2 inner hinner
      rintro rfl
      exact hne rfl
    · exact .rel (hstrict.2.1.1 n hn)

private theorem treeFields_reportsStuck {o : InferOptions} {ms : List (String × Json.Value)}
    (h : ∀ m ∈ ms, ReportsStuck [m.1] m.2 (treeField o m.1 m.2)) (above : List String) :
    ReportsStuck above (.object ms) (treeFields o ms) := by
  have hmem : ∀ m, m ∈ sortByKey ms ↔ m ∈ ms := fun m => (sortByKey_perm ms).mem_iff
  rw [treeFields_eq]
  constructor
  case ok =>
    intro fields hfields path hstuck
    obtain ⟨m, hm, inner, -, hstuck⟩ := stuckAt_object_iff.mp hstuck
    obtain ⟨f, -, hf⟩ := exists_mem_of_mapM hfields ((hmem m).mpr hm)
    exact (h m hm).ok f hf inner hstuck
  case error =>
    intro e he
    obtain ⟨before, m, after, hsplit, hbefore, hm⟩ := exists_of_mapM_eq_error he
    have hfree : ∀ n ∈ before, ∀ path, ¬ StuckAt n.2 path := by
      intro n hn path
      obtain ⟨f, hf⟩ := hbefore n hn
      have hn : n ∈ sortByKey ms := hsplit ▸ List.mem_append_left _ hn
      exact (h n ((hmem n).mp hn)).ok f hf path
    have hm' : m ∈ ms := by
      rw [← hmem, hsplit]
      exact List.mem_append_right before List.mem_cons_self
    obtain ⟨path, key, hstuck, hfirst, hkey, rfl⟩ := (h m hm').error e hm
    refine ⟨m.1 :: path, key, ?_, ?_, ?_, rfl⟩
    · exact stuckAt_object_iff.mpr ⟨m, hm', path, rfl, hstuck⟩
    · intro hwf
      exact isFirst_stuckAt_object hwf hsplit hfree (hfirst (hwf.member hm'))
    · rw [List.getLast?_append_of_ne_nil _ (List.cons_ne_nil _ _)]
      exact hkey

private theorem treeField_reportsStuck (o : InferOptions) (key : String) (v : Json.Value) :
    ReportsStuck [key] v (treeField o key v) := by
  refine value_induct (o := o)
    (motive := fun key v => ReportsStuck [key] v (treeField o key v))
    ⟨?scalar, ?scalars, ?objects, ?stuck, ?nested, ?object⟩ key v
  case scalar =>
    intro key v r hr
    rw [treeField_scalar hr]
    exact .of_ok (not_stuckAt_of_leafKind hr)
  case scalars =>
    intro key items kind hkind
    rw [treeField_scalars hkind]
    exact .of_ok (not_stuckAt_of_elementKind hkind)
  case objects =>
    intro key ms rest ih
    rw [treeField_objects]
    have hfields := treeFields_reportsStuck ih [key]
    have harray := hfields.of_iff (w := .array (.object ms :: rest)) (fun hwf => hwf.1)
      fun _ => stuckAt_objects_iff
    exact harray.map _
  case stuck =>
    intro key rest
    have hstuck : StuckAt (.array (.array [] :: rest)) [] := stuckAt_stuck_iff.mpr rfl
    constructor
    case ok =>
      intro f hf
      cases hf
    case error =>
      intro e he
      obtain rfl := Except.error.inj he
      refine ⟨[], key, hstuck, fun _ => ⟨hstuck, ?_⟩, rfl, rfl⟩
      intro other hother hne
      exact absurd (stuckAt_stuck_iff.mp hother) hne
  case nested =>
    intro key first inner rest ih
    exact ih.of_iff (fun hwf => hwf.1.1) fun _ => stuckAt_nested_iff
  case object =>
    intro key ms ih
    rw [treeField_object]
    exact (treeFields_reportsStuck ih [key]).map _

/-! ## The model of a document -/

private theorem treeRoot_of_record?_eq_none (o : InferOptions) {v : Json.Value}
    (h : v.record? = none) :
    ∃ found, treeRoot o v = .error (.rootShape found) := by
  match v with
  | .null | .bool _ | .number _ | .string _ | .array [] => exact ⟨_, rfl⟩
  | .array (.null :: _) | .array (.bool _ :: _) | .array (.number _ :: _)
  | .array (.string _ :: _) | .array (.array _ :: _) => exact ⟨_, rfl⟩
  | .object _ | .array (.object _ :: _) => cases h

private theorem treeRoot_reportsStuck (o : InferOptions) {v : Json.Value}
    {ms : List (String × Json.Value)} (h : v.record? = some ms) :
    ReportsStuck [] v (treeRoot o v) := by
  have hmembers : ∀ m ∈ ms, ReportsStuck [m.1] m.2 (treeField o m.1 m.2) :=
    fun m _ => treeField_reportsStuck o m.1 m.2
  have hfields := treeFields_reportsStuck hmembers []
  obtain rfl | ⟨rest, rfl⟩ := record?_eq_some_iff.mp h
  · exact hfields.map _
  · have harray := hfields.of_iff (w := .array (.object ms :: rest)) (fun hwf => hwf.1)
      fun _ => stuckAt_objects_iff
    exact harray.map _

/-- An inference fails for the shape of the root exactly on values that are neither an object nor
an array that begins with one.  On all others it fails exactly if an array is reached that begins
with an empty one, and then the error names the key of the field that this array was found in: of
all such fields the first one in the order of emission. -/
theorem infer_fails_iff (o : InferOptions) (v : Json.Value) :
    ((∃ found, infer o v = .error (.rootShape found)) ↔ v.record? = none) ∧
      (v.record?.isSome → ((∃ e, infer o v = .error e) ↔ ∃ path, StuckAt v path)) ∧
      (v.record?.isSome → v.WellFormed → ∀ e, infer o v = .error e →
        ∃ path key, IsFirst (StuckAt v) path ∧ path.getLast? = some key ∧
          e = .shapeMismatch key .nonEmptyNestedArray (.value .emptyArray)) := by
  rw [infer_eq]
  cases hrecord : v.record? with
  | none =>
    obtain ⟨found, hroot⟩ := treeRoot_of_record?_eq_none o hrecord
    rw [hroot]
    refine ⟨⟨fun _ => rfl, fun _ => ⟨found, rfl⟩⟩, ?_, ?_⟩ <;>
      · intro h
        cases h
  | some ms =>
    have hreports := (treeRoot_reportsStuck o hrecord).map fun root =>
      ({ root, named := root.preorder } : Model)
    generalize (treeRoot o v).map _ = x at hreports
    refine ⟨⟨?_, ?_⟩, fun _ => ⟨?_, ?_⟩, fun _ => ?_⟩
    · rintro ⟨found, rfl⟩
      obtain ⟨_, _, -, -, -, he⟩ := hreports.error _ rfl
      cases he
    · intro h
      cases h
    · rintro ⟨e, rfl⟩
      obtain ⟨path, _, hstuck, -⟩ := hreports.error e rfl
      exact ⟨path, hstuck⟩
    · rintro ⟨path, hstuck⟩
      cases x with
      | error e => exact ⟨e, rfl⟩
      | ok model => exact absurd hstuck (hreports.ok model rfl path)
    · intro hwf e he
      obtain ⟨path, key, -, hfirst, hkey, rfl⟩ := hreports.error e he
      exact ⟨path, key, hfirst hwf, hkey, rfl⟩

/-- A document with three empty arrays that are not looked for in the order of writing. -/
def stuckDocument : Json.Value :=
  .object
    [("b", .array [.array []]),
     ("a", .object [("x", .array [.array []])]),
     ("id", .array [.object [("z", .array [.array [.array [.array []]]])]])]

/-- The field that fails is the one in the leading member, which was written last. -/
theorem infer_fails_iff_stuckDocument :
    infer {} stuckDocument =
        .error (.shapeMismatch "z" .nonEmptyNestedArray (.value .emptyArray)) ∧
      (∃ path, StuckAt stuckDocument path) ∧
      ∃ path key, IsFirst (StuckAt stuckDocument) path ∧ path.getLast? = some key ∧
        Error.shapeMismatch "z" .nonEmptyNestedArray (.value .emptyArray) =
          .shapeMismatch key .nonEmptyNestedArray (.value .emptyArray) := by
  have hfails : infer {} stuckDocument =
      .error (.shapeMismatch "z" .nonEmptyNestedArray (.value .emptyArray)) := rfl
  have hwf : stuckDocument.WellFormed := by
    simp [stuckDocument, Json.Value.WellFormed, Json.itemsWellFormed, Json.membersWellFormed]
  have h := infer_fails_iff {} stuckDocument
  exact ⟨hfails, (h.2.1 rfl).mp ⟨_, hfails⟩, h.2.2 rfl hwf _ hfails⟩

end Exemplar
