import Exemplar.Template.Builtin

/-!
# Templates put in what they are given as it stands

What a template is made of when it is filled in, and which members of the payload it needs for
that: both depend on the shape of the payload and not on its strings.  The main statement: a
template has a text exactly if the members it needs are there, and the text is that of its constant
parts with the strings of the payload between them.
-/

namespace Exemplar

/-! ## Payloads -/

/-- Whether a payload has a member that is not null, not false and not empty. -/
def Payload.Holds (payload : Payload) (name : String) : Prop :=
  ∃ a, payload.lookup name = some a ∧
    a ≠ .null ∧ a ≠ .bool false ∧ a ≠ .text "" ∧ a ≠ .list []

private theorem Argument.holds_iff (a : Argument) :
    a.holds = true ↔ a ≠ .null ∧ a ≠ .bool false ∧ a ≠ .text "" ∧ a ≠ .list [] := by
  cases a <;> simp [holds]

private theorem Payload.holds_iff {payload : Payload} {name : String} :
    (payload.lookup name).any Argument.holds = true ↔ payload.Holds name := by
  rw [Option.any_eq_true]
  exact exists_congr fun a => and_congr_right fun _ => a.holds_iff

instance (payload : Payload) (name : String) : Decidable (payload.Holds name) :=
  decidable_of_iff _ Payload.holds_iff

/-- The number of items of a member that is a list. -/
def Payload.count (payload : Payload) (name : String) : Nat :=
  match payload.lookup name with
  | some (.list items) => items.length
  | _ => 0

/-! ## What a template is made of -/

/-- A use of a member that needs it: its text is put in, or its items are gone through. -/
inductive Use
  | slot (name : String)
  | each (name : String)
  deriving DecidableEq, Repr

/-- The member that is used. -/
def Use.name : Use → String
  | slot name | each name => name

/-- A fragment of a filled template: constant text, the text of a member, or one of its items. -/
inductive Fragment
  | text (s : String)
  | slot (name : String)
  | item (name : String) (index : Nat)
  deriving DecidableEq, Repr

/-- The text of a fragment. -/
def Fragment.fill (payload : Payload) : Fragment → String
  | text s => s
  | slot name =>
    match payload.lookup name with
    | some (.text s) => s
    | _ => ""
  | item name index =>
    match payload.lookup name with
    | some (.list items) => items.getD index ""
    | _ => ""

namespace Piece

mutual

/-- The uses of members that are reached in a part. -/
def uses (payload : Payload) : Piece → List Use
  | .text _ => []
  | .slot name => [.slot name]
  | .given name body => if payload.Holds name then usesAll payload body else []
  | .each name _ _ => [.each name]
termination_by structural piece => piece

/-- The uses of members that are reached in parts in a row. -/
def usesAll (payload : Payload) : List Piece → List Use
  | [] => []
  | piece :: pieces => piece.uses payload ++ usesAll payload pieces
termination_by structural pieces => pieces

end

mutual

/-- The fragments of a part: an optional part has them if its member holds, and a repeated one has
them for each item in order. -/
def fragments (payload : Payload) : Piece → List Fragment
  | .text s => [.text s]
  | .slot name => [.slot name]
  | .given name body => if payload.Holds name then fragmentsAll payload body else []
  | .each name before after =>
    (List.range (payload.count name)).flatMap fun i =>
      [.text before, .item name i, .text after]
termination_by structural piece => piece

/-- The fragments of parts in a row. -/
def fragmentsAll (payload : Payload) : List Piece → List Fragment
  | [] => []
  | piece :: pieces => piece.fragments payload ++ fragmentsAll payload pieces
termination_by structural pieces => pieces

end

end Piece

/-- The text of fragments in a row. -/
def fillAll (payload : Payload) (fragments : List Fragment) : String :=
  String.join (fragments.map (Fragment.fill payload))

/-! ## When a template has a text -/

/-- Whether an argument is of the sort that a use asks for. -/
def Use.Accepts : Use → Argument → Prop
  | slot _, a => ∃ s, a = .text s
  | each _, a => ∃ items, a = .list items

/-- Whether the members that are used are of the sorts that their uses ask for, if they are
there. -/
def Payload.Suits (payload : Payload) (uses : List Use) : Prop :=
  ∀ use ∈ uses, ∀ a, payload.lookup use.name = some a → use.Accepts a

/-- Whether all members that are used are there. -/
def Payload.Supplies (payload : Payload) (uses : List Use) : Prop :=
  ∀ use ∈ uses, (payload.lookup use.name).isSome

instance (use : Use) (a : Argument) : Decidable (use.Accepts a) :=
  match use, a with
  | .slot _, .text s => .isTrue ⟨s, rfl⟩
  | .each _, .list items => .isTrue ⟨items, rfl⟩
  | .slot _, .null | .slot _, .bool _ | .slot _, .list _ => .isFalse nofun
  | .each _, .null | .each _, .bool _ | .each _, .text _ => .isFalse nofun

instance (payload : Payload) (uses : List Use) : Decidable (payload.Suits uses) :=
  inferInstanceAs (Decidable (∀ use ∈ uses, ∀ a ∈ payload.lookup use.name, use.Accepts a))

instance (payload : Payload) (uses : List Use) : Decidable (payload.Supplies uses) :=
  inferInstanceAs (Decidable (∀ use ∈ uses, (payload.lookup use.name).isSome))

private theorem fillAll_append (payload : Payload) (fs gs : List Fragment) :
    fillAll payload (fs ++ gs) = fillAll payload fs ++ fillAll payload gs := by
  rw [fillAll, List.map_append, String.join_append, fillAll, fillAll]

private theorem fillAll_flatMap {α : Type} (payload : Payload) (xs : List α)
    (f : α → List Fragment) :
    fillAll payload (xs.flatMap f) = String.join (xs.map fun x => fillAll payload (f x)) := by
  induction xs with
  | nil => rfl
  | cons x xs ih => rw [List.flatMap_cons, fillAll_append, ih, List.map_cons, String.join_cons]

private theorem fillAll_items {payload : Payload} {name : String} {items : List String}
    (h : payload.lookup name = some (.list items)) (before after : String) :
    fillAll payload ((List.range items.length).flatMap fun i =>
        [.text before, .item name i, .text after]) =
      String.join (items.map fun item => before ++ item ++ after) := by
  have hitem (i : Nat) : fillAll payload [.text before, .item name i, .text after] =
      before ++ items.getD i "" ++ after := by
    simp only [fillAll, List.map_cons, List.map_nil, Fragment.fill, h, String.join_cons,
      String.join_nil, String.append_empty, String.append_assoc]
  rw [fillAll_flatMap]
  congr 1
  refine List.ext_getElem (by rw [List.length_map, List.length_map, List.length_range]) ?_
  intro i hleft hright
  rw [List.length_map] at hright
  rw [List.getElem_map, List.getElem_map, List.getElem_range, hitem, List.getD_eq_getElem?_getD,
    List.getElem?_eq_getElem hright, Option.getD_some]

namespace Piece

variable {payload : Payload}

mutual

private theorem render?_eq_some {piece : Piece} (hsuits : payload.Suits (piece.uses payload))
    (hsupplies : payload.Supplies (piece.uses payload)) :
    piece.render? payload = some (fillAll payload (piece.fragments payload)) := by
  match piece with
  | .text s => rw [render?, fragments, fillAll, List.map_singleton, String.join_cons,
      String.join_nil, String.append_empty, Fragment.fill]
  | .slot name =>
    obtain ⟨a, ha⟩ := Option.isSome_iff_exists.mp (hsupplies _ List.mem_cons_self)
    obtain ⟨s, rfl⟩ := hsuits _ List.mem_cons_self a ha
    have ha : payload.lookup name = some (.text s) := ha
    rw [render?, ha, fragments, fillAll, List.map_singleton, Fragment.fill, ha, String.join_cons,
      String.join_nil, String.append_empty]
    rfl
  | .given name body =>
    rw [uses] at hsuits hsupplies
    rw [render?, fragments]
    by_cases hholds : payload.Holds name
    · rw [if_pos hholds] at hsuits hsupplies
      rw [if_pos (Payload.holds_iff.mpr hholds), if_pos hholds]
      exact renderAll?_eq_some hsuits hsupplies
    · rw [if_neg fun h => hholds (Payload.holds_iff.mp h), if_neg hholds]
      rfl
  | .each name before after =>
    obtain ⟨a, ha⟩ := Option.isSome_iff_exists.mp (hsupplies _ List.mem_cons_self)
    obtain ⟨items, rfl⟩ := hsuits _ List.mem_cons_self a ha
    have ha : payload.lookup name = some (.list items) := ha
    have hcount : payload.count name = items.length := by rw [Payload.count, ha]
    rw [render?, ha, fragments, hcount, fillAll_items ha]
termination_by structural piece

private theorem renderAll?_eq_some {pieces : List Piece}
    (hsuits : payload.Suits (usesAll payload pieces))
    (hsupplies : payload.Supplies (usesAll payload pieces)) :
    renderAll? payload pieces = some (fillAll payload (fragmentsAll payload pieces)) := by
  match pieces with
  | [] => rfl
  | piece :: pieces =>
    rw [usesAll, Payload.Suits, List.forall_mem_append] at hsuits
    rw [usesAll, Payload.Supplies, List.forall_mem_append] at hsupplies
    rw [renderAll?, render?_eq_some hsuits.1 hsupplies.1, renderAll?_eq_some hsuits.2 hsupplies.2,
      fragmentsAll, fillAll_append]
    rfl
termination_by structural pieces

end

mutual

private theorem supplies_of_render? {piece : Piece} {s : String}
    (h : piece.render? payload = some s) :
    payload.Supplies (piece.uses payload) := by
  match piece with
  | .text _ => exact fun use huse => absurd huse List.not_mem_nil
  | .slot name =>
    rw [render?, Option.map_eq_some_iff] at h
    obtain ⟨a, ha, -⟩ := h
    intro use huse
    rw [List.mem_singleton.mp huse]
    exact Option.isSome_of_eq_some ha
  | .given name body =>
    rw [render?] at h
    rw [uses]
    split
    · next hholds =>
      rw [if_pos (Payload.holds_iff.mpr hholds)] at h
      exact supplies_of_renderAll? h
    · exact fun use huse => absurd huse List.not_mem_nil
  | .each name before after =>
    rw [render?] at h
    intro use huse
    rw [List.mem_singleton.mp huse]
    split at h
    · next ha => exact Option.isSome_of_eq_some ha
    · cases h
termination_by structural piece

private theorem supplies_of_renderAll? {pieces : List Piece} {s : String}
    (h : renderAll? payload pieces = some s) : payload.Supplies (usesAll payload pieces) := by
  match pieces with
  | [] => exact fun use huse => absurd huse List.not_mem_nil
  | piece :: pieces =>
    rw [renderAll?] at h
    obtain ⟨t, ht, h⟩ := Option.bind_eq_some_iff.mp h
    obtain ⟨u, hu, -⟩ := Option.bind_eq_some_iff.mp h
    exact List.forall_mem_append.mpr ⟨supplies_of_render? ht, supplies_of_renderAll? hu⟩
termination_by structural pieces

end

end Piece

/-! ## Payloads of one shape -/

/-- Whether two arguments are of one sort, and alike in truth, emptiness and number of items. -/
inductive Argument.SameShape : Argument → Argument → Prop
  | null : SameShape .null .null
  | bool (b : Bool) : SameShape (.bool b) (.bool b)
  | text {s t : String} (h : s = "" ↔ t = "") : SameShape (.text s) (.text t)
  | list {xs ys : List String} (h : xs.length = ys.length) : SameShape (.list xs) (.list ys)

/-- Whether two payloads have the same members, and those of one shape. -/
def Payload.SameShape (payload other : Payload) : Prop :=
  ∀ name, Option.Rel Argument.SameShape (payload.lookup name) (other.lookup name)

private theorem Argument.SameShape.holds_eq {a b : Argument} (h : a.SameShape b) :
    a.holds = b.holds := by
  cases h with
  | null | bool b => rfl
  | text h =>
    rw [Bool.eq_iff_iff, holds_iff, holds_iff]
    simp [h]
  | @list xs ys h => cases xs <;> cases ys <;> first | rfl | cases h

namespace Payload

variable {payload other : Payload}

private theorem SameShape.holds_iff (h : payload.SameShape other) (name : String) :
    payload.Holds name ↔ other.Holds name := by
  have hname := h name
  rw [← Payload.holds_iff, ← Payload.holds_iff]
  generalize payload.lookup name = x at hname ⊢
  generalize other.lookup name = y at hname ⊢
  cases hname with
  | none => exact Iff.rfl
  | some hshape => rw [Option.any_some, Option.any_some, hshape.holds_eq]

private theorem SameShape.count_eq (h : payload.SameShape other) (name : String) :
    payload.count name = other.count name := by
  have hname := h name
  rw [count, count]
  generalize payload.lookup name = x at hname ⊢
  generalize other.lookup name = y at hname ⊢
  cases hname with
  | none => rfl
  | some hshape =>
    cases hshape with
    | null | bool _ | text _ => rfl
    | list hlength => exact hlength

end Payload

namespace Piece

variable {payload other : Payload}

mutual

private theorem uses_and_fragments_eq (h : payload.SameShape other) (piece : Piece) :
    piece.uses payload = piece.uses other ∧ piece.fragments payload = piece.fragments other := by
  match piece with
  | .text _ | .slot _ => exact ⟨rfl, rfl⟩
  | .given name body =>
    obtain ⟨huses, hfragments⟩ := usesAll_and_fragmentsAll_eq h body
    simp only [uses, fragments, h.holds_iff name, huses, hfragments, and_self]
  | .each name before after =>
    rw [fragments, fragments, h.count_eq name]
    exact ⟨rfl, rfl⟩
termination_by structural piece

private theorem usesAll_and_fragmentsAll_eq (h : payload.SameShape other) (pieces : List Piece) :
    usesAll payload pieces = usesAll other pieces ∧
      fragmentsAll payload pieces = fragmentsAll other pieces := by
  match pieces with
  | [] => exact ⟨rfl, rfl⟩
  | piece :: pieces =>
    obtain ⟨huses, hfragments⟩ := uses_and_fragments_eq h piece
    obtain ⟨husesAll, hfragmentsAll⟩ := usesAll_and_fragmentsAll_eq h pieces
    rw [usesAll, usesAll, fragmentsAll, fragmentsAll, huses, husesAll, hfragments, hfragmentsAll]
    exact ⟨rfl, rfl⟩
termination_by structural pieces

end

end Piece

/-! ## Filled templates -/

namespace Template

/-- The members that a template uses under a payload. -/
def uses (template : Template) (payload : Payload) : List Use :=
  Piece.usesAll payload template.pieces

/-- The fragments that a template is made of under a payload. -/
def fragments (template : Template) (payload : Payload) : List Fragment :=
  Piece.fragmentsAll payload template.pieces

/-- A template has a text exactly if the members it uses are there, and it is the text of its
fragments; otherwise it fails under its name.  Which members and which fragments these are depends
on the shape of the payload alone, whatever its strings hold. -/
theorem render_verbatim (template : Template) {payload : Payload}
    (hsuits : payload.Suits (template.uses payload)) :
    (∀ text, template.render payload = .ok text ↔
      payload.Supplies (template.uses payload) ∧
        text = fillAll payload (template.fragments payload)) ∧
    (template.render payload = .error (.template template.name) ↔
      ¬ payload.Supplies (template.uses payload)) ∧
    ∀ other, payload.SameShape other →
      template.uses other = template.uses payload ∧
        template.fragments other = template.fragments payload := by
  have hsupplied (h : payload.Supplies (template.uses payload)) :
      template.render payload = .ok (fillAll payload (template.fragments payload)) := by
    rw [render, Piece.renderAll?_eq_some hsuits h]
    rfl
  have hmissing (h : ¬ payload.Supplies (template.uses payload)) :
      template.render payload = .error (.template template.name) := by
    rw [render]
    cases hrender : Piece.renderAll? payload template.pieces with
    | none => rfl
    | some text => exact absurd (Piece.supplies_of_renderAll? hrender) h
  refine ⟨fun text => ⟨fun h => ?_, fun h => ?_⟩, ⟨fun h hsupplies => ?_, hmissing⟩,
    fun other hshape => ?_⟩
  · by_cases hsupplies : payload.Supplies (template.uses payload)
    · rw [hsupplied hsupplies] at h
      exact ⟨hsupplies, (Except.ok.inj h).symm⟩
    · rw [hmissing hsupplies] at h
      cases h
  · rw [hsupplied h.1, h.2]
  · rw [hsupplied hsupplies] at h
    cases h
  · obtain ⟨huses, hfragments⟩ := Piece.usesAll_and_fragmentsAll_eq hshape template.pieces
    exact ⟨huses.symm, hfragments.symm⟩

/-- A payload with a package and imports that look like parts of a template, or like markup. -/
def markupPayload : Payload :=
  [("package", .text "\x7b\x7bimports\x7d\x7d"),
   ("imports", .list ["\x7b\x7b#if x\x7d\x7d", "<a&b>", ""])]

/-- What looks like a part of a template, or like markup, is put in as it stands, and a head without
a package fails. -/
theorem render_verbatim_markup :
    markupPayload.Suits (structPreamble.uses markupPayload) ∧
      structPreamble.render markupPayload = .ok
        ("// Code generated by configd. DO NOT EDIT.\n\npackage \x7b\x7bimports\x7d\x7d\n\n" ++
          "import (\n\t\"\x7b\x7b#if x\x7d\x7d\"\n\t\"<a&b>\"\n\t\"\"\n)\n\n") ∧
      structPreamble.render [("imports", .list ["net"])] = .error (.template "go.preamble") := by
  have hsuits : markupPayload.Suits (structPreamble.uses markupPayload) := by decide +kernel
  have hmissing : Payload.Suits [("imports", .list ["net"])]
      (structPreamble.uses [("imports", .list ["net"])]) := by decide +kernel
  refine ⟨hsuits, ((render_verbatim structPreamble hsuits).1 _).mpr ⟨?supplies, ?text⟩,
    (render_verbatim structPreamble hmissing).2.1.mpr ?missing⟩
  case supplies => decide +kernel
  case text => decide +kernel
  case missing => decide +kernel

end Template

end Exemplar
