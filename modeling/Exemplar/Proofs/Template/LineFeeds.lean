import Exemplar.Template.Builtin
import Mathlib.Algebra.Ring.Nat

/-!
# Line feeds of filled templates

How many line feeds texts have, put together from those of their parts.  The main statement: a
template that is filled in with texts on one line has the line feeds of its constant parts and no
others.
-/

namespace Exemplar

/-! ## Texts -/

namespace Text

/-- The number of line feeds of a text. -/
def lineFeeds (s : String) : Nat :=
  s.toList.count '\n'

/-- Texts one after the other have the line feeds of both. -/
@[simp] theorem lineFeeds_append (s t : String) :
    lineFeeds (s ++ t) = lineFeeds s + lineFeeds t := by
  rw [lineFeeds, String.toList_append, List.count_append, lineFeeds, lineFeeds]

/-- The text of characters has those of them that are line feeds. -/
@[simp] theorem lineFeeds_ofList (cs : List Char) :
    lineFeeds (String.ofList cs) = cs.count '\n' := by
  rw [lineFeeds, String.toList_ofList]

/-- Texts in a row have the line feeds of each. -/
theorem lineFeeds_join (ss : List String) :
    lineFeeds (String.join ss) = (ss.map lineFeeds).sum := by
  rw [lineFeeds, String.toList_join, List.count_flatMap]
  rfl

/-- A text is on one line if none of its characters is a line feed. -/
theorem lineFeeds_eq_zero_iff {s : String} : lineFeeds s = 0 ↔ '\n' ∉ s.toList :=
  List.count_eq_zero

/-- Texts on one line between which a text on one line stands are on one line together. -/
theorem lineFeeds_intercalate {s : String} (hs : lineFeeds s = 0) {ts : List String}
    (hts : ∀ t ∈ ts, lineFeeds t = 0) : lineFeeds (String.intercalate s ts) = 0 := by
  induction ts with
  | nil => rfl
  | cons t ts ih =>
    obtain ⟨ht, hrest⟩ := List.forall_mem_cons.mp hts
    cases ts with
    | nil => exact ht
    | cons u us => simp [String.intercalate_cons_cons, hs, ht, ih hrest]

private theorem lineFeeds_join_between (before after : String) {ts : List String}
    (hts : ∀ t ∈ ts, lineFeeds t = 0) :
    lineFeeds (String.join (ts.map fun t => before ++ t ++ after)) =
      ts.length * (lineFeeds before + lineFeeds after) := by
  have heach : (ts.map fun t => before ++ t ++ after).map lineFeeds =
      List.replicate ts.length (lineFeeds before + lineFeeds after) := by
    rw [List.map_map, List.eq_replicate_iff]
    refine ⟨List.length_map _, ?_⟩
    intro n hn
    obtain ⟨t, ht, rfl⟩ := List.mem_map.mp hn
    simp [hts t ht]
  rw [lineFeeds_join, heach, List.sum_replicate_nat]

end Text

open Text (lineFeeds)

/-! ## Templates -/

/-- Whether the texts of an argument are on one line each. -/
def Argument.OnOneLine : Argument → Prop
  | null | bool _ => True
  | text s => lineFeeds s = 0
  | list items => ∀ item ∈ items, lineFeeds item = 0

/-- Whether the texts of a payload are on one line each. -/
def Payload.OnOneLine (payload : Payload) : Prop :=
  ∀ p ∈ payload, p.2.OnOneLine

private theorem Argument.OnOneLine.lineFeeds_render {a : Argument} (h : a.OnOneLine) :
    lineFeeds a.render = 0 := by
  cases a with
  | null => rfl
  | bool b => cases b <;> rfl
  | text s => exact h
  | list items =>
    have hitems : lineFeeds (String.intercalate ", " items) = 0 := Text.lineFeeds_intercalate rfl h
    rw [render, Text.lineFeeds_append, Text.lineFeeds_append, hitems]
    rfl

private theorem Payload.OnOneLine.lookup {payload : Payload} (h : payload.OnOneLine) {name : String}
    {a : Argument} (ha : payload.lookup name = some a) : a.OnOneLine := by
  obtain ⟨before, after, rfl, -⟩ := List.lookup_eq_some_iff.mp ha
  exact h (name, a) (List.mem_append_right before List.mem_cons_self)

namespace Piece

mutual

/-- The line feeds of what is constant in a part: an optional part has them if its argument holds,
and a repeated one has them for each item. -/
def lineFeeds (payload : Payload) : Piece → Nat
  | .text s => Text.lineFeeds s
  | .slot _ => 0
  | .given name body =>
    if (payload.lookup name).any Argument.holds then lineFeedsAll payload body else 0
  | .each name before after =>
    match payload.lookup name with
    | some (.list items) => items.length * (Text.lineFeeds before + Text.lineFeeds after)
    | _ => 0
termination_by structural piece => piece

/-- The line feeds of what is constant in parts in a row. -/
def lineFeedsAll (payload : Payload) : List Piece → Nat
  | [] => 0
  | piece :: pieces => piece.lineFeeds payload + lineFeedsAll payload pieces
termination_by structural pieces => pieces

end

variable {payload : Payload}

/-- Parts one after the other have the line feeds of both. -/
theorem lineFeedsAll_append (payload : Payload) (ps qs : List Piece) :
    lineFeedsAll payload (ps ++ qs) = lineFeedsAll payload ps + lineFeedsAll payload qs := by
  induction ps with
  | nil => exact (Nat.zero_add _).symm
  | cons p ps ih => rw [List.cons_append, lineFeedsAll, lineFeedsAll, ih, Nat.add_assoc]

mutual

private theorem lineFeeds_render? (hpayload : payload.OnOneLine) {piece : Piece} {s : String}
    (h : piece.render? payload = some s) : Text.lineFeeds s = piece.lineFeeds payload := by
  match piece with
  | .text t =>
    obtain rfl := Option.some.inj h
    rfl
  | .slot name =>
    obtain ⟨a, ha, rfl⟩ := Option.map_eq_some_iff.mp h
    exact (hpayload.lookup ha).lineFeeds_render
  | .given name body =>
    rw [render?] at h
    rw [lineFeeds]
    split at h
    · next hholds =>
      rw [if_pos hholds]
      exact lineFeeds_renderAll? hpayload h
    · next hholds =>
      rw [if_neg hholds]
      obtain rfl := Option.some.inj h
      rfl
  | .each name before after =>
    rw [render?] at h
    rw [lineFeeds]
    cases ha : payload.lookup name with
    | none =>
      rw [ha] at h
      cases h
    | some a =>
      rw [ha] at h
      cases a with
      | list items =>
        obtain rfl := Option.some.inj h
        exact Text.lineFeeds_join_between before after (hpayload.lookup ha)
      | null | bool _ | text _ => cases h
termination_by structural piece

private theorem lineFeeds_renderAll? (hpayload : payload.OnOneLine) {pieces : List Piece}
    {s : String}
    (h : renderAll? payload pieces = some s) : Text.lineFeeds s = lineFeedsAll payload pieces := by
  match pieces with
  | [] =>
    obtain rfl := Option.some.inj h
    rfl
  | piece :: pieces =>
    rw [renderAll?] at h
    obtain ⟨t, ht, h⟩ := Option.bind_eq_some_iff.mp h
    obtain ⟨u, hu, h⟩ := Option.bind_eq_some_iff.mp h
    obtain rfl := Option.some.inj h
    rw [Text.lineFeeds_append, lineFeeds_render? hpayload ht, lineFeeds_renderAll? hpayload hu,
      lineFeedsAll]
termination_by structural pieces

end

end Piece

namespace Template

/-- The line feeds of what is constant in a template. -/
def lineFeeds (template : Template) (payload : Payload) : Nat :=
  Piece.lineFeedsAll payload template.pieces

/-- A template that is filled in with texts on one line has the line feeds of what is constant in
it. -/
theorem lineFeeds_render {template : Template} {payload : Payload} (hpayload : payload.OnOneLine)
    {text : String} (h : template.render payload = .ok text) :
    Text.lineFeeds text = template.lineFeeds payload := by
  rw [render] at h
  split at h
  · next s hs =>
    obtain rfl := Except.ok.inj h
    exact Piece.lineFeeds_renderAll? hpayload hs
  · cases h

end Template

end Exemplar
