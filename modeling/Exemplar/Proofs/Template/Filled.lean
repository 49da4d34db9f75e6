import Exemplar.Proofs.Outcome
import Exemplar.Template.Builtin

/-!
# Templates that a payload fills in

A condition under which a template has a text: each of its places, those of its optional parts
included, has an argument, and what is repeated goes through a list.
-/

namespace Exemplar

namespace Piece

mutual

/-- Whether a payload has an argument of the right sort for every place of a part. -/
def filledBy (payload : Payload) : Piece → Bool
  | .text _ => true
  | .slot name => (payload.lookup name).isSome
  | .given _ body => allFilledBy payload body
  | .each name _ _ =>
    match payload.lookup name with
    | some (.list _) => true
    | _ => false
termination_by structural piece => piece

/-- Whether a payload fills in parts in a row. -/
def allFilledBy (payload : Payload) : List Piece → Bool
  | [] => true
  | piece :: pieces => piece.filledBy payload && allFilledBy payload pieces
termination_by structural pieces => pieces

end

mutual

private theorem isSome_render? {payload : Payload} {piece : Piece} (h : piece.filledBy payload) :
    (piece.render? payload).isSome := by
  match piece with
  | .text _ => rfl
  | .slot name =>
    rw [filledBy] at h
    rw [render?, Option.isSome_map]
    exact h
  | .given name body =>
    rw [filledBy] at h
    rw [render?]
    split
    · exact isSome_renderAll? h
    · rfl
  | .each name before after =>
    rw [filledBy] at h
    rw [render?]
    cases hargument : payload.lookup name with
    | none =>
      rw [hargument] at h
      cases h
    | some argument =>
      rw [hargument] at h
      cases argument with
      | list items => rfl
      | null | bool _ | text _ => cases h
termination_by structural piece

private theorem isSome_renderAll? {payload : Payload} {pieces : List Piece}
    (h : allFilledBy payload pieces) : (renderAll? payload pieces).isSome := by
  match pieces with
  | [] => rfl
  | piece :: pieces =>
    rw [allFilledBy, Bool.and_eq_true] at h
    obtain ⟨s, hs⟩ := Option.isSome_iff_exists.mp (isSome_render? h.1)
    obtain ⟨t, ht⟩ := Option.isSome_iff_exists.mp (isSome_renderAll? h.2)
    rw [renderAll?, hs, ht]
    rfl
termination_by structural pieces

end

private theorem exists_of_renderAll?_append {payload : Payload} {ps qs : List Piece} {s : String}
    (h : renderAll? payload (ps ++ qs) = some s) :
    ∃ s₁ s₂, renderAll? payload ps = some s₁ ∧ renderAll? payload qs = some s₂ ∧
      s = s₁ ++ s₂ := by
  induction ps generalizing s with
  | nil => exact ⟨"", s, rfl, h, (String.empty_append).symm⟩
  | cons piece ps ih =>
    rw [List.cons_append, renderAll?] at h
    obtain ⟨t, ht, h⟩ := Option.bind_eq_some_iff.mp h
    obtain ⟨u, hu, h⟩ := Option.bind_eq_some_iff.mp h
    obtain ⟨s₁, s₂, h₁, h₂, rfl⟩ := ih hu
    obtain rfl := Option.some.inj h
    refine ⟨t ++ s₁, s₂, ?_, h₂, (String.append_assoc).symm⟩
    rw [renderAll?, ht, h₁]
    rfl

end Piece

/-- Where a template has a text, a place and a text in a row, its text has them with the argument in
the place. -/
theorem Template.exists_of_render {template : Template} {payload : Payload} {text : String}
    (h : template.render payload = .ok text) {before after : List Piece} {s name t x : String}
    (hpieces : template.pieces = before ++ ([.text s, .slot name, .text t] ++ after))
    (hname : payload.lookup name = some (.text x)) :
    ∃ front back, text = front ++ (s ++ x ++ t) ++ back := by
  rw [Template.render, hpieces] at h
  split at h
  · next rendered hrendered =>
    obtain rfl := Except.ok.inj h
    obtain ⟨front, rest, -, hrest, rfl⟩ := Piece.exists_of_renderAll?_append hrendered
    obtain ⟨middle, back, hmiddle, -, rfl⟩ := Piece.exists_of_renderAll?_append hrest
    refine ⟨front, back, ?_⟩
    simp only [Piece.renderAll?, Piece.render?, hname, Option.map_some, Argument.render] at hmiddle
    obtain rfl : s ++ (x ++ (t ++ "")) = middle := Option.some.inj hmiddle
    simp only [String.append_assoc, String.append_empty]
  · cases h

/-- Where a template has a text, the text ends in that of its last parts. -/
theorem Template.exists_of_render_append {template : Template} {payload : Payload} {text : String}
    (h : template.render payload = .ok text) {before after : List Piece}
    (hpieces : template.pieces = before ++ after) :
    ∃ front back, text = front ++ back ∧ Piece.renderAll? payload after = some back := by
  rw [Template.render, hpieces] at h
  split at h
  · next rendered hrendered =>
    obtain rfl := Except.ok.inj h
    obtain ⟨front, back, -, hback, rfl⟩ := Piece.exists_of_renderAll?_append hrendered
    exact ⟨front, back, rfl, hback⟩
  · cases h

/-- A template that is filled in does not fail. -/
theorem Template.failure?_render {template : Template} {payload : Payload}
    (h : Piece.allFilledBy payload template.pieces) :
    failure? (template.render payload) = none := by
  obtain ⟨s, hs⟩ := Option.isSome_iff_exists.mp (Piece.isSome_renderAll? h)
  rw [Template.render, hs]
  rfl

end Exemplar
