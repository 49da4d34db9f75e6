import Exemplar.Generate
import Exemplar.Proofs.Json.Pointer

/-!
# The selected part

A pointer narrows a document to one of its parts.  The main statement: the tokens of the pointer are
followed step by step, a pointer whose steps do not exist is reported as it is, and selections in a
row are the selection of the pointers in a row.
-/

namespace Exemplar

open Json

/-- A pointer selects a part of a document exactly if it leads there. -/
theorem select_eq_ok_iff {document v : Value} {p : String} :
    select document (some p) = .ok v ↔ Pointer.select? p document = some v := by
  rw [select]
  cases Pointer.select? p document with
  | none => simp
  | some u => simp

/-- A pointer that leads nowhere is reported. -/
theorem select_eq_error {document : Value} {p : String}
    (h : Pointer.select? p document = none) :
    select document (some p) = .error (.pointerNotFound p) := by
  rw [select, h]

/-- A pointer that is written from tokens selects the value that the tokens lead to, and is reported
if they lead nowhere.  No pointer and the empty one select the document, and any other pointer that
does not begin with a slash is reported.  What a pointer behind another selects is what it selects
in the part that the other selects. -/
theorem select_follows_tokens (document : Value) :
    (∀ tokens v, select document (some (Pointer.text tokens)) = .ok v ↔
      Pointer.Leads document tokens v) ∧
    (∀ tokens, (∀ v, ¬ Pointer.Leads document tokens v) →
      select document (some (Pointer.text tokens)) =
        .error (.pointerNotFound (Pointer.text tokens))) ∧
    select document none = .ok document ∧ select document (some "") = .ok document ∧
    (∀ p, p ≠ "" → p.toList.head? ≠ some '/' →
      select document (some p) = .error (.pointerNotFound p)) ∧
    ∀ p q, (q = "" ∨ q.toList.head? = some '/') → ∀ v,
      select document (some (p ++ q)) = .ok v ↔
        ∃ u, select document (some p) = .ok u ∧ select u (some q) = .ok v := by
  refine ⟨fun tokens v => ?follows, fun tokens hnowhere => ?nowhere, rfl, rfl,
    fun p hne hhead => ?unslashed, fun p q hq v => ?onward⟩
  case follows => rw [select_eq_ok_iff, Pointer.select?_text_eq_some_iff]
  case nowhere =>
    refine select_eq_error (Option.eq_none_iff_forall_not_mem.mpr fun v hv => ?_)
    exact hnowhere v (Pointer.select?_text_eq_some_iff.mp hv)
  case unslashed =>
    have htokens := Pointer.tokens?_eq_none (mt String.toList_eq_nil_iff.mp hne) hhead
    refine select_eq_error ?_
    rw [Pointer.select?, htokens, Option.bind_none]
  case onward =>
    simp only [select_eq_ok_iff]
    rw [Pointer.select?_append hq, Option.bind_eq_some_iff]

/-- Escaped keys and positions in nested arrays are followed; a position with a leading zero is
not. -/
theorem select_follows_tokens_nested :
    let document : Value := .object
      [("a/b", .array [.null, .array [.bool true]]), ("~1", .string "s")]
    Pointer.text ["a/b", "1", "0"] = "/a~1b/1/0" ∧ Pointer.text ["~1"] = "/~01" ∧
      select document (some "/a~1b/1/0") = .ok (.bool true) ∧
      select document (some "/~01") = .ok (.string "s") ∧
      select document (some "/a~1b/01") = .error (.pointerNotFound "/a~1b/01") ∧
      select document (some "a~1b") = .error (.pointerNotFound "a~1b") ∧
      ∃ u, select document (some "/a~1b") = .ok u ∧ select u (some "/1/0") = .ok (.bool true) := by
  intro document
  obtain ⟨hfollows, hnowhere, -, -, hunslashed, honward⟩ := select_follows_tokens document
  have hleads : Pointer.Leads document ["a/b", "1", "0"] (.bool true) :=
    .member rfl (.item (i := 1) rfl (by decide) (.item (i := 0) rfl (by decide) (.here _)))
  have hdeep : select document (some "/a~1b/1/0") = .ok (.bool true) := (hfollows _ _).mpr hleads
  refine ⟨rfl, rfl, hdeep, (hfollows ["~1"] _).mpr (.member rfl (.here _)), ?_,
    hunslashed _ (by decide) (by decide), (honward "/a~1b" "/1/0" (.inr rfl) _).mp hdeep⟩
  refine hnowhere ["a/b", "01"] fun v hv => ?_
  have hselect := (hfollows _ _).mpr hv
  cases hselect

end Exemplar
