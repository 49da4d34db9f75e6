import Exemplar.Generate
import Exemplar.Proofs.Json.Reading

/-!
# Documents that are read

A document is meant to be one JSON text, but what follows the first value is not looked at.  The
main statement: a document is read as the value that it begins with, which it denotes exactly when
blanks alone are left.
-/

namespace Exemplar

open Json

/-- A document is parsed as the value that is read off it. -/
theorem parseDocument_eq_ok_iff {document : List UInt8} {v : Value} :
    parseDocument document = .ok v ↔ Json.read document = .ok v := by
  rw [parseDocument]
  split
  · next v' h => rw [h, Except.ok.injEq, Except.ok.injEq]
  · next h => simp [h]

/-- A document is parsed as the value that it begins with, if there is one with brackets nested no
deeper than is allowed, and is malformed otherwise.  The value is denoted by the document, and no
other is, exactly when blanks alone follow; a document that goes on otherwise is parsed all the
same. -/
theorem parseDocument_iff_and_denotes_iff (document : List UInt8) :
    (∀ v, parseDocument document = .ok v ↔
      ∃ rest, BeginsWith (ValueText maxDepth) document v rest) ∧
    (∀ error, parseDocument document = .error error → ∃ fault, error = .malformed fault) ∧
    ∀ v rest, BeginsWith (ValueText maxDepth) document v rest → ∀ v',
      Denotes document v' ↔ v' = v ∧ AllSpace rest := by
  refine ⟨fun v => parseDocument_eq_ok_iff.trans read_eq_ok_iff, fun error h => ?_,
    fun v rest h v' => denotes_iff_of_beginsWith h⟩
  rw [parseDocument] at h
  split at h
  · cases h
  · next fault _ => exact ⟨fault, (Except.error.inj h).symm⟩

/-- A letter behind a number is left unread: the document is parsed, and denotes no value. -/
theorem parseDocument_trailingLetter :
    parseDocument (word "1 x") = .ok (.number (.integer 1 (by decide))) ∧
      ∀ v, ¬ Denotes (word "1 x") v := by
  have hread : readValue maxDepth (word "1 x") =
      .ok (.number (.integer 1 (by decide)), word " x") := by
    rfl
  refine ⟨by rw [parseDocument, Json.read, hread], fun v hv => ?_⟩
  have hrest := ((denotes_iff_of_beginsWith (readValue_eq_ok_iff.mp hread)).mp hv).2
  exact absurd (hrest 'x'.toUInt8 (by decide)) (by decide)

end Exemplar
