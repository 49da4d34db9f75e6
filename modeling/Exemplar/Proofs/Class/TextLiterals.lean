import Exemplar.Proofs.Class.IntegerLiterals
import Exemplar.Proofs.Generate.Documents
import Exemplar.Proofs.Json.Quoting
import Exemplar.Proofs.Json.Writing

/-!
# Literals that are JSON

In both languages nulls, strings, truth values and integers are written as in JSON where they stand
for text or for anything.  The main statement: such a literal is one token that a document cannot
break out of, and as a document it is read as the value that it was written for.
-/

namespace Exemplar

open Struct (quotesEscaped)

/-! ## Closed texts -/

namespace Json

private theorem isClosed_words :
    IsClosed "null".toList ∧ IsClosed "true".toList ∧ IsClosed "false".toList := by
  refine ⟨isClosed_of_plain ?_, isClosed_of_plain ?_, isClosed_of_plain ?_⟩ <;> simp

private theorem isClosed_intDecimal (n : Int) : IsClosed (Text.intDecimal n) := by
  refine isClosed_of_plain fun c hc => ?_
  rcases Refinement.mem_intDecimal hc with rfl | hdigit
  · decide
  · obtain ⟨hlt, hchar⟩ := Text.digitChar_digitValue hdigit
    have hdigits : ∀ d < 10, 0x20 ≤ (Nat.digitChar d).toNat ∧ Nat.digitChar d ≠ '\\' ∧
        Nat.digitChar d ≠ '"' := by decide
    exact hchar ▸ hdigits _ hlt

end Json

/-! ## Literals -/

namespace Class

/-- Whether a value is one of those that are written as in JSON as a scalar of a kind: null and
strings where the kind is textual, and truth values and integers too where it is any. -/
def WrittenAsJson : ScalarKind → Json.Value → Prop
  | .string, v | .timestamp, v | .ipAddress, v => v = .null ∨ ∃ s, v = .string s
  | .any, v => v = .null ∨ (∃ s, v = .string s) ∨ (∃ b, v = .bool b) ∨
      ∃ n range, v = .number (.integer n range)
  | .int64, _ | .float64, _ | .bool, _ => False

private theorem WrittenAsJson.cases {kind : ScalarKind} {v : Json.Value}
    (h : WrittenAsJson kind v) :
    (v = .null ∨ (∃ s, v = .string s) ∨ (∃ b, v = .bool b) ∨
      ∃ n range, v = .number (.integer n range)) ∧
    ∀ d quoted, literal? d quoted kind v = some v.compact := by
  match kind with
  | .string | .timestamp | .ipAddress =>
    rcases h with rfl | ⟨s, rfl⟩
    · exact ⟨.inl rfl, fun _ _ => rfl⟩
    · exact ⟨.inr (.inl ⟨s, rfl⟩), fun _ _ => rfl⟩
  | .any =>
    refine ⟨h, fun d quoted => ?_⟩
    rcases h with rfl | ⟨s, rfl⟩ | ⟨b, rfl⟩ | ⟨n, range, rfl⟩
    · rfl
    · rfl
    · cases b <;> rfl
    · rfl
  | .int64 | .float64 | .bool => exact h.elim

/-- Where a kind is textual or any, null, strings, and for any truth values and integers too have a
literal in both languages.  It has no controls and no quote in it that is not escaped, and as a
document it denotes the value, and is parsed as it. -/
theorem literal_denotes (d : Dialect) {kind : ScalarKind} {v : Json.Value}
    (h : WrittenAsJson kind v) (key : String) (quoted : Bool) :
    ∃ text, literal d kind v key quoted = .ok text ∧ (∀ c ∈ text.toList, 0x20 ≤ c.toNat) ∧
      quotesEscaped text.toList.tail.dropLast = true ∧
      Json.Denotes (Text.Utf8.encode text.toList) v ∧
      parseDocument (Text.Utf8.encode text.toList) = .ok v := by
  obtain ⟨hvalue, hliteral⟩ := h.cases
  have hscalar : v.WellFormed ∧ v.WithoutDoubles ∧ v.depth ≤ Json.maxDepth := by
    rcases hvalue with rfl | ⟨s, rfl⟩ | ⟨b, rfl⟩ | ⟨n, range, rfl⟩ <;>
      exact ⟨trivial, trivial, Nat.zero_le _⟩
  have hclosed : Json.IsClosed (Json.write .compact 0 v) := by
    rcases hvalue with rfl | ⟨s, rfl⟩ | ⟨b, rfl⟩ | ⟨n, range, rfl⟩
    · exact Json.isClosed_words.1
    · exact Json.isClosed_quote s
    · cases b with
      | true => exact Json.isClosed_words.2.1
      | false => exact Json.isClosed_words.2.2
    · exact Json.isClosed_intDecimal n
  obtain ⟨hwellFormed, hplain, hdepth⟩ := hscalar
  have htext := Json.valueText_write Json.Spacing.blank_compact hwellFormed hplain 0 hdepth
  refine ⟨v.compact, by rw [literal, hliteral], ?_⟩
  rw [Json.Value.compact, String.toList_ofList]
  refine ⟨hclosed.controls, hclosed.quotes, ?denotes, ?parsed⟩
  case denotes =>
    exact ⟨[], _, [], Json.maxDepth, (List.append_nil _).symm, Json.AllSpace.nil, htext,
      Json.AllSpace.nil⟩
  case parsed => exact parseDocument_eq_ok_iff.mpr (Json.read_of_valueText htext)

/-- A string with a quote, a backslash, a control and a character beyond 16 bits. -/
theorem literal_denotes_string :
    ∃ text, literal .typescript .timestamp (.string "\"\\\x01😀") "k" false = .ok text ∧
      parseDocument (Text.Utf8.encode text.toList) = .ok (.string "\"\\\x01😀") := by
  have hwritten : WrittenAsJson .timestamp (.string "\"\\\x01😀") := .inr ⟨_, rfl⟩
  obtain ⟨text, htext, -, -, -, hparse⟩ := literal_denotes .typescript hwritten "k" false
  exact ⟨text, htext, hparse⟩

end Class

end Exemplar
