import Exemplar.Json.Writer
import Exemplar.Proofs.Struct.Literal

/-!
# Quoted strings

What stands between the quotes of a string that is written.  The main statement: a quoted string
has no controls, and between its quotes no quote is left alone.
-/

namespace Exemplar.Json

open Struct (quotesEscaped)

/-! ## Escapes -/

/-- A character is escaped by a backslash and a character that is no control, or by its code point,
or is no control, quote or backslash and stands for itself. -/
theorem escapeChar_cases (c : Char) :
    (∃ d, 0x20 ≤ d.toNat ∧ escapeChar c = ['\\', d]) ∨
      escapeChar c = '\\' :: 'u' :: Text.hex4 c.toNat ∨
      (c ≠ '\\' ∧ c ≠ '"' ∧ 0x20 ≤ c.toNat ∧ escapeChar c = [c]) := by
  rw [escapeChar]
  iterate 7
    split
    · exact .inl ⟨_, by decide, rfl⟩
  split
  · exact .inr (.inl rfl)
  · next hquote hbackslash _ _ _ _ _ hcontrol =>
    exact .inr (.inr ⟨hbackslash, hquote, Nat.le_of_not_lt hcontrol, rfl⟩)

private theorem le_toNat_of_mem_escapeChar {c d : Char} (h : d ∈ escapeChar c) :
    0x20 ≤ d.toNat := by
  rcases escapeChar_cases c with ⟨e, he, heq⟩ | heq | ⟨-, -, hc, heq⟩ <;> rw [heq] at h
  · rcases List.mem_cons.mp h with rfl | h
    · decide
    · exact List.mem_singleton.mp h ▸ he
  · rcases List.mem_cons.mp h with rfl | h
    · decide
    · rcases List.mem_cons.mp h with rfl | h
      · decide
      · exact (Text.plain_of_mem_hex4 h).1
  · exact List.mem_singleton.mp h ▸ hc

private theorem quotesEscaped_escapeChar_append (c : Char) (rest : List Char) :
    quotesEscaped (escapeChar c ++ rest) = quotesEscaped rest := by
  rcases escapeChar_cases c with ⟨d, -, heq⟩ | heq | ⟨hbackslash, hquote, -, heq⟩ <;> rw [heq]
  · exact Struct.quotesEscaped_backslash d rest
  · exact Struct.quotesEscaped_hex4 c.toNat rest
  · refine Struct.quotesEscaped_append (fun d hd => ?_) rest
    exact List.mem_singleton.mp hd ▸ ⟨hbackslash, hquote⟩

/-! ## Closed texts -/

/-- Whether a text has no controls, and no quote in it, the first and the last character apart, is
left alone. -/
structure IsClosed (text : List Char) : Prop where
  controls : ∀ c ∈ text, 0x20 ≤ c.toNat
  quotes : quotesEscaped text.tail.dropLast = true

/-- A quoted string is closed. -/
theorem isClosed_quote (s : String) : IsClosed (quote s) where
  controls c hc := by
    rcases List.mem_cons.mp hc with rfl | hc
    · decide
    · rcases List.mem_append.mp hc with hc | hc
      · obtain ⟨d, -, hd⟩ := List.mem_flatMap.mp hc
        exact le_toNat_of_mem_escapeChar hd
      · rw [List.mem_singleton.mp hc]
        decide
  quotes := by
    have hescaped := Struct.quotesEscaped_flatMap quotesEscaped_escapeChar_append s.toList []
    rw [List.append_nil] at hescaped
    rw [quote, List.tail_cons, List.dropLast_concat, hescaped]
    rfl

/-- A text without controls, quotes and backslashes is closed. -/
theorem isClosed_of_plain {text : List Char}
    (h : ∀ c ∈ text, 0x20 ≤ c.toNat ∧ c ≠ '\\' ∧ c ≠ '"') : IsClosed text where
  controls c hc := (h c hc).1
  quotes := by
    have hinner : ∀ c ∈ text.tail.dropLast, c ≠ '\\' ∧ c ≠ '"' := fun c hc =>
      (h c (List.mem_of_mem_tail (List.dropLast_subset _ hc))).2
    have hescaped := Struct.quotesEscaped_append hinner []
    rwa [List.append_nil] at hescaped

end Exemplar.Json
