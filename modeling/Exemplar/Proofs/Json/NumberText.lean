import Exemplar.Json.Value

/-!
# The text of numbers

A number is written with digits, a point, signs and the letter of an exponent alone, so its text
neither ends a line nor quotes anything.
-/

namespace Exemplar

/-- Whether a character can stand in the text of a number. -/
def isNumeralChar (c : Char) : Bool :=
  c.isDigit || c == '.' || c == '-' || c == '+' || c == 'e'

namespace Text

/-- Decimal digits can stand in the text of a number. -/
theorem isNumeralChar_of_mem_decimal {n : Nat} {c : Char} (h : c ∈ decimal n) :
    isNumeralChar c := by
  have hdigit := Nat.isDigit_of_mem_toDigits (by decide) (by decide) h
  rw [isNumeralChar, hdigit]
  rfl

/-- A signed decimal can stand in the text of a number. -/
theorem isNumeralChar_of_mem_intDecimal {n : Int} {c : Char} (h : c ∈ intDecimal n) :
    isNumeralChar c := by
  rw [intDecimal] at h
  split at h
  · rcases List.mem_cons.mp h with rfl | h
    · decide
    · exact isNumeralChar_of_mem_decimal h
  · exact isNumeralChar_of_mem_decimal h

end Text

namespace NumberStyle

private theorem isNumeralChar_of_mem_zeros {n : Nat} {c : Char} (h : c ∈ List.replicate n '0') :
    isNumeralChar c := by
  rw [List.eq_of_mem_replicate h]
  decide

private theorem isNumeralChar_of_mem_positional {d : Decimal} {c : Char} (h : c ∈ positional d) :
    isNumeralChar c := by
  simp only [positional] at h
  split at h
  · rcases List.mem_append.mp h with h | h
    · rcases List.mem_append.mp h with h | h
      · exact Text.isNumeralChar_of_mem_decimal h
      · exact isNumeralChar_of_mem_zeros h
    · rcases List.mem_cons.mp h with rfl | h
      · decide
      · rw [List.mem_singleton.mp h]
        decide
  · split at h
    · rcases List.mem_append.mp h with h | h
      · exact Text.isNumeralChar_of_mem_decimal (List.mem_of_mem_take h)
      · rcases List.mem_cons.mp h with rfl | h
        · decide
        · exact Text.isNumeralChar_of_mem_decimal (List.mem_of_mem_drop h)
    · rcases List.mem_cons.mp h with rfl | h
      · decide
      · rcases List.mem_cons.mp h with rfl | h
        · decide
        · rcases List.mem_append.mp h with h | h
          · exact isNumeralChar_of_mem_zeros h
          · exact Text.isNumeralChar_of_mem_decimal h

private theorem isNumeralChar_of_mem_scientific {style : NumberStyle} {d : Decimal} {c : Char}
    (h : c ∈ style.scientific d) : isNumeralChar c := by
  have hdigits : ∀ c ∈ Text.decimal d.coefficient, isNumeralChar c :=
    fun _ => Text.isNumeralChar_of_mem_decimal
  simp only [scientific] at h
  rcases List.mem_append.mp h with h | h
  · split at h
    · next first second more hdecimal =>
      rw [hdecimal] at hdigits
      rcases List.mem_cons.mp h with rfl | h
      · exact hdigits _ List.mem_cons_self
      · rcases List.mem_cons.mp h with rfl | h
        · decide
        · exact hdigits c (List.mem_cons_of_mem first h)
    · exact hdigits c h
  · rcases List.mem_cons.mp h with rfl | h
    · decide
    · rcases List.mem_append.mp h with h | h
      · split at h
        · rw [List.mem_singleton.mp h]
          decide
        · cases h
      · exact Text.isNumeralChar_of_mem_intDecimal h

private theorem render_cases (style : NumberStyle) (x : Binary64) :
    ∃ cs, (cs = ['0', '.', '0'] ∨ cs = positional (x.shortest style.tie) ∨
        cs = style.scientific (x.shortest style.tie)) ∧
      (style.render x = cs ∨ style.render x = '-' :: cs) := by
  unfold render
  extract_lets d power magnitude
  refine ⟨magnitude, ?_, ?_⟩
  · simp only [magnitude, d]
    split
    · exact .inl rfl
    · split
      · exact .inr (.inl rfl)
      · exact .inr (.inr rfl)
  · split
    · exact .inr rfl
    · exact .inl rfl

/-- The text of a double is made of the characters of numbers. -/
theorem isNumeralChar_of_mem_render {style : NumberStyle} {x : Binary64} {c : Char}
    (h : c ∈ style.render x) : isNumeralChar c := by
  obtain ⟨cs, hcs, hrender⟩ := style.render_cases x
  have hmagnitude : ∀ c ∈ cs, isNumeralChar c := by
    rcases hcs with rfl | rfl | rfl
    · exact List.all_eq_true.mp rfl
    · exact fun _ => isNumeralChar_of_mem_positional
    · exact fun _ => isNumeralChar_of_mem_scientific
  rcases hrender with hrender | hrender <;> rw [hrender] at h
  · exact hmagnitude c h
  · rcases List.mem_cons.mp h with rfl | h
    · decide
    · exact hmagnitude c h

private theorem point_mem_positional (d : Decimal) : '.' ∈ positional d := by
  simp only [positional]
  split
  · exact List.mem_append_right _ List.mem_cons_self
  · split
    · exact List.mem_append_right _ List.mem_cons_self
    · exact List.mem_cons_of_mem _ List.mem_cons_self

private theorem letter_mem_scientific (style : NumberStyle) (d : Decimal) :
    'e' ∈ style.scientific d := by
  simp only [scientific]
  exact List.mem_append_right _ List.mem_cons_self

/-- The text of a double has a point or the letter of an exponent. -/
theorem exists_mark_of_render (style : NumberStyle) (x : Binary64) :
    '.' ∈ style.render x ∨ 'e' ∈ style.render x := by
  obtain ⟨cs, hcs, hrender⟩ := style.render_cases x
  have hmagnitude : '.' ∈ cs ∨ 'e' ∈ cs := by
    rcases hcs with rfl | rfl | rfl
    · decide
    · exact .inl (point_mem_positional _)
    · exact .inr (style.letter_mem_scientific _)
  rcases hrender with hrender | hrender <;> rw [hrender]
  · exact hmagnitude
  · exact hmagnitude.imp (List.mem_cons_of_mem _) (List.mem_cons_of_mem _)

end NumberStyle

/-- The text of a number is made of the characters of numbers. -/
theorem Json.Number.isNumeralChar_of_mem_render {n : Json.Number} {c : Char} (h : c ∈ n.render) :
    isNumeralChar c := by
  cases n with
  | integer n range => exact Text.isNumeralChar_of_mem_intDecimal h
  | double x => exact NumberStyle.isNumeralChar_of_mem_render h

end Exemplar
