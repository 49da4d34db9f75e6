import Exemplar.Proofs.Text.Digits
import Exemplar.Struct.Tag

/-!
# The characters of tags

A tag is one literal on one line, without any control character.  It is raw exactly if its key
holds no backtick, and then the only backticks in it are those around it.
-/

namespace Exemplar.Struct

/-! ## Escapes -/

/-- The characters that an escape of two characters stands for. -/
def shortEscaped : List Char :=
  ['\\', '"', '\n', '\r', '\t']

/-- A character is escaped by a backslash and one more character, by its code point in hexadecimal,
or not at all. -/
theorem escapeChar_cases (c : Char) :
    (c ∈ shortEscaped ∧ ∃ d ∈ ['\\', '"', 'n', 'r', 't'], escapeChar c = ['\\', d]) ∨
      (Text.isControl c ∧ escapeChar c = '\\' :: 'u' :: Text.hex4 c.toNat) ∨
      (c ∉ shortEscaped ∧ Text.isControl c = false ∧ escapeChar c = [c]) := by
  by_cases hshort : c ∈ shortEscaped
  · refine .inl ⟨hshort, ?_⟩
    simp only [shortEscaped, List.mem_cons, List.not_mem_nil, or_false] at hshort
    rcases hshort with rfl | rfl | rfl | rfl | rfl <;> exact ⟨_, by decide, rfl⟩
  · right
    have hne := hshort
    simp only [shortEscaped, List.mem_cons, List.not_mem_nil, or_false, not_or] at hne
    obtain ⟨hbackslash, hquote, hfeed, hreturn, htab⟩ := hne
    rw [escapeChar, if_neg hbackslash, if_neg hquote, if_neg hfeed, if_neg hreturn, if_neg htab]
    split
    · next hcontrol => exact .inl ⟨hcontrol, rfl⟩
    · next hcontrol => exact .inr ⟨hshort, eq_false_of_ne_true hcontrol, rfl⟩

private theorem not_isControl_of_all {cs : List Char}
    (h : (cs.all fun c => !Text.isControl c) = true) :
    ∀ c ∈ cs, Text.isControl c = false := by
  simpa [List.all_eq_true] using h

private theorem not_isControl_of_mem_escapeChar {c d : Char} (h : d ∈ escapeChar c) :
    Text.isControl d = false := by
  have hletters : ∀ e ∈ ['\\', '"', 'n', 'r', 't', 'u'], Text.isControl e = false :=
    not_isControl_of_all rfl
  have hdigits : ∀ n < 16, Text.isControl (Nat.digitChar n) = false := by decide
  rcases escapeChar_cases c with ⟨-, e, he, heq⟩ | ⟨-, heq⟩ | ⟨-, hcontrol, heq⟩
  · rw [heq, List.mem_cons, List.mem_singleton] at h
    rcases h with rfl | rfl
    · exact hletters '\\' (by decide)
    · exact hletters d (List.mem_append_left ['u'] he)
  · rw [heq, List.mem_cons, List.mem_cons] at h
    rcases h with rfl | rfl | h
    · exact hletters '\\' (by decide)
    · exact hletters 'u' (by decide)
    · obtain ⟨n, hn, rfl⟩ := Text.exists_digit_of_mem_hex4 h
      exact hdigits n hn
  · rw [heq, List.mem_singleton] at h
    rwa [h]

private theorem tick_mem_escapeChar_iff (c : Char) : tick ∈ escapeChar c ↔ c = tick := by
  have hletters : ∀ d ∈ ['\\', '"', 'n', 'r', 't'], tick ∉ ['\\', d] := by
    intro d hd
    simp only [List.mem_cons, List.not_mem_nil, or_false] at hd
    rcases hd with rfl | rfl | rfl | rfl | rfl <;> decide
  have hdigits : ∀ d < 16, Nat.digitChar d ≠ tick := by decide
  rcases escapeChar_cases c with ⟨hshort, d, hd, heq⟩ | ⟨hcontrol, heq⟩ | ⟨-, -, heq⟩
  · rw [heq]
    refine iff_of_false (hletters d hd) ?_
    rintro rfl
    exact absurd hshort (by decide)
  · rw [heq]
    refine iff_of_false ?_ ?_
    · intro h
      simp only [List.mem_cons] at h
      obtain ⟨d, hd, hdigit⟩ := Text.exists_digit_of_mem_hex4
        ((h.resolve_left (by decide)).resolve_left (by decide))
      exact hdigits d hd hdigit
    · rintro rfl
      exact absurd hcontrol (by decide)
  · rw [heq, List.mem_singleton]
    exact eq_comm

private theorem not_isControl_of_mem_escape {cs : List Char} {d : Char} (h : d ∈ escape cs) :
    Text.isControl d = false := by
  rw [escape, List.mem_flatMap] at h
  obtain ⟨c, -, hd⟩ := h
  exact not_isControl_of_mem_escapeChar hd

/-- The body of an interpreted literal has the backticks of its value. -/
theorem tick_mem_escape_iff (cs : List Char) : tick ∈ escape cs ↔ tick ∈ cs := by
  rw [escape, List.mem_flatMap]
  constructor
  · rintro ⟨c, hc, htick⟩
    rwa [(tick_mem_escapeChar_iff c).mp htick] at hc
  · exact fun h => ⟨tick, h, (tick_mem_escapeChar_iff tick).mpr rfl⟩

/-! ## Tags -/

/-- The value of a tag has the backticks of its key. -/
theorem tick_mem_tagValue_iff (key : List Char) (quoted : Bool) :
    tick ∈ tagValue key quoted ↔ tick ∈ key := by
  have hoption : tick ∉ quotedOption quoted := by cases quoted <;> decide
  simp only [tagValue, List.mem_append, tick_mem_escape_iff]
  constructor
  · rintro (((h | h) | h) | h)
    · exact absurd h (by decide)
    · exact h
    · exact absurd h hoption
    · exact absurd h (by decide)
  · exact fun h => .inl (.inl (.inr h))

/-- The value of a tag has no control character. -/
theorem not_isControl_of_mem_tagValue {key : List Char} {quoted : Bool} {d : Char}
    (h : d ∈ tagValue key quoted) : Text.isControl d = false := by
  have hlabel : ∀ e ∈ ['j', 's', 'o', 'n', ':', '"'], Text.isControl e = false :=
    not_isControl_of_all rfl
  have hoption : ∀ e ∈ quotedOption quoted, Text.isControl e = false := by
    cases quoted <;> exact not_isControl_of_all rfl
  simp only [tagValue, List.mem_append] at h
  rcases h with ((h | h) | h) | h
  · exact hlabel d h
  · exact not_isControl_of_mem_escape h
  · exact hoption d h
  · rw [List.mem_singleton.mp h]
    exact hlabel '"' (by decide)

/-- The tag for a key without backticks is a raw literal. -/
theorem tag_eq_raw {key : List Char} (h : tick ∉ key) (quoted : Bool) :
    tag key quoted = tick :: (tagValue key quoted ++ [tick]) := by
  rw [← tick_mem_tagValue_iff key quoted, ← List.contains_iff_mem] at h
  rw [tag, literal, if_neg h]

/-- The tag for a key with a backtick is an interpreted literal. -/
theorem tag_eq_interpreted {key : List Char} (h : tick ∈ key) (quoted : Bool) :
    tag key quoted = '"' :: (escape (tagValue key quoted) ++ ['"']) := by
  rw [← tick_mem_tagValue_iff key quoted, ← List.contains_iff_mem] at h
  rw [tag, literal, if_pos h]

/-- A tag begins and ends with its delimiter, a quote or a backtick. -/
theorem exists_tag_eq (key : List Char) (quoted : Bool) :
    ∃ delimiter body, tag key quoted = delimiter :: (body ++ [delimiter]) ∧
      (delimiter = '"' ∨ delimiter = tick) := by
  by_cases h : tick ∈ key
  · exact ⟨'"', _, tag_eq_interpreted h quoted, .inl rfl⟩
  · exact ⟨tick, _, tag_eq_raw h quoted, .inr rfl⟩

/-- The delimiter of a tag is not blank. -/
theorem not_isBlank_delimiter {c : Char} (h : c = '"' ∨ c = tick) : Text.isBlank c = false := by
  rcases h with rfl | rfl <;> decide

/-- A tag has no control character. -/
theorem not_isControl_of_mem_tag {key : List Char} {quoted : Bool} {d : Char}
    (h : d ∈ tag key quoted) : Text.isControl d = false := by
  have hdelimiters : ∀ e ∈ ['"', tick], Text.isControl e = false := not_isControl_of_all rfl
  by_cases hkey : tick ∈ key
  · simp only [tag_eq_interpreted hkey, List.mem_cons, List.mem_append, List.not_mem_nil,
      or_false] at h
    rcases h with rfl | h | rfl
    · exact hdelimiters '"' (by decide)
    · exact not_isControl_of_mem_escape h
    · exact hdelimiters '"' (by decide)
  · simp only [tag_eq_raw hkey, List.mem_cons, List.mem_append, List.not_mem_nil, or_false] at h
    rcases h with rfl | h | rfl
    · exact hdelimiters tick (by decide)
    · exact not_isControl_of_mem_tagValue h
    · exact hdelimiters tick (by decide)

/-- A tag stands on one line. -/
theorem lineFeed_notMem_tag (key : List Char) (quoted : Bool) : '\n' ∉ tag key quoted :=
  fun h => absurd (not_isControl_of_mem_tag h) (by decide)

end Exemplar.Struct
