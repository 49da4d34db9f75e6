import Exemplar.Proofs.Struct.Tag

/-!
# Reading string literals

What a string literal of Go stands for: a raw one for the text between its backticks, an
interpreted one for its body with the escapes undone.  The main statement: a tag is one literal on
one line, its value is `json:"…"`, and between those quotes stand the key and the option of the
field once more escapes are undone.
-/

namespace Exemplar.Struct

/-! ## Escapes -/

/-- The character that a backslash and one more character stand for. -/
def shortEscape? (c : Char) : Option Char :=
  if c = '\\' then some '\\'
  else if c = '"' then some '"'
  else if c = 'n' then some '\n'
  else if c = 'r' then some '\r'
  else if c = 't' then some '\t'
  else none

/-- The character whose code point is given in hexadecimal; surrogates are none. -/
def codePoint? (digits : List Char) : Option Char := do
  let n ← digits.foldlM (fun n d => (Text.hexValue? d).map (16 * n + ·)) 0
  if n.isValidChar then some (Char.ofNat n) else none

/-- The text that the body of an interpreted literal stands for.  A quote or a line feed may not
stand in it as such, and a backslash begins one of the escapes `\\`, `\"`, `\n`, `\r`, `\t` or
`\uXXXX`. -/
def unescape? : List Char → Option (List Char)
  | [] => some []
  | c :: cs =>
    if c = '\\' then
      match cs with
      | [] => none
      | d :: ds =>
        if d = 'u' then
          match ds with
          | h₁ :: h₂ :: h₃ :: h₄ :: rest =>
            (codePoint? [h₁, h₂, h₃, h₄]).bind fun e => (unescape? rest).map (e :: ·)
          | _ => none
        else (shortEscape? d).bind fun e => (unescape? ds).map (e :: ·)
    else if c = '"' ∨ c = '\n' then none
    else (unescape? cs).map (c :: ·)
termination_by structural cs => cs

/-- Whether every quote stands behind a backslash, and every backslash before the character that
it escapes. -/
def quotesEscaped : List Char → Bool
  | [] => true
  | c :: cs =>
    if c = '\\' then
      match cs with
      | [] => false
      | _ :: ds => quotesEscaped ds
    else c != '"' && quotesEscaped cs

/-- The value of a text that is one string literal.  Carriage returns do not count in a raw
literal. -/
def literalValue? : List Char → Option (List Char)
  | [] => none
  | delimiter :: cs =>
    let body := cs.dropLast
    if cs.getLast? ≠ some delimiter then none
    else if delimiter = tick then if tick ∈ body then none else some (body.filter (· ≠ '\r'))
    else if delimiter = '"' then unescape? body
    else none

/-- Whether a text is a raw literal without backticks and carriage returns in it. -/
def IsRawLiteral (text : List Char) : Prop :=
  ∃ body, text = tick :: (body ++ [tick]) ∧ tick ∉ body ∧ '\r' ∉ body

/-- Whether a text is an interpreted literal with all quotes and backslashes in it escaped. -/
def IsInterpretedLiteral (text : List Char) : Prop :=
  ∃ body, text = '"' :: (body ++ ['"']) ∧ quotesEscaped body = true ∧ (unescape? body).isSome

/-! ## Undoing escapes -/

private theorem codePoint?_hex4 {c : Char} (h : c.toNat < 65536) :
    codePoint? (Text.hex4 c.toNat) = some c := by
  have hdigit : ∀ d < 16, Text.hexValue? (Nat.digitChar d) = some d := by decide
  have hvalue : (Text.hex4 c.toNat).foldlM
      (fun n d => (Text.hexValue? d).map (16 * n + ·)) 0 = some c.toNat := by
    rw [Text.hex4]
    simp only [List.map_cons, List.map_nil, List.foldlM_cons, List.foldlM_nil,
      hdigit _ (Nat.mod_lt _ (by decide : 0 < 16)), Option.map_some, Option.bind_eq_bind,
      Option.bind_some, Option.pure_def, Option.some.injEq]
    omega
  have hvalid : c.toNat.isValidChar := c.valid
  rw [codePoint?, hvalue]
  simp only [Option.bind_eq_bind, Option.bind_some, if_pos hvalid, Char.ofNat_toNat]

private theorem unescape?_short {d e : Char} (h : shortEscape? d = some e) (rest : List Char) :
    unescape? ('\\' :: d :: rest) = (unescape? rest).map (e :: ·) := by
  have hne : d ≠ 'u' := by
    rintro rfl
    cases h
  rw [unescape?.eq_def]
  simp only [if_pos, if_neg hne, h, Option.bind_some]

private theorem unescape?_code (h₁ h₂ h₃ h₄ : Char) (rest : List Char) :
    unescape? ('\\' :: 'u' :: h₁ :: h₂ :: h₃ :: h₄ :: rest) =
      (codePoint? [h₁, h₂, h₃, h₄]).bind fun e => (unescape? rest).map (e :: ·) := by
  rw [unescape?.eq_def]
  simp only [if_pos]

private theorem unescape?_plain {c : Char} (hbackslash : c ≠ '\\') (hquote : c ≠ '"')
    (hfeed : c ≠ '\n')
    (rest : List Char) : unescape? (c :: rest) = (unescape? rest).map (c :: ·) := by
  rw [unescape?.eq_def]
  simp only [if_neg hbackslash, hquote, hfeed, or_self, if_false]

private theorem unescape?_escapeChar_append (c : Char) (rest : List Char) :
    unescape? (escapeChar c ++ rest) = (unescape? rest).map (c :: ·) := by
  by_cases hshort : c ∈ shortEscaped
  · simp only [shortEscaped, List.mem_cons, List.not_mem_nil, or_false] at hshort
    rcases hshort with rfl | rfl | rfl | rfl | rfl <;> exact unescape?_short rfl rest
  · rcases escapeChar_cases c with ⟨h, -⟩ | ⟨hcontrol, heq⟩ | ⟨-, -, heq⟩
    · exact absurd h hshort
    · have hcode : c.toNat < 65536 := by
        simp only [Text.isControl, Bool.or_eq_true, Bool.and_eq_true, decide_eq_true_eq] at hcontrol
        omega
      have hread := codePoint?_hex4 hcode
      rw [heq]
      unfold Text.hex4 at hread ⊢
      rw [List.map_cons, List.map_cons, List.map_cons, List.map_cons, List.map_nil] at hread
      exact (unescape?_code _ _ _ _ rest).trans (by rw [hread, Option.bind_some])
    · simp only [shortEscaped, List.mem_cons, List.not_mem_nil, or_false, not_or] at hshort
      obtain ⟨hbackslash, hquote, hfeed, -⟩ := hshort
      rw [heq]
      exact unescape?_plain hbackslash hquote hfeed rest

private theorem unescape?_escape_append (cs rest : List Char) :
    unescape? (escape cs ++ rest) = (unescape? rest).map (cs ++ ·) := by
  induction cs with
  | nil =>
    change unescape? rest = (unescape? rest).map id
    rw [Option.map_id_fun, id]
  | cons c cs ih =>
    rw [escape, List.flatMap_cons, ← escape, List.append_assoc, unescape?_escapeChar_append, ih,
      Option.map_map]
    rfl

/-- The body of an interpreted literal is read back. -/
theorem unescape?_escape (cs : List Char) : unescape? (escape cs) = some cs := by
  have h := unescape?_escape_append cs []
  rwa [List.append_nil, unescape?, Option.map_some, List.append_nil] at h

/-! ## Escaped quotes -/

/-- Text without quotes and backslashes does not matter. -/
theorem quotesEscaped_append {xs : List Char} (h : ∀ c ∈ xs, c ≠ '\\' ∧ c ≠ '"')
    (ys : List Char) : quotesEscaped (xs ++ ys) = quotesEscaped ys := by
  induction xs with
  | nil => rfl
  | cons c xs ih =>
    obtain ⟨hbackslash, hquote⟩ := h c List.mem_cons_self
    rw [List.cons_append, quotesEscaped.eq_def]
    simp only [if_neg hbackslash, bne_iff_ne.mpr hquote, Bool.true_and]
    exact ih fun d hd => h d (List.mem_cons_of_mem c hd)

/-- A backslash takes the character behind it along. -/
theorem quotesEscaped_backslash (d : Char) (rest : List Char) :
    quotesEscaped ('\\' :: d :: rest) = quotesEscaped rest := by
  rw [quotesEscaped.eq_def]
  simp only [if_pos]

/-- The escape of a code point leaves no quote alone. -/
theorem quotesEscaped_hex4 (n : Nat) (rest : List Char) :
    quotesEscaped ('\\' :: 'u' :: Text.hex4 n ++ rest) = quotesEscaped rest := by
  rw [List.cons_append, List.cons_append, quotesEscaped_backslash]
  exact quotesEscaped_append (fun _ hd => (Text.plain_of_mem_hex4 hd).2) rest

/-- Characters that are each written without a quote left alone make a text without one. -/
theorem quotesEscaped_flatMap {f : Char → List Char}
    (h : ∀ c rest, quotesEscaped (f c ++ rest) = quotesEscaped rest) (cs rest : List Char) :
    quotesEscaped (cs.flatMap f ++ rest) = quotesEscaped rest := by
  induction cs with
  | nil => rfl
  | cons c cs ih => rw [List.flatMap_cons, List.append_assoc, h, ih]

private theorem quotesEscaped_escapeChar_append (c : Char) (rest : List Char) :
    quotesEscaped (escapeChar c ++ rest) = quotesEscaped rest := by
  rcases escapeChar_cases c with ⟨-, d, -, heq⟩ | ⟨-, heq⟩ | ⟨hshort, -, heq⟩
  · rw [heq]
    exact quotesEscaped_backslash d rest
  · rw [heq]
    exact quotesEscaped_hex4 c.toNat rest
  · rw [heq]
    refine quotesEscaped_append (fun d hd => ?_) rest
    obtain rfl := List.mem_singleton.mp hd
    simp only [shortEscaped, List.mem_cons, not_or] at hshort
    exact ⟨hshort.1, hshort.2.1⟩

private theorem quotesEscaped_escape_append (cs rest : List Char) :
    quotesEscaped (escape cs ++ rest) = quotesEscaped rest :=
  quotesEscaped_flatMap quotesEscaped_escapeChar_append cs rest

/-! ## Values -/

private theorem literalValue?_raw {body : List Char} (htick : tick ∉ body) (hreturn : '\r' ∉ body) :
    literalValue? (tick :: (body ++ [tick])) = some body := by
  have hbody : body.filter (· ≠ '\r') = body := by
    refine List.filter_eq_self.mpr fun c hc => decide_eq_true ?_
    rintro rfl
    exact hreturn hc
  simp only [literalValue?, List.getLast?_concat, List.dropLast_concat, ne_eq, not_true_eq_false,
    if_false, if_pos, htick]
  exact congrArg some hbody

/-- An interpreted literal stands for its body with the escapes undone. -/
theorem literalValue?_interpreted (body : List Char) :
    literalValue? ('"' :: (body ++ ['"'])) = unescape? body := by
  have hquote : '"' ≠ tick := by decide
  simp only [literalValue?, List.getLast?_concat, List.dropLast_concat, ne_eq, not_true_eq_false,
    if_false, if_pos, hquote]

/-! ## Tags -/

private theorem escape_quotedOption (quoted : Bool) :
    escape (quotedOption quoted) = quotedOption quoted := by
  cases quoted <;> decide

/-- The value of a tag is `json:` and an interpreted literal for the key and the option. -/
theorem tagValue_eq (key : List Char) (quoted : Bool) :
    tagValue key quoted =
      ['j', 's', 'o', 'n', ':'] ++ '"' :: (escape (key ++ quotedOption quoted) ++ ['"']) := by
  rw [escape, List.flatMap_append, ← escape, ← escape, escape_quotedOption, tagValue]
  simp only [List.append_assoc, List.cons_append, List.nil_append]

private theorem tick_notMem_tagValue {key : List Char} (h : tick ∉ key) (quoted : Bool) :
    tick ∉ tagValue key quoted :=
  fun htick => h ((tick_mem_tagValue_iff key quoted).mp htick)

private theorem return_notMem_tagValue (key : List Char) (quoted : Bool) :
    '\r' ∉ tagValue key quoted :=
  fun h => absurd (not_isControl_of_mem_tagValue h) (by decide)

/-- The literal of a tag stands for its value. -/
theorem literalValue?_tag (key : List Char) (quoted : Bool) :
    literalValue? (tag key quoted) = some (tagValue key quoted) := by
  by_cases hkey : tick ∈ key
  · rw [tag_eq_interpreted hkey, literalValue?_interpreted, unescape?_escape]
  · rw [tag_eq_raw hkey]
    exact literalValue?_raw (tick_notMem_tagValue hkey quoted) (return_notMem_tagValue key quoted)

/-- The tag for a key is one literal on one line, interpreted if the key has a backtick and raw if
not.  Its value is `json:` with a text in quotes behind it, of which no quote is left alone, and
undoing the escapes of that text gives the key, with `,string` behind it for a quoted field. -/
theorem tag_unquotes (key : String) (quoted : Bool) :
    '\n' ∉ tag key.toList quoted ∧
      (tick ∈ key.toList → IsInterpretedLiteral (tag key.toList quoted)) ∧
      (tick ∉ key.toList → IsRawLiteral (tag key.toList quoted)) ∧
      ∃ text, literalValue? (tag key.toList quoted) =
          some ("json:\"".toList ++ text ++ ['"']) ∧
        quotesEscaped text = true ∧
        unescape? text = some (key.toList ++ if quoted then ",string".toList else []) := by
  have hoption : quotedOption quoted = if quoted then ",string".toList else [] := by
    cases quoted <;> rfl
  have hescaped : ∀ cs, quotesEscaped (escape cs) = true := by
    intro cs
    have h := quotesEscaped_escape_append cs []
    rwa [List.append_nil] at h
  refine ⟨lineFeed_notMem_tag _ _, fun hkey => ?interpreted, fun hkey => ?raw,
    escape (key.toList ++ quotedOption quoted), ?value, hescaped _, ?text⟩
  case interpreted =>
    refine ⟨_, tag_eq_interpreted hkey quoted, hescaped _, ?_⟩
    rw [unescape?_escape]
    rfl
  case raw =>
    exact ⟨_, tag_eq_raw hkey quoted, tick_notMem_tagValue hkey quoted,
      return_notMem_tagValue _ quoted⟩
  case value =>
    rw [literalValue?_tag, tagValue_eq]
    rfl
  case text => rw [unescape?_escape, hoption]

end Exemplar.Struct
