import Exemplar.Proofs.Json.SequenceReading
import Mathlib.Data.List.DropRight

/-!
# Reading values

The reader of values against the grammar.  The main statement: a value is read off bytes exactly
when they begin, behind blanks, with a text of that value which the next byte does not make longer.
Whatever follows the text is left unread, so a document that is read denotes the value only if
blanks alone follow.
-/

namespace Exemplar.Json

/-! ## How values are written -/

@[simp] private theorem word_null :
    word "null" = 'n'.toUInt8 :: ['u', 'l', 'l'].map Char.toUInt8 := by
  decide

@[simp] private theorem word_true :
    word "true" = 't'.toUInt8 :: ['r', 'u', 'e'].map Char.toUInt8 := by
  decide

@[simp] private theorem word_false :
    word "false" = 'f'.toUInt8 :: ['a', 'l', 's', 'e'].map Char.toUInt8 := by
  decide

section ValueText

variable {depth : Nat} {text : List UInt8}

@[simp] theorem valueText_null : ValueText depth text .null ↔ text = word "null" := by
  cases depth <;> rfl

@[simp] theorem valueText_bool {b : Bool} :
    ValueText depth text (.bool b) ↔ text = word (if b then "true" else "false") := by
  cases depth <;> rfl

@[simp] theorem valueText_number {n : Number} : ValueText depth text (.number n) ↔
    ∃ numeral : Numeral, numeral.Valid ∧ numeral.value? = some n ∧ text = numeral.text := by
  cases depth <;> rfl

@[simp] theorem valueText_string {s : String} :
    ValueText depth text (.string s) ↔ StringText text s := by
  cases depth <;> rfl

@[simp] theorem valueText_array {vs : List Value} : ValueText depth text (.array vs) ↔
    ∃ inner body, depth = inner + 1 ∧ text = '['.toUInt8 :: body ∧
      SequenceText (ValueText inner) ']'.toUInt8 true body vs := by
  cases depth with
  | zero => simp [ValueText]
  | succ inner => simp [ValueText]

@[simp] theorem valueText_object {ms : List (String × Value)} :
    ValueText depth text (.object ms) ↔
      ∃ inner body written, depth = inner + 1 ∧ text = '\x7b'.toUInt8 :: body ∧
        SequenceText (MemberText (ValueText inner)) '\x7d'.toUInt8 true body written ∧
          ms = ofWritten written := by
  cases depth with
  | zero => simp [ValueText]
  | succ inner => simp [ValueText]

end ValueText

private theorem ne_of_isDigitByte {b c : UInt8} (hb : isDigitByte b = true)
    (hc : isDigitByte c = false) :
    b ≠ c := by
  rintro rfl
  rw [hb] at hc
  cases hc

private theorem eq_of_isSpace {b : UInt8} (h : isSpace b = true) :
    b = 0x20 ∨ b = 0x0A ∨ b = 0x0D ∨ b = 0x09 := by
  simpa [isSpace, or_assoc] using h

private theorem isSpace_of_isDigitByte {b : UInt8} (h : isDigitByte b = true) :
    isSpace b = false := by
  refine eq_false_of_ne_true fun hspace => ?_
  rcases eq_of_isSpace hspace with rfl | rfl | rfl | rfl <;> cases h

private theorem not_numeral_of_isDelimiter {b : UInt8}
    (h : IsDelimiter ']'.toUInt8 b ∨ IsDelimiter '\x7d'.toUInt8 b) :
    isDigitByte b = false ∧ ¬ (b = 'e'.toUInt8 ∨ b = 'E'.toUInt8) ∧ b ≠ '.'.toUInt8 := by
  have hblank (hb : isSpace b = true) :
      isDigitByte b = false ∧ ¬ (b = 'e'.toUInt8 ∨ b = 'E'.toUInt8) ∧ b ≠ '.'.toUInt8 := by
    rcases eq_of_isSpace hb with rfl | rfl | rfl | rfl <;> decide
  rcases h with (hb | rfl | rfl) | (hb | rfl | rfl)
  · exact hblank hb
  · decide
  · decide
  · exact hblank hb
  · decide
  · decide

private theorem endsBefore_of_isDelimiter (m : Numeral) {rest : List UInt8}
    (h : ∀ b ∈ rest.head?, IsDelimiter ']'.toUInt8 b ∨ IsDelimiter '\x7d'.toUInt8 b) :
    m.EndsBefore rest := by
  intro b hb
  obtain ⟨hdigit, hletter, hpoint⟩ := not_numeral_of_isDelimiter (h b hb)
  exact ⟨hdigit, fun _ => hletter, fun _ _ => hpoint⟩

private theorem Numeral.Valid.exists_head {m : Numeral} (h : m.Valid) :
    ∃ b more, m.unsignedText = b :: more ∧ isDigitByte b = true := by
  obtain ⟨b, more, hwhole⟩ := List.exists_cons_of_ne_nil h.whole.1
  refine ⟨b, more ++ m.tail, ?_, h.whole.2 b (by rw [hwhole]; exact List.mem_cons_self)⟩
  rw [m.unsignedText_eq, hwhole]
  rfl

/-- Texts of values begin with neither a blank nor a closing bracket, and end before a
delimiter. -/
theorem delimited_valueText (depth : Nat) : Delimited (ValueText depth) where
  begins text v h := by
    cases v with
    | null =>
      rw [valueText_null, word_null] at h
      exact ⟨_, _, h, rfl, by decide⟩
    | bool b =>
      rw [valueText_bool] at h
      cases b with
      | false => exact ⟨_, _, h.trans word_false, rfl, by decide⟩
      | true => exact ⟨_, _, h.trans word_true, rfl, by decide⟩
    | number n =>
      obtain ⟨m, hm, -, rfl⟩ := valueText_number.mp h
      rw [Numeral.text]
      split
      · exact ⟨_, _, rfl, rfl, by decide⟩
      · obtain ⟨b, more, htext, hb⟩ := hm.exists_head
        exact ⟨b, more, htext, isSpace_of_isDigitByte hb, ne_of_isDigitByte hb rfl⟩
    | string s =>
      obtain ⟨written, -, rfl⟩ := valueText_string.mp h
      exact ⟨_, _, rfl, rfl, by decide⟩
    | array vs =>
      obtain ⟨-, body, -, rfl, -⟩ := valueText_array.mp h
      exact ⟨_, _, rfl, rfl, by decide⟩
    | object ms =>
      obtain ⟨-, body, -, -, rfl, -⟩ := valueText_object.mp h
      exact ⟨_, _, rfl, rfl, by decide⟩
  ends text v rest h hrest n hn := by
    subst hn
    obtain ⟨m, hm, hvalue, htext⟩ := valueText_number.mp h
    exact ⟨m, hm, hvalue, htext, endsBefore_of_isDelimiter m hrest⟩

private theorem endsBefore_of_ne {text rest : List UInt8} {v : Value} (h : ∀ n, v ≠ .number n) :
    EndsBefore text v rest :=
  fun n hn => absurd hn (h n)

private theorem endsBefore_number {m : Numeral} {n : Number} {rest : List UInt8} (hm : m.Valid)
    (hvalue : m.value? = some n) (h : m.EndsBefore rest) : EndsBefore m.text (.number n) rest := by
  intro n' hn
  obtain rfl := Value.number.inj hn
  exact ⟨m, hm, hvalue, rfl, h⟩

/-! ## The reader at each first byte -/

section Heads

variable (depth : Nat) (after : List UInt8)

private theorem skipSpace_skipSpace (bytes : List UInt8) :
    skipSpace (skipSpace bytes) = skipSpace bytes :=
  List.dropWhile_idempotent isSpace bytes

private theorem readValue_skipSpace (bytes : List UInt8) :
    readValue depth (skipSpace bytes) = readValue depth bytes := by
  rw [readValue, readValue, skipSpace_skipSpace]

private theorem readValue_null : readValue depth ('n'.toUInt8 :: after) =
    readWord .null ['u', 'l', 'l'] after := by
  rw [readValue]
  rfl

private theorem readValue_true : readValue depth ('t'.toUInt8 :: after) =
    readWord (.bool true) ['r', 'u', 'e'] after := by
  rw [readValue]
  rfl

private theorem readValue_false : readValue depth ('f'.toUInt8 :: after) =
    readWord (.bool false) ['a', 'l', 's', 'e'] after := by
  rw [readValue]
  rfl

private theorem readValue_string : readValue depth ('"'.toUInt8 :: after) =
    (readString after).map fun p => (.string p.1, p.2) := by
  rw [readValue]
  rfl

private theorem readValue_negative : readValue depth ('-'.toUInt8 :: after) =
    (readUnsigned true after).map fun p => (.number p.1, p.2) := by
  rw [readValue]
  rfl

private theorem readValue_digit {b : UInt8} (h : isDigitByte b = true) :
    readValue depth (b :: after) =
    (readUnsigned false (b :: after)).map fun p => (.number p.1, p.2) := by
  rw [readValue, skipSpace_cons (isSpace_of_isDigitByte h)]
  dsimp only
  rw [if_neg (ne_of_isDigitByte h rfl), if_neg (ne_of_isDigitByte h rfl),
    if_neg (ne_of_isDigitByte h rfl), if_neg (ne_of_isDigitByte h rfl),
    if_neg (ne_of_isDigitByte h rfl), if_pos h]

private theorem readValue_array : readValue (depth + 1) ('['.toUInt8 :: after) =
    (readItems (readValue depth) (after.length + 1) 0 after).map fun p => (.array p.1, p.2) := by
  rw [readValue]
  rfl

private theorem readValue_object : readValue (depth + 1) ('\x7b'.toUInt8 :: after) =
    (readMembers (readValue depth) (after.length + 1) true after).map fun p =>
      (.object (ofWritten p.1), p.2) := by
  rw [readValue]
  rfl

end Heads

/-! ## Values that are read -/

private theorem valueText_of_readUnsigned (depth : Nat) {negative : Bool} {bytes rest : List UInt8}
    {v : Value}
    (h : (readUnsigned negative bytes).map (fun p => (Value.number p.1, p.2)) = .ok (v, rest)) :
    ∃ text, (if negative then '-'.toUInt8 :: bytes else bytes) = text ++ rest ∧
      ValueText depth text v ∧ EndsBefore text v rest := by
  obtain ⟨⟨n, rest'⟩, hn, heq⟩ := map_eq_ok_iff.mp h
  obtain ⟨rfl, rfl⟩ := Prod.mk.inj heq
  obtain ⟨m, rfl, hm, rfl, hends, hvalue⟩ := readUnsigned_eq_ok_iff.mp hn
  refine ⟨m.text, ?_, valueText_number.mpr ⟨m, hm, hvalue, rfl⟩, endsBefore_number hm hvalue hends⟩
  rw [Numeral.text]
  split <;> rfl

private theorem valueText_of_readValue {depth : Nat} {b : UInt8} {after rest : List UInt8}
    {v : Value} (ih : ∀ inner, depth = inner + 1 → Sound (readValue inner) (ValueText inner))
    (hskip : skipSpace (b :: after) = b :: after)
    (h : readValue depth (b :: after) = .ok (v, rest)) :
    ∃ text, b :: after = text ++ rest ∧ ValueText depth text v ∧ EndsBefore text v rest := by
  by_cases hnull : b = 'n'.toUInt8
  · subst hnull
    rw [readValue_null] at h
    obtain ⟨rfl, rfl⟩ := readWord_eq_ok_iff.mp h
    exact ⟨_, rfl, valueText_null.mpr word_null.symm, endsBefore_of_ne (by simp)⟩
  by_cases htrue : b = 't'.toUInt8
  · subst htrue
    rw [readValue_true] at h
    obtain ⟨rfl, rfl⟩ := readWord_eq_ok_iff.mp h
    exact ⟨_, rfl, valueText_bool.mpr word_true.symm, endsBefore_of_ne (by simp)⟩
  by_cases hfalse : b = 'f'.toUInt8
  · subst hfalse
    rw [readValue_false] at h
    obtain ⟨rfl, rfl⟩ := readWord_eq_ok_iff.mp h
    exact ⟨_, rfl, valueText_bool.mpr word_false.symm, endsBefore_of_ne (by simp)⟩
  by_cases hquote : b = '"'.toUInt8
  · subst hquote
    rw [readValue_string] at h
    obtain ⟨⟨s, rest'⟩, hs, heq⟩ := map_eq_ok_iff.mp h
    obtain ⟨rfl, rfl⟩ := Prod.mk.inj heq
    obtain ⟨text, htext, hbytes⟩ := readString_eq_ok_iff.mp hs
    exact ⟨text, hbytes, valueText_string.mpr htext, endsBefore_of_ne (by simp)⟩
  by_cases hminus : b = '-'.toUInt8
  · subst hminus
    rw [readValue_negative] at h
    exact valueText_of_readUnsigned depth h
  by_cases hdigit : isDigitByte b = true
  · rw [readValue_digit depth after hdigit] at h
    exact valueText_of_readUnsigned depth h
  by_cases hbracket : b = '['.toUInt8
  · subst hbracket
    cases depth with
    | zero =>
      rw [readValue] at h
      cases h
    | succ inner =>
      rw [readValue_array] at h
      obtain ⟨⟨vs, rest'⟩, hvs, heq⟩ := map_eq_ok_iff.mp h
      obtain ⟨rfl, rfl⟩ := Prod.mk.inj heq
      obtain ⟨body, rfl, hbody⟩ := readItems_sound (ih inner rfl) hvs
      exact ⟨_, rfl, valueText_array.mpr ⟨inner, body, rfl, rfl, hbody⟩,
        endsBefore_of_ne (by simp)⟩
  by_cases hbrace : b = '\x7b'.toUInt8
  · subst hbrace
    cases depth with
    | zero =>
      rw [readValue] at h
      cases h
    | succ inner =>
      rw [readValue_object] at h
      obtain ⟨⟨ms, rest'⟩, hms, heq⟩ := map_eq_ok_iff.mp h
      obtain ⟨rfl, rfl⟩ := Prod.mk.inj heq
      obtain ⟨body, rfl, hbody⟩ := readMembers_sound (ih inner rfl) hms
      exact ⟨_, rfl, valueText_object.mpr ⟨inner, body, ms, rfl, rfl, hbody, rfl⟩,
        endsBefore_of_ne (by simp)⟩
  · rw [readValue, hskip] at h
    simp [hnull, htrue, hfalse, hquote, hminus, hdigit, hbracket, hbrace] at h

private theorem readValue_of_valueText {depth : Nat} {text rest : List UInt8} {v : Value}
    (ih : ∀ inner, depth = inner + 1 → Complete (readValue inner) (ValueText inner))
    (h : ValueText depth text v) (hends : EndsBefore text v rest) :
    readValue depth (text ++ rest) = .ok (v, rest) := by
  cases v with
  | null =>
    rw [valueText_null.mp h, word_null]
    exact (readValue_null _ _).trans (readWord_eq_ok_iff.mpr ⟨rfl, rfl⟩)
  | bool b =>
    rw [valueText_bool.mp h]
    cases b with
    | true =>
      exact (congrArg (fun w => readValue depth (w ++ rest)) word_true).trans <|
        (readValue_true _ _).trans (readWord_eq_ok_iff.mpr ⟨rfl, rfl⟩)
    | false =>
      exact (congrArg (fun w => readValue depth (w ++ rest)) word_false).trans <|
        (readValue_false _ _).trans (readWord_eq_ok_iff.mpr ⟨rfl, rfl⟩)
  | number n =>
    obtain ⟨m, hm, hvalue, rfl, hrest⟩ := hends n rfl
    have hread := readUnsigned_eq_ok_iff.mpr ⟨m, rfl, hm, rfl, hrest, hvalue⟩
    rw [Numeral.text]
    cases hnegative : m.negative with
    | true =>
      rw [hnegative] at hread
      exact (readValue_negative _ _).trans (map_eq_ok_iff.mpr ⟨(n, rest), hread, rfl⟩)
    | false =>
      rw [hnegative] at hread
      obtain ⟨b, more, htext, hb⟩ := hm.exists_head
      rw [if_neg Bool.false_ne_true, htext]
      rw [htext] at hread
      exact (readValue_digit _ _ hb).trans (map_eq_ok_iff.mpr ⟨(n, rest), hread, rfl⟩)
  | string s =>
    obtain ⟨written, hwritten, rfl⟩ := valueText_string.mp h
    refine (readValue_string _ _).trans (map_eq_ok_iff.mpr ⟨(s, rest), ?_, rfl⟩)
    exact readString_eq_ok_iff.mpr ⟨_, ⟨written, hwritten, rfl⟩, rfl⟩
  | array vs =>
    obtain ⟨inner, body, rfl, rfl, hbody⟩ := valueText_array.mp h
    refine (readValue_array _ _).trans (map_eq_ok_iff.mpr ⟨(vs, rest), ?_, rfl⟩)
    exact readItems_complete (ih inner rfl) (delimited_valueText inner) hbody
      (length_lt_of_sequenceText hbody rest) rest
  | object ms =>
    obtain ⟨inner, body, written, rfl, rfl, hbody, rfl⟩ := valueText_object.mp h
    refine (readValue_object _ _).trans (map_eq_ok_iff.mpr ⟨(written, rest), ?_, rfl⟩)
    exact readMembers_complete (ih inner rfl) (delimited_valueText inner) hbody
      (length_lt_of_sequenceText hbody rest) rest

private theorem sound_readValue (depth : Nat) : Sound (readValue depth) (ValueText depth) := by
  induction depth using Nat.strong_induction_on with
  | _ depth ih =>
    intro bytes v rest h
    obtain ⟨blanks, hblanks, hbytes⟩ := exists_blanks bytes
    rw [← readValue_skipSpace] at h
    cases hskip : skipSpace bytes with
    | nil =>
      rw [hskip, readValue] at h
      cases h
    | cons b after =>
      have hidem : skipSpace (b :: after) = b :: after := by
        rw [← hskip, skipSpace_skipSpace]
      rw [hskip] at h hbytes
      obtain ⟨text, htext, hvalue⟩ :=
        valueText_of_readValue (fun inner hinner => ih inner (by omega)) hidem h
      exact ⟨blanks, text, htext ▸ hbytes, hblanks, hvalue⟩

private theorem complete_readValue (depth : Nat) :
    Complete (readValue depth) (ValueText depth) := by
  induction depth using Nat.strong_induction_on with
  | _ depth ih =>
    rintro bytes v rest ⟨blanks, text, rfl, hblanks, h, hends⟩
    have hread := readValue_of_valueText (fun inner hinner => ih inner (by omega)) h hends
    obtain ⟨b, more, rfl, hb, -⟩ := (delimited_valueText depth).begins _ _ h
    rw [← readValue_skipSpace]
    exact (congrArg (readValue depth) (skipSpace_append hblanks hb)).trans hread

/-- The reader takes the values that bytes begin with, and leaves the rest. -/
theorem readValue_eq_ok_iff {depth : Nat} {bytes rest : List UInt8} {v : Value} :
    readValue depth bytes = .ok (v, rest) ↔ BeginsWith (ValueText depth) bytes v rest :=
  ⟨sound_readValue depth bytes v rest, complete_readValue depth bytes v rest⟩

/-- A document is read as the value that it begins with. -/
theorem read_eq_ok_iff {document : List UInt8} {v : Value} :
    read document = .ok v ↔ ∃ rest, BeginsWith (ValueText maxDepth) document v rest := by
  rw [read]
  constructor
  · intro h
    split at h
    · next v' rest hread =>
      obtain rfl := Except.ok.inj h
      exact ⟨rest, readValue_eq_ok_iff.mp hread⟩
    · cases h
  · rintro ⟨rest, h⟩
    rw [readValue_eq_ok_iff.mpr h]

/-! ## Whole documents -/

private theorem SequenceText.mono {α : Type} {Element Element' : List UInt8 → α → Prop}
    {close : UInt8}
    (h : ∀ text x, Element text x → Element' text x) {first : Bool} {text : List UInt8}
    {xs : List α} (hs : SequenceText Element close first text xs) :
    SequenceText Element' close first text xs := by
  induction hs with
  | close hblanks => exact .close hblanks
  | first hblanks hx _ ih => exact .first hblanks (h _ _ hx) ih
  | next hblanks hgap hx _ ih => exact .next hblanks hgap (h _ _ hx) ih

private theorem MemberText.mono {Element Element' : List UInt8 → Value → Prop}
    (h : ∀ text v, Element text v → Element' text v) (text : List UInt8) (m : String × Value)
    (hm : MemberText Element text m) : MemberText Element' text m := by
  obtain ⟨key, blanks, gap, value, hkey, hblanks, hgap, hvalue, rfl⟩ := hm
  exact ⟨key, blanks, gap, value, hkey, hblanks, hgap, h _ _ hvalue, rfl⟩

private theorem valueText_mono {depth depth' : Nat} (hle : depth ≤ depth') (text : List UInt8)
    (v : Value) (h : ValueText depth text v) : ValueText depth' text v := by
  induction depth generalizing depth' text v with
  | zero =>
    cases v with
    | null | bool | number | string => cases depth' <;> exact h
    | array | object => exact h.elim
  | succ depth ih =>
    obtain ⟨depth', rfl⟩ : ∃ n, depth' = n + 1 := ⟨depth' - 1, by omega⟩
    cases v with
    | null | bool | number | string => exact h
    | array =>
      obtain ⟨body, htext, hbody⟩ := h
      exact ⟨body, htext, hbody.mono (ih (by omega))⟩
    | object =>
      obtain ⟨body, written, htext, hbody, hms⟩ := h
      exact ⟨body, written, htext, hbody.mono (MemberText.mono (ih (by omega))), hms⟩

private theorem BeginsWith.mono {depth depth' : Nat} (hle : depth ≤ depth')
    {bytes rest : List UInt8} {v : Value} (h : BeginsWith (ValueText depth) bytes v rest) :
    BeginsWith (ValueText depth') bytes v rest := by
  obtain ⟨blanks, text, hbytes, hblanks, htext, hends⟩ := h
  exact ⟨blanks, text, hbytes, hblanks, valueText_mono hle _ _ htext, hends⟩

/-- Bytes begin with one value at most, and end it at one place. -/
theorem BeginsWith.unique {depth depth' : Nat} {bytes rest rest' : List UInt8} {v v' : Value}
    (h : BeginsWith (ValueText depth) bytes v rest)
    (h' : BeginsWith (ValueText depth') bytes v' rest') : v' = v ∧ rest' = rest := by
  have hread := readValue_eq_ok_iff.mpr (h.mono (Nat.le_max_left depth depth'))
  have hread' := readValue_eq_ok_iff.mpr (h'.mono (Nat.le_max_right depth depth'))
  exact Prod.mk.inj (Except.ok.inj (hread'.symm.trans hread))

/-- A document denotes a value exactly when it begins with the value and blanks alone follow. -/
theorem denotes_iff {document : List UInt8} {v : Value} :
    Denotes document v ↔
      ∃ depth rest, BeginsWith (ValueText depth) document v rest ∧ AllSpace rest := by
  constructor
  · rintro ⟨blanks, text, rest, depth, hdocument, hblanks, htext, hrest⟩
    have hends : EndsBefore text v rest := by
      refine (delimited_valueText depth).ends _ _ _ htext fun b hb => .inl (.inl ?_)
      exact hrest b (List.mem_of_mem_head? hb)
    exact ⟨depth, rest, ⟨blanks, text, hdocument, hblanks, htext, hends⟩, hrest⟩
  · rintro ⟨depth, rest, ⟨blanks, text, hdocument, hblanks, htext, -⟩, hrest⟩
    exact ⟨blanks, text, rest, depth, hdocument, hblanks, htext, hrest⟩

/-- A document that begins with a value denotes that one, if blanks alone follow, and none else. -/
theorem denotes_iff_of_beginsWith {depth : Nat} {document rest : List UInt8} {v v' : Value}
    (h : BeginsWith (ValueText depth) document v rest) :
    Denotes document v' ↔ v' = v ∧ AllSpace rest := by
  rw [denotes_iff]
  constructor
  · rintro ⟨depth', rest', h', hrest⟩
    obtain ⟨rfl, rfl⟩ := h.unique h'
    exact ⟨rfl, hrest⟩
  · rintro ⟨rfl, hrest⟩
    exact ⟨depth, rest, h, hrest⟩

end Exemplar.Json
