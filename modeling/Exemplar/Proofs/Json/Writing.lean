import Exemplar.Json.Writer
import Exemplar.Proofs.Json.Reading
import Exemplar.Proofs.Text.Digits

/-!
# Writing values

The writer against the grammar.  The main statement: what is written for a value without doubles is
a text of that value, whatever blanks the writer adds.
-/

namespace Exemplar.Json

open Text.Utf8

/-! ## Strings -/

private theorem ContentText.bytes {bs written meant : List UInt8}
    (h : ∀ b ∈ bs, b ≠ '"'.toUInt8 ∧ b ≠ '\\'.toUInt8 ∧ ¬ b < 0x20)
    (rest : ContentText written meant) : ContentText (bs ++ written) (bs ++ meant) := by
  induction bs with
  | nil => exact rest
  | cons b bs ih =>
    obtain ⟨⟨hquote, hbackslash, hcontrol⟩, htail⟩ := List.forall_mem_cons.mp h
    exact .byte hquote hbackslash hcontrol (ih htail)

private theorem isHex4_hex4 {n : Nat} (h : n < 0x20) : IsHex4 (encode (Text.hex4 n)) n := by
  have hall : ∀ n < 0x20, (encode (Text.hex4 n)).length = 4 ∧
      hexNumber? (encode (Text.hex4 n)) = some n := by decide
  exact hall n h

private theorem encodeChar_plain {c : Char} (hquote : c ≠ '"') (hbackslash : c ≠ '\\')
    (hcontrol : ¬ c.toNat < 0x20) :
    ∀ b ∈ String.utf8EncodeChar c, b ≠ '"'.toUInt8 ∧ b ≠ '\\'.toUInt8 ∧ ¬ b < 0x20 := by
  intro b hb
  have hvalue : b.toNat = c.toNat ∨ 0x80 ≤ b.toNat := by
    rcases encodeChar_cases c with ⟨hc, hbyte⟩ | ⟨-, hbytes⟩
    · rw [hbyte, List.mem_singleton] at hb
      rw [hb]
      have hval : c.val.toNat < 2 ^ 8 := Nat.lt_trans hc (by decide)
      exact .inl (Nat.mod_eq_of_lt hval)
    · exact .inr (hbytes b hb)
  have hne {d : Char} (hd : d.toUInt8.toNat = d.toNat) (hd' : d.toNat < 0x80) (hcd : c ≠ d) :
      b ≠ d.toUInt8 := by
    rintro rfl
    exact hcd (Char.toNat_inj.mp (by omega))
  refine ⟨hne rfl (by decide) hquote, hne rfl (by decide) hbackslash, fun hlt => ?_⟩
  have hsmall : b.toNat < 0x20 := hlt
  omega

private theorem contentText_escapeChar (c : Char) {written meant : List UInt8}
    (rest : ContentText written meant) :
    ContentText (encode (escapeChar c) ++ written) (String.utf8EncodeChar c ++ meant) := by
  rw [escapeChar]
  iterate 7
    split
    · next h =>
      subst h
      exact .escape rfl rest
  split
  · next hcontrol =>
    have htext := ContentText.unicode (isHex4_hex4 hcontrol) (.inl (by omega)) rest
    rw [Char.ofNat_toNat, encode_singleton] at htext
    exact htext
  · next hquote hbackslash _ _ _ _ _ hcontrol =>
    rw [encode_singleton]
    exact .bytes (encodeChar_plain hquote hbackslash hcontrol) rest

private theorem stringText_quote (s : String) : StringText (encode (quote s)) s := by
  refine ⟨encode (s.toList.flatMap escapeChar), ?_, ?_⟩
  · induction s.toList with
    | nil => exact .nil
    | cons c cs ih =>
      rw [List.flatMap_cons, encode_append]
      exact contentText_escapeChar c ih
  · rw [quote]
    exact congrArg _ (encode_append _ _)

/-! ## Integers -/

private theorem toNat_digitByte {c : Char} (h : Text.isDigit c = true) :
    c.toUInt8.toNat = c.toNat ∧ isDigitByte c.toUInt8 = true := by
  rw [Text.isDigit, Bool.and_eq_true, decide_eq_true_iff, decide_eq_true_iff] at h
  have hval : c.val.toNat < 2 ^ 8 := Nat.lt_of_le_of_lt h.2 (by decide)
  have htoNat : c.toUInt8.toNat = c.toNat := Nat.mod_eq_of_lt hval
  refine ⟨htoNat, ?_⟩
  rw [isDigitByte, htoNat, Bool.and_eq_true, decide_eq_true_iff, decide_eq_true_iff]
  exact h

private theorem le_digitsFrom (cs : List Char) (n : Nat) :
    n ≤ cs.foldl (fun n c => 10 * n + Text.digitValue c) n := by
  induction cs generalizing n with
  | nil => exact Nat.le_refl n
  | cons c cs ih => exact Nat.le_trans (by omega) (ih (10 * n + Text.digitValue c))

private theorem gather_digits {cs : List Char} {n : Nat} (hdigits : cs.all Text.isDigit = true)
    (hmax : cs.foldl (fun n c => 10 * n + Text.digitValue c) n ≤ significandMax) :
    gather n (cs.map Char.toUInt8) =
      (cs.foldl (fun n c => 10 * n + Text.digitValue c) n, 0) := by
  induction cs generalizing n with
  | nil => rfl
  | cons c cs ih =>
    rw [List.all_cons, Bool.and_eq_true] at hdigits
    have hnext : 10 * n + (c.toUInt8.toNat - 0x30) = 10 * n + Text.digitValue c := by
      rw [(toNat_digitByte hdigits.1).1, Text.digitValue]
    rw [List.map_cons, gather, hnext]
    rw [if_pos (Nat.le_trans (le_digitsFrom cs _) hmax)]
    exact ih hdigits.2 hmax

/-- The numeral that an integer is written as. -/
def Numeral.ofInt (n : Int) : Numeral where
  negative := decide (n < 0)
  whole := (Text.decimal n.natAbs).map Char.toUInt8
  fraction? := none
  exponent? := none

private theorem Numeral.valid_ofInt (n : Int) : (Numeral.ofInt n).Valid where
  whole := by
    refine ⟨mt List.map_eq_nil_iff.mp (Text.decimal_ne_nil _), fun b hb => ?_⟩
    obtain ⟨c, hc, rfl⟩ := List.mem_map.mp hb
    exact (toNat_digitByte (Text.isDigit_of_mem_decimal hc)).2
  zero hzero := by
    rw [ofInt, List.head?_map, Option.map_eq_some_iff] at hzero
    obtain ⟨c, hc, hbyte⟩ := hzero
    have hdigit := Text.isDigit_of_mem_decimal (List.mem_of_mem_head? hc)
    have htoNat : c.toNat = '0'.toNat := by
      rw [← (toNat_digitByte hdigit).1, hbyte]
      rfl
    rw [Char.toNat_inj.mp htoNat] at hc
    rw [ofInt, List.length_map]
    exact (Text.decimal_leadingDigit n.natAbs).resolve_left (absurd hc)
  fraction _ h := by cases h
  exponent _ h := by cases h

private theorem Numeral.value?_ofInt {n : Int}
    (range : -9223372036854775808 ≤ n ∧ n < 18446744073709551616) :
    (Numeral.ofInt n).value? = some (.integer n range) := by
  have hvalue : (Text.decimal n.natAbs).foldl (fun n c => 10 * n + Text.digitValue c) 0 =
      n.natAbs := Text.digitsValue_decimal _
  have hgather : gather 0 (Numeral.ofInt n).whole = (n.natAbs, 0) := by
    rw [ofInt, gather_digits (Text.decimal_spells _).2 (by rw [hvalue, significandMax]; omega),
      hvalue]
  rw [value?, hgather]
  change ofDigits (decide (n < 0)) n.natAbs = _
  rw [ofDigits]
  by_cases hneg : n < 0
  · rw [if_pos (decide_eq_true hneg), dif_pos (by omega), Option.some.injEq, Number.integer.injEq]
    omega
  · rw [if_neg (by rw [decide_eq_true_iff]; exact hneg), dif_pos (by omega), Option.some.injEq,
      Number.integer.injEq]
    omega

private theorem Numeral.text_ofInt (n : Int) :
    (Numeral.ofInt n).text = encode (Text.intDecimal n) := by
  have hdigits : encode (Text.decimal n.natAbs) = (Text.decimal n.natAbs).map Char.toUInt8 := by
    refine encode_of_ascii fun c hc => ?_
    have hdigit := Text.isDigit_of_mem_decimal hc
    rw [Text.isDigit, Bool.and_eq_true, decide_eq_true_iff, decide_eq_true_iff] at hdigit
    omega
  have hunsigned : (Numeral.ofInt n).unsignedText = encode (Text.decimal n.natAbs) := by
    rw [hdigits]
    exact List.append_nil _
  rw [text, hunsigned, Text.intDecimal]
  by_cases hneg : n < 0
  · rw [if_pos hneg]
    exact if_pos (decide_eq_true hneg)
  · rw [if_neg hneg]
    exact if_neg (mt of_decide_eq_true hneg)

private theorem valueText_integer (depth : Nat) (n : Int)
    (range : -9223372036854775808 ≤ n ∧ n < 18446744073709551616) :
    ValueText depth (encode (Number.integer n range).render) (.number (.integer n range)) :=
  valueText_number.mpr
    ⟨.ofInt n, Numeral.valid_ofInt n, Numeral.value?_ofInt range, (Numeral.text_ofInt n).symm⟩

/-! ## Values -/

mutual

/-- How deep the brackets of a value nest. -/
def Value.depth : Value → Nat
  | .array items => itemsDepth items + 1
  | .object members => membersDepth members + 1
  | _ => 0
termination_by structural v => v

/-- How deep the brackets of the items of an array nest. -/
def itemsDepth : List Value → Nat
  | [] => 0
  | v :: vs => max v.depth (itemsDepth vs)
termination_by structural vs => vs

/-- How deep the brackets of the values of members nest. -/
def membersDepth : List (String × Value) → Nat
  | [] => 0
  | (_, v) :: ms => max v.depth (membersDepth ms)
termination_by structural ms => ms

end

mutual

/-- Whether a value has no doubles, at any depth. -/
def Value.WithoutDoubles : Value → Prop
  | .number (.double _) => False
  | .array items => itemsWithoutDoubles items
  | .object members => membersWithoutDoubles members
  | _ => True
termination_by structural v => v

/-- Whether the items of an array have no doubles. -/
def itemsWithoutDoubles : List Value → Prop
  | [] => True
  | v :: vs => v.WithoutDoubles ∧ itemsWithoutDoubles vs
termination_by structural vs => vs

/-- Whether the values of members have no doubles. -/
def membersWithoutDoubles : List (String × Value) → Prop
  | [] => True
  | (_, v) :: ms => v.WithoutDoubles ∧ membersWithoutDoubles ms
termination_by structural ms => ms

end

/-- The items of an array have no doubles if none of them has. -/
theorem itemsWithoutDoubles_iff {vs : List Value} :
    itemsWithoutDoubles vs ↔ ∀ v ∈ vs, v.WithoutDoubles := by
  induction vs with
  | nil => exact ⟨fun _ _ h => (List.not_mem_nil h).elim, fun _ => trivial⟩
  | cons v vs ih => rw [itemsWithoutDoubles, ih, List.forall_mem_cons]

/-- The members of an object have no doubles if the value of none of them has. -/
theorem membersWithoutDoubles_iff {ms : List (String × Value)} :
    membersWithoutDoubles ms ↔ ∀ m ∈ ms, m.2.WithoutDoubles := by
  induction ms with
  | nil => exact ⟨fun _ _ h => (List.not_mem_nil h).elim, fun _ => trivial⟩
  | cons m ms ih => rw [membersWithoutDoubles, ih, List.forall_mem_cons]

/-- Whether a writer adds blanks alone. -/
structure Spacing.Blank (sp : Spacing) : Prop where
  breakAt : ∀ depth, AllSpace (encode (sp.breakAt depth))
  colon : ∃ blanks, encode sp.colon = ':'.toUInt8 :: blanks ∧ AllSpace blanks

private theorem ofWritten_eq_self {ms : List (String × Value)} (h : (ms.map Prod.fst).Nodup) :
    ofWritten ms = ms := by
  have hset {key : String} {v : Value} {ns : List (String × Value)}
      (hkey : key ∉ ns.map Prod.fst) : setMember key v ns = ns ++ [(key, v)] := by
    induction ns with
    | nil => rfl
    | cons n ns ih =>
      rw [List.map_cons, List.mem_cons, not_or] at hkey
      rw [setMember, if_neg (Ne.symm hkey.1), ih hkey.2]
      rfl
  have hfold (ns : List (String × Value)) (hdistinct : ((ns ++ ms).map Prod.fst).Nodup) :
      ms.foldl (fun members m => setMember m.1 m.2 members) ns = ns ++ ms := by
    induction ms generalizing ns with
    | nil => exact (List.append_nil ns).symm
    | cons m ms ih =>
      have hkey : m.1 ∉ ns.map Prod.fst := by
        rw [List.map_append, List.nodup_append] at hdistinct
        exact fun hmem => hdistinct.2.2 _ hmem _ List.mem_cons_self rfl
      rw [← List.singleton_append, ← List.append_assoc] at hdistinct
      rw [List.map_cons, List.nodup_cons] at h
      rw [List.foldl_cons, hset hkey, ih h.2 _ hdistinct, List.append_assoc]
      rfl
  exact hfold [] h

private theorem sequenceText_nil {α : Type} {Element : List UInt8 → α → Prop} {close : UInt8}
    {first : Bool} : SequenceText Element close first [close] [] :=
  SequenceText.close AllSpace.nil

private theorem memberText_write {sp : Spacing} (hsp : sp.Blank)
    {Element : List UInt8 → Value → Prop}
    (key : String) {v : Value} {text : List Char} (htext : Element (encode text) v) :
    MemberText Element (encode (quote key ++ sp.colon ++ text)) (key, v) := by
  obtain ⟨blanks, hcolon, hblanks⟩ := hsp.colon
  refine ⟨_, [], blanks, _, stringText_quote key, AllSpace.nil, hblanks, htext, ?_⟩
  rw [encode_append, encode_append, hcolon, List.append_assoc]
  rfl

section Write

variable {sp : Spacing}

mutual

/-- What is written for a value without doubles is a text of the value. -/
theorem valueText_write (hsp : sp.Blank) {v : Value} (hv : v.WellFormed)
    (hplain : v.WithoutDoubles) (level : Nat) {depth : Nat} (hdepth : v.depth ≤ depth) :
    ValueText depth (encode (write sp level v)) v := by
  match v with
  | .null => exact valueText_null.mpr rfl
  | .bool true => exact valueText_bool.mpr rfl
  | .bool false => exact valueText_bool.mpr rfl
  | .number (.integer n range) => exact valueText_integer depth n range
  | .number (.double _) => exact hplain.elim
  | .string s => exact valueText_string.mpr (stringText_quote s)
  | .array [] =>
    obtain ⟨inner, rfl⟩ : ∃ inner, depth = inner + 1 := Nat.exists_eq_add_one.mpr hdepth
    exact valueText_array.mpr ⟨inner, _, rfl, rfl, sequenceText_nil⟩
  | .array (v :: vs) =>
    obtain ⟨inner, rfl⟩ : ∃ inner, depth = inner + 1 :=
      Nat.exists_eq_add_one.mpr (Nat.lt_of_lt_of_le (Nat.succ_pos _) hdepth)
    have hinner := Nat.max_le.mp (Nat.le_of_succ_le_succ hdepth)
    refine valueText_array.mpr ⟨inner, _, rfl, rfl, ?_⟩
    have hfirst := valueText_write hsp hv.1 hplain.1 (level + 1) hinner.1
    have hrest := sequenceText_writeItems hsp hv.2 hplain.2 level hinner.2
    have hbody := SequenceText.first (hsp.breakAt (level + 1)) hfirst hrest
    rw [← List.append_assoc, ← encode_append, ← encode_append] at hbody
    exact hbody
  | .object [] =>
    obtain ⟨inner, rfl⟩ : ∃ inner, depth = inner + 1 := Nat.exists_eq_add_one.mpr hdepth
    exact valueText_object.mpr
      ⟨inner, _, [], rfl, rfl, sequenceText_nil, rfl⟩
  | .object ((key, v) :: ms) =>
    obtain ⟨inner, rfl⟩ : ∃ inner, depth = inner + 1 :=
      Nat.exists_eq_add_one.mpr (Nat.lt_of_lt_of_le (Nat.succ_pos _) hdepth)
    have hinner := Nat.max_le.mp (Nat.le_of_succ_le_succ hdepth)
    refine valueText_object.mpr ⟨inner, _, _, rfl, rfl, ?_, (ofWritten_eq_self hv.1).symm⟩
    have hvalue := valueText_write hsp hv.2.1 hplain.1 (level + 1) hinner.1
    have hfirst := memberText_write hsp key hvalue
    have hrest := sequenceText_writeMembers hsp hv.2.2 hplain.2 level hinner.2
    have hbody := SequenceText.first (hsp.breakAt (level + 1)) hfirst hrest
    rw [← encode_append, ← encode_append, ← List.append_assoc, ← List.append_assoc,
      ← List.append_assoc] at hbody
    exact hbody
termination_by structural v

private theorem sequenceText_writeItems (hsp : sp.Blank) {vs : List Value}
    (hvs : itemsWellFormed vs)
    (hplain : itemsWithoutDoubles vs) (level : Nat) {depth : Nat} (hdepth : itemsDepth vs ≤ depth) :
    SequenceText (ValueText depth) ']'.toUInt8 false (encode (writeItems sp level vs)) vs := by
  match vs with
  | [] =>
    rw [writeItems, encode_append]
    exact .close (hsp.breakAt level)
  | v :: vs =>
    have hinner := Nat.max_le.mp hdepth
    have hfirst := valueText_write hsp hvs.1 hplain.1 (level + 1) hinner.1
    have hrest := sequenceText_writeItems hsp hvs.2 hplain.2 level hinner.2
    have hbody := SequenceText.next AllSpace.nil (hsp.breakAt (level + 1)) hfirst hrest
    rw [← List.append_assoc (encode _), ← encode_append, ← encode_append] at hbody
    exact hbody
termination_by structural vs

private theorem sequenceText_writeMembers (hsp : sp.Blank) {ms : List (String × Value)}
    (hms : membersWellFormed ms) (hplain : membersWithoutDoubles ms) (level : Nat) {depth : Nat}
    (hdepth : membersDepth ms ≤ depth) :
    SequenceText (MemberText (ValueText depth)) '\x7d'.toUInt8 false
      (encode (writeMembers sp level ms)) ms := by
  match ms with
  | [] =>
    rw [writeMembers, encode_append]
    exact .close (hsp.breakAt level)
  | (key, v) :: ms =>
    have hinner := Nat.max_le.mp hdepth
    have hvalue := valueText_write hsp hms.1 hplain.1 (level + 1) hinner.1
    have hrest := sequenceText_writeMembers hsp hms.2 hplain.2 level hinner.2
    have hbody := SequenceText.next AllSpace.nil (hsp.breakAt (level + 1))
      (memberText_write hsp key hvalue) hrest
    rw [← encode_append, ← encode_append, ← List.append_assoc, ← List.append_assoc,
      ← List.append_assoc] at hbody
    exact hbody
termination_by structural ms

end

end Write

/-! ## Reading what is written -/

/-- Text on one line has no blanks. -/
theorem Spacing.blank_compact : Spacing.compact.Blank where
  breakAt _ := AllSpace.nil
  colon := ⟨[], rfl, AllSpace.nil⟩

/-- Text over many lines has line feeds and spaces. -/
theorem Spacing.blank_pretty : Spacing.pretty.Blank where
  breakAt depth b hb := by
    obtain ⟨c, hc, hb⟩ := List.mem_flatMap.mp hb
    rcases List.mem_cons.mp hc with rfl | hc
    · obtain rfl := List.mem_singleton.mp hb
      rfl
    · obtain rfl := List.eq_of_mem_replicate hc
      obtain rfl := List.mem_singleton.mp hb
      rfl
  colon := by
    refine ⟨[0x20], rfl, fun b hb => ?_⟩
    rw [List.mem_singleton.mp hb]
    rfl

/-- A document that is the text of a value and nothing else is read as the value. -/
theorem read_of_valueText {text : List UInt8} {v : Value} (h : ValueText maxDepth text v) :
    read text = .ok v := by
  refine read_eq_ok_iff.mpr ⟨[], [], text, (List.append_nil text).symm, AllSpace.nil, h, ?_⟩
  refine (delimited_valueText maxDepth).ends text v [] h fun b hb => ?_
  cases hb

/-- What is written for a value without doubles is read as the value, if its brackets nest no deeper
than is allowed. -/
theorem read_write {sp : Spacing} (hsp : sp.Blank) {v : Value} (hv : v.WellFormed)
    (hplain : v.WithoutDoubles) (hdepth : v.depth ≤ maxDepth) (level : Nat) :
    read (encode (write sp level v)) = .ok v :=
  read_of_valueText (valueText_write hsp hv hplain level hdepth)

end Exemplar.Json
