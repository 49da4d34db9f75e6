import Mathlib.Data.List.Basic
import Exemplar.Json.Pointer
import Exemplar.Proofs.Json.WellFormed
import Exemplar.Proofs.Text.Digits

/-!
# What pointers lead to

The way from a value into its parts, token by token, apart from the text that names it.  The main
statements: a pointer that is written from tokens selects what the tokens lead to, and a pointer
behind another goes on from the value that the other selects.
-/

namespace Exemplar.Json.Pointer

/-- Whether tokens lead from a value to another one: into an object by the name of a member, into an
array by the decimal digits of a position.  A position is a number of 64 bits, as no array is
longer. -/
inductive Leads : Value → List String → Value → Prop
  | here (v : Value) : Leads v [] v
  | member {members : List (String × Value)} {key : String} {v w : Value} {tokens : List String} :
    members.lookup key = some v → Leads v tokens w → Leads (.object members) (key :: tokens) w
  | item {items : List Value} {i : Nat} {v w : Value} {tokens : List String} :
    items[i]? = some v → i < 2 ^ 64 → Leads v tokens w →
    Leads (.array items) (String.ofList (Text.decimal i) :: tokens) w

/-- The pointer that a list of tokens is written as, as a text. -/
def text (tokens : List String) : String :=
  String.ofList (ofTokens (tokens.map String.toList))

/-! ## Steps -/

private theorem index?_eq_some_iff {t : List Char} {i : Nat} :
    index? t = some i ↔ t = Text.decimal i ∧ i < 2 ^ 64 := by
  rw [index?]
  constructor
  · intro h
    split at h
    · next ht =>
      dsimp only at h
      split at h
      · next hlt =>
        rw [← Option.some.inj h]
        exact ⟨(Text.decimal_digitsValue ht.1 ht.2.1 ht.2.2).symm, hlt⟩
      · cases h
    · cases h
  · rintro ⟨rfl, hlt⟩
    obtain ⟨hne, hdigits⟩ := Text.decimal_spells i
    rw [if_pos ⟨hne, hdigits, Text.decimal_leadingDigit i⟩, Text.digitsValue_decimal]
    exact if_pos hlt

/-- Following tokens comes to a value exactly if the tokens lead to it. -/
theorem follow?_eq_some_iff {tokens : List (List Char)} {v w : Value} :
    follow? tokens v = some w ↔ Leads v (tokens.map String.ofList) w := by
  induction tokens generalizing v with
  | nil =>
    rw [follow?, Option.some.injEq]
    constructor
    · rintro rfl
      exact .here v
    · rintro ⟨⟩
      rfl
  | cons t tokens ih =>
    rw [follow?, Option.bind_eq_some_iff, List.map_cons]
    constructor
    · rintro ⟨u, hstep, hfollow⟩
      have hrest := ih.mp hfollow
      match v with
      | .object members => exact .member hstep hrest
      | .array items =>
        obtain ⟨i, hindex, hitem⟩ := Option.bind_eq_some_iff.mp hstep
        obtain ⟨rfl, hlt⟩ := index?_eq_some_iff.mp hindex
        exact .item hitem hlt hrest
      | .null | .bool _ | .number _ | .string _ => cases hstep
    · generalize htoken : String.ofList t = token
      intro h
      cases h with
      | member hlookup hrest =>
        rw [← htoken] at hlookup
        exact ⟨_, hlookup, ih.mpr hrest⟩
      | item hitem hlt hrest =>
        have hindex := index?_eq_some_iff.mpr ⟨String.ofList_injective htoken, hlt⟩
        exact ⟨_, Option.bind_eq_some_iff.mpr ⟨_, hindex, hitem⟩, ih.mpr hrest⟩

private theorem Leads.wellFormed {v w : Value} {tokens : List String} (h : Leads v tokens w)
    (hv : v.WellFormed) : w.WellFormed := by
  induction h with
  | here v => exact hv
  | member hlookup _ ih =>
    obtain ⟨front, back, rfl, -⟩ := List.lookup_eq_some_iff.mp hlookup
    exact ih (hv.member (List.mem_append_right front List.mem_cons_self))
  | item hitem _ _ ih => exact ih (itemsWellFormed_iff.mp hv _ (List.mem_of_getElem? hitem))

private theorem follow?_append (ts us : List (List Char)) (v : Value) :
    follow? (ts ++ us) v = (follow? ts v).bind (follow? us) := by
  induction ts generalizing v with
  | nil => rfl
  | cons t ts ih =>
    rw [List.cons_append, follow?, follow?, Option.bind_assoc]
    exact congrArg _ (funext ih)

/-! ## Texts -/

/-- A pointer that is written from tokens selects a value exactly if the tokens lead to it. -/
theorem select?_text_eq_some_iff {tokens : List String} {v w : Value} :
    select? (text tokens) v = some w ↔ Leads v tokens w := by
  rw [select?, text, String.toList_ofList, tokens?_ofTokens, Option.bind_some,
    follow?_eq_some_iff, List.map_map]
  have hid : String.ofList ∘ String.toList = id := funext fun _ => String.ofList_toList
  rw [hid, List.map_id]

/-- What a pointer selects in a well-formed value is well formed. -/
theorem wellFormed_of_select? {p : String} {v w : Value} (h : select? p v = some w)
    (hv : v.WellFormed) : w.WellFormed := by
  obtain ⟨tokens, -, hfollow⟩ := Option.bind_eq_some_iff.mp h
  exact (follow?_eq_some_iff.mp hfollow).wellFormed hv

/-- A pointer that begins otherwise than with a slash has no tokens. -/
theorem tokens?_eq_none {cs : List Char} (hne : cs ≠ []) (hhead : cs.head? ≠ some '/') :
    tokens? cs = none := by
  cases cs with
  | nil => exact absurd rfl hne
  | cons c cs =>
    rw [tokens?]
    · exact List.cons_ne_nil c cs
    · rintro _ ⟨⟩
      exact hhead rfl

private theorem tokens?_append {xs ys : List Char} (hys : ys = [] ∨ ys.head? = some '/') :
    tokens? (xs ++ ys) = (tokens? xs).bind fun ts => (tokens? ys).map (ts ++ ·) := by
  rcases hys with rfl | hys
  · rw [List.append_nil]
    cases tokens? xs with
    | none => rfl
    | some ts => exact congrArg some (List.append_nil ts).symm
  by_cases hxs : xs = []
  · rw [hxs]
    exact Option.map_id_apply.symm
  by_cases hhead : xs.head? = some '/'
  · obtain ⟨xs, rfl⟩ := List.head?_eq_some_iff.mp hhead
    obtain ⟨ys, rfl⟩ := List.head?_eq_some_iff.mp hys
    rw [List.cons_append, tokens?, tokens?, tokens?, Option.bind_some, Option.map_some,
      Text.split_append_separator, List.map_append]
  · have happend : (xs ++ ys).head? ≠ some '/' := by
      rwa [List.head?_append_of_ne_nil _ hxs]
    rw [tokens?_eq_none hxs hhead, Option.bind_none,
      tokens?_eq_none (List.append_ne_nil_of_left_ne_nil hxs ys) happend]

/-- A pointer behind another selects on from the value that the other selects. -/
theorem select?_append {p q : String} (hq : q = "" ∨ q.toList.head? = some '/') (v : Value) :
    select? (p ++ q) v = (select? p v).bind (select? q) := by
  have hys : q.toList = [] ∨ q.toList.head? = some '/' :=
    hq.imp_left String.toList_eq_nil_iff.mpr
  rw [select?, String.toList_append, tokens?_append hys, select?]
  cases tokens? p.toList with
  | none => rfl
  | some ts =>
    rw [Option.bind_some, Option.bind_some]
    cases hus : tokens? q.toList with
    | none =>
      rcases hys with h | h
      · rw [h] at hus
        cases hus
      · obtain ⟨cs, h⟩ := List.head?_eq_some_iff.mp h
        rw [h] at hus
        cases hus
    | some us =>
      rw [Option.map_some, Option.bind_some, follow?_append]
      refine congrArg _ (funext fun u => ?_)
      rw [select?, hus, Option.bind_some]

end Exemplar.Json.Pointer
