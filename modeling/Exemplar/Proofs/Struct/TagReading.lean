import Exemplar.Generate
import Exemplar.Proofs.Shape.Depth
import Exemplar.Proofs.Struct.Literal

/-!
# Tags as decoders read them

A decoder takes the text that a tag gives for JSON apart at its commas: the name of the member comes
first and the options follow.  The main statement: the name is the key of the field exactly if the
key has no comma, and two fields have one tag exactly if their keys with the options behind them
are one text.
-/

namespace Exemplar.Struct

/-- The text that a tag gives for JSON: the value of the tag is `json:` with one more literal behind
it, in quotes. -/
def jsonText? (t : List Char) : Option (List Char) := do
  let value ← literalValue? t
  if "json:\"".toList.isPrefixOf value then literalValue? (value.drop "json:".length) else none

/-- What a tag says about a member. -/
structure TagReading where
  name : List Char
  options : List (List Char)

/-- Reads a tag: its text up to the first comma is a name, and what stands between the further
commas are options. -/
def readTag? (t : List Char) : Option TagReading :=
  (jsonText? t).bind fun text =>
    match Text.split ',' text with
    | [] => none
    | name :: options => some { name, options }

/-! ## Texts of tags -/

private theorem jsonText?_tag (key : List Char) (quoted : Bool) :
    jsonText? (tag key quoted) = some (key ++ quotedOption quoted) := by
  have hlabel : "json:\"".toList = ['j', 's', 'o', 'n', ':', '"'] := rfl
  have hlength : "json:".length = 5 := rfl
  have hinner := literalValue?_interpreted (escape (key ++ quotedOption quoted))
  rw [unescape?_escape] at hinner
  rw [jsonText?, literalValue?_tag, tagValue_eq, hlabel, hlength]
  exact hinner

private theorem tag_eq_tag_iff {key key' : List Char} {quoted quoted' : Bool} :
    tag key quoted = tag key' quoted' ↔
      key ++ quotedOption quoted = key' ++ quotedOption quoted' := by
  constructor
  · intro h
    have htext := congrArg jsonText? h
    rwa [jsonText?_tag, jsonText?_tag, Option.some.injEq] at htext
  · intro h
    rw [tag, tag, tagValue_eq, tagValue_eq, h]

private theorem split_append_quotedOption (key : List Char) (quoted : Bool) :
    Text.split ',' (key ++ quotedOption quoted) =
      Text.split ',' key ++ if quoted then ["string".toList] else [] := by
  cases quoted with
  | false =>
    change Text.split ',' (key ++ []) = Text.split ',' key ++ []
    rw [List.append_nil, List.append_nil]
  | true => exact Text.split_append_separator ',' key "string".toList

private theorem exists_readTag?_tag (key : List Char) (quoted : Bool) :
    ∃ name pieces, Text.split ',' key = name :: pieces ∧
      readTag? (tag key quoted) =
        some { name, options := pieces ++ if quoted then ["string".toList] else [] } := by
  obtain ⟨name, pieces, hsplit⟩ := List.exists_cons_of_ne_nil (Text.split_ne_nil ',' key)
  refine ⟨name, pieces, hsplit, ?_⟩
  rw [readTag?, jsonText?_tag, Option.bind_some, split_append_quotedOption, hsplit]
  rfl

private theorem eq_key_iff {key name : List Char} {pieces : List (List Char)}
    (hsplit : Text.split ',' key = name :: pieces) : name = key ↔ ',' ∉ key := by
  constructor
  · rintro rfl
    exact Text.separator_notMem_of_mem_split (hsplit ▸ List.mem_cons_self)
  · intro h
    rw [Text.split_eq_self h, List.cons.injEq] at hsplit
    exact hsplit.1.symm

private theorem append_quotedOption_eq_iff {key key' : String} {quoted quoted' : Bool} :
    key.toList ++ quotedOption quoted = key'.toList ++ quotedOption quoted' ↔
      (key = key' ∧ quoted = quoted') ∨
        (quoted = false ∧ quoted' = true ∧ key = key' ++ ",string") ∨
        (quoted = true ∧ quoted' = false ∧ key' = key ++ ",string") := by
  have hnone : quotedOption false = [] := rfl
  have hoption : ∀ a b : String, a.toList = b.toList ++ quotedOption true ↔ a = b ++ ",string" := by
    intro a b
    rw [← String.toList_inj, String.toList_append]
    rfl
  cases quoted <;> cases quoted'
  case false.false => simp [hnone, String.toList_inj]
  case true.true => simp [String.toList_inj]
  case false.true => simp [hnone, hoption]
  case true.false => simp [hnone, hoption, eq_comm (b := key'.toList)]

/-- The tag of a field is read with the key for a name exactly if the key has no comma, and with
the option `string` exactly if the field is quoted or a piece of the key behind a comma is that
word.  Two fields have one tag exactly if they agree in key and quoting, or if one is quoted and
the other one has its key with `,string` at the end. -/
theorem tag_reading_and_eq_iff (f g : Field) :
    (∃ r, readTag? (tag f.key.toList f.quoted) = some r ∧
      (r.name = f.key.toList ↔ ',' ∉ f.key.toList) ∧
      ("string".toList ∈ r.options ↔
        f.quoted = true ∨ "string".toList ∈ (Text.split ',' f.key.toList).tail)) ∧
    (tag f.key.toList f.quoted = tag g.key.toList g.quoted ↔
      (f.key = g.key ∧ f.quoted = g.quoted) ∨
        (f.quoted = false ∧ g.quoted = true ∧ f.key = g.key ++ ",string") ∨
        (f.quoted = true ∧ g.quoted = false ∧ g.key = f.key ++ ",string")) := by
  refine ⟨?_, tag_eq_tag_iff.trans append_quotedOption_eq_iff⟩
  obtain ⟨name, pieces, hsplit, hread⟩ := exists_readTag?_tag f.key.toList f.quoted
  refine ⟨_, hread, eq_key_iff hsplit, ?_⟩
  rw [hsplit, List.tail_cons, List.mem_append, or_comm]
  refine or_congr_left ?_
  cases f.quoted <;> simp

/-- A document with a quoted number, and a key that looks like the tag of that. -/
def optionDocument : Json.Value :=
  .object [("a", .string "1"), ("a,string", .number (.integer 2 (by decide)))]

/-- The two fields have one tag, which names the key of the first and calls the number of the second
quoted. -/
theorem tag_reading_ambiguous :
    ∃ model f g, infer {} optionDocument = .ok model ∧
      f ∈ model.root.deepFields ∧ g ∈ model.root.deepFields ∧
      f.key = "a" ∧ f.quoted = true ∧ g.key = "a,string" ∧ g.quoted = false ∧
      tag f.key.toList f.quoted = tag g.key.toList g.quoted ∧
      readTag? (tag g.key.toList g.quoted) =
        some { name := "a".toList, options := ["string".toList] } ∧
      generateFromValue optionDocument .go { format := false } =
        .ok ("type Config struct \x7b\nA int64 \x60json:\"a,string\"\x60 // 1\n" ++
          "AString int64 \x60json:\"a,string\"\x60 // 2\n\x7d\n") := by
  have hsame : tag "a".toList true = tag "a,string".toList false := by decide +kernel
  refine ⟨_, _, _, rfl, List.mem_cons_self, List.mem_cons_of_mem _ List.mem_cons_self, rfl, rfl,
    rfl, rfl, hsame, ?read, ?generated⟩
  case read =>
    obtain ⟨name, pieces, hsplit, hread⟩ := exists_readTag?_tag "a".toList true
    have hpieces : ["a".toList] = name :: pieces := hsplit
    obtain ⟨rfl, rfl⟩ := List.cons.inj hpieces
    exact hsame ▸ hread
  case generated => decide +kernel

end Exemplar.Struct
