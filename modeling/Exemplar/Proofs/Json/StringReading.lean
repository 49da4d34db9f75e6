import Exemplar.Proofs.Json.Grammar
import Exemplar.Proofs.Outcome
import Exemplar.Proofs.Text.Utf8

/-!
# Reading strings

The reader of strings against their grammar.  The main statement: it reads a string off some bytes
exactly when they begin with the text of that string, and leaves what follows.
-/

namespace Exemplar.Json

/-! ## What is read is the text of a string -/

/-- Whether bytes are what the reader of a string has of the part that it is in: nothing between
characters, else the beginning of an escape. -/
def Pending : StringMode → List UInt8 → Prop
  | .plain, read => read = []
  | .escape, read => read = ['\\'.toUInt8]
  | .hex none digits, read =>
    read = '\\'.toUInt8 :: 'u'.toUInt8 :: digits ∧ digits.length < 4
  | .hex (some lead) digits, read => ∃ high, IsHex4 high lead ∧ 0xD800 ≤ lead ∧ lead ≤ 0xDBFF ∧
      read = '\\'.toUInt8 :: 'u'.toUInt8 :: (high ++ '\\'.toUInt8 :: 'u'.toUInt8 :: digits) ∧
        digits.length < 4
  | .pairBackslash lead, read => ∃ high, IsHex4 high lead ∧ 0xD800 ≤ lead ∧ lead ≤ 0xDBFF ∧
      read = '\\'.toUInt8 :: 'u'.toUInt8 :: high
  | .pairLetter lead, read => ∃ high, IsHex4 high lead ∧ 0xD800 ≤ lead ∧ lead ≤ 0xDBFF ∧
      read = '\\'.toUInt8 :: 'u'.toUInt8 :: (high ++ ['\\'.toUInt8])

/-- Whether a part of a string is complete with a byte: whatever content follows, the part and the
content are the text of the bytes that they mean. -/
def Completes (read meant : List UInt8) : Prop :=
  ∀ written rest, ContentText written rest → ContentText (read ++ written) (meant ++ rest)

private theorem hexEscape_cases {lead : Option Nat} {digits read out : List UInt8} {b : UInt8}
    {n : Nat}
    {next : StringMode} (hread : Pending (.hex lead digits) read) (hlength : ¬ digits.length < 3)
    (hn : hexNumber? (digits ++ [b]) = some n) (h : hexEscape lead n = .ok (out, next)) :
    (out = [] ∧ Pending next (read ++ [b])) ∨ (next = .plain ∧ Completes (read ++ [b]) out) := by
  cases lead with
  | none =>
    obtain ⟨rfl, hless⟩ := hread
    have hhex : IsHex4 (digits ++ [b]) n := ⟨by simp; omega, hn⟩
    rw [hexEscape] at h
    split at h
    · cases h
    · next hlow =>
      split at h
      · next hhigh =>
        obtain ⟨rfl, rfl⟩ := Prod.mk.inj (Except.ok.inj h)
        exact .inl ⟨rfl, digits ++ [b], hhex, hhigh.1, hhigh.2, rfl⟩
      · next hhigh =>
        obtain ⟨rfl, rfl⟩ := Prod.mk.inj (Except.ok.inj h)
        refine .inr ⟨rfl, fun written rest hrest => ?_⟩
        have htext := ContentText.unicode hhex (by omega) hrest
        simpa using htext
  | some high =>
    obtain ⟨first, hfirst, hlead, hlead', rfl, hless⟩ := hread
    have hhex : IsHex4 (digits ++ [b]) n := ⟨by simp; omega, hn⟩
    rw [hexEscape] at h
    split at h
    · next hlow =>
      obtain ⟨rfl, rfl⟩ := Prod.mk.inj (Except.ok.inj h)
      refine .inr ⟨rfl, fun written rest hrest => ?_⟩
      have htext := ContentText.pair hfirst ⟨hlead, hlead'⟩ hhex hlow hrest
      simpa using htext
    · cases h

private theorem stringStep_cases {mode next : StringMode} {b : UInt8} {read out : List UInt8}
    (hread : Pending mode read) (hquote : ¬ (b = '"'.toUInt8 ∧ mode.isPlain))
    (h : stringStep mode b = .ok (out, next)) :
    (out = [] ∧ Pending next (read ++ [b])) ∨ (next = .plain ∧ Completes (read ++ [b]) out) := by
  cases mode with
  | plain =>
    obtain rfl : read = [] := hread
    rw [stringStep] at h
    split at h
    · next hb =>
      obtain ⟨rfl, rfl⟩ := Prod.mk.inj (Except.ok.inj h)
      exact .inl ⟨rfl, by rw [hb]; rfl⟩
    · next hb =>
      split at h
      · cases h
      · next hcontrol =>
        obtain ⟨rfl, rfl⟩ := Prod.mk.inj (Except.ok.inj h)
        exact .inr ⟨rfl, fun written rest => .byte (fun hb => hquote ⟨hb, rfl⟩) hb hcontrol⟩
  | escape =>
    obtain rfl : read = ['\\'.toUInt8] := hread
    rw [stringStep] at h
    split at h
    · next hb =>
      obtain ⟨rfl, rfl⟩ := Prod.mk.inj (Except.ok.inj h)
      exact .inl ⟨rfl, by rw [hb]; rfl, by decide⟩
    · split at h
      · next x hx =>
        obtain ⟨rfl, rfl⟩ := Prod.mk.inj (Except.ok.inj h)
        exact .inr ⟨rfl, fun written rest => .escape hx⟩
      · cases h
  | hex lead digits =>
    rw [stringStep] at h
    split at h
    · next hless =>
      obtain ⟨rfl, rfl⟩ := Prod.mk.inj (Except.ok.inj h)
      refine .inl ⟨rfl, ?_⟩
      cases lead with
      | none =>
        obtain ⟨rfl, -⟩ := hread
        exact ⟨by simp, by simp; omega⟩
      | some lead =>
        obtain ⟨high, hhigh, hlead, hlead', rfl, -⟩ := hread
        exact ⟨high, hhigh, hlead, hlead', by simp, by simp; omega⟩
    · next hlength =>
      split at h
      · next n hn => exact hexEscape_cases hread hlength hn h
      · cases h
  | pairBackslash lead =>
    obtain ⟨high, hhigh, hlead, hlead', rfl⟩ := hread
    rw [stringStep] at h
    split at h
    · next hb =>
      obtain ⟨rfl, rfl⟩ := Prod.mk.inj (Except.ok.inj h)
      exact .inl ⟨rfl, high, hhigh, hlead, hlead', by rw [hb]; rfl⟩
    · cases h
  | pairLetter lead =>
    obtain ⟨high, hhigh, hlead, hlead', rfl⟩ := hread
    rw [stringStep] at h
    split at h
    · next hb =>
      obtain ⟨rfl, rfl⟩ := Prod.mk.inj (Except.ok.inj h)
      exact .inl ⟨rfl, high, hhigh, hlead, hlead', by rw [hb]; simp, by decide⟩
    · cases h

private theorem contentText_of_readContent {mode : StringMode}
    {read bytes content rest : List UInt8}
    (hread : Pending mode read) (h : readContent mode bytes = .ok (content, rest)) :
    ∃ written, bytes = written ++ '"'.toUInt8 :: rest ∧ ContentText (read ++ written) content := by
  induction bytes generalizing mode read content with
  | nil => cases h
  | cons b bytes ih =>
    rw [readContent] at h
    split at h
    · next hquote =>
      obtain ⟨rfl, rfl⟩ := Prod.mk.inj (Except.ok.inj h)
      cases mode with
      | plain =>
        obtain rfl : read = [] := hread
        exact ⟨[], by rw [hquote.1]; rfl, .nil⟩
      | escape | hex _ _ | pairBackslash _ | pairLetter _ => cases hquote.2
    · next hquote =>
      split at h
      · cases h
      · next out next hstep =>
        obtain ⟨⟨content', rest'⟩, hrest, hp⟩ := map_eq_ok_iff.mp h
        obtain ⟨rfl, rfl⟩ := Prod.mk.inj hp
        rcases stringStep_cases hread hquote hstep with ⟨rfl, hnext⟩ | ⟨rfl, hcompletes⟩
        · obtain ⟨written, rfl, hwritten⟩ := ih hnext hrest
          refine ⟨b :: written, rfl, ?_⟩
          rwa [List.append_assoc] at hwritten
        · have hplain : Pending .plain [] := rfl
          obtain ⟨written, rfl, hwritten⟩ := ih hplain hrest
          refine ⟨b :: written, rfl, ?_⟩
          have hall := hcompletes _ _ hwritten
          rwa [List.append_assoc] at hall

/-! ## The text of a string is read -/

/-- Puts bytes in front of the content that is read. -/
def prepend (out : List UInt8) (p : List UInt8 × List UInt8) : List UInt8 × List UInt8 :=
  (out ++ p.1, p.2)

private theorem readContent_cons {mode next : StringMode} {b : UInt8} {out : List UInt8}
    (hquote : ¬ (b = '"'.toUInt8 ∧ mode.isPlain)) (h : stringStep mode b = .ok (out, next))
    (rest : List UInt8) :
    readContent mode (b :: rest) = (readContent next rest).map (prepend out) := by
  rw [readContent, if_neg hquote, h]
  rfl

private theorem readContent_inside {mode : StringMode} {b : UInt8} (next : StringMode)
    (hmode : mode.isPlain = false) (h : stringStep mode b = .ok ([], next)) (rest : List UInt8) :
    readContent mode (b :: rest) = readContent next rest := by
  have hquote : ¬ (b = '"'.toUInt8 ∧ mode.isPlain) := by
    rw [hmode]
    rintro ⟨-, h⟩
    cases h
  rw [readContent_cons hquote h]
  cases readContent next rest <;> rfl

private theorem readContent_backslash (rest : List UInt8) :
    readContent .plain ('\\'.toUInt8 :: rest) = readContent .escape rest := by
  have hstep : stringStep .plain '\\'.toUInt8 = .ok ([], .escape) := rfl
  rw [readContent_cons (by decide) hstep]
  cases readContent .escape rest <;> rfl

private theorem readContent_hex4 {digits out : List UInt8} {n : Nat} {lead : Option Nat}
    {next : StringMode} (hhex : IsHex4 digits n) (h : hexEscape lead n = .ok (out, next))
    (rest : List UInt8) :
    readContent (.hex lead []) (digits ++ rest) = (readContent next rest).map (prepend out) := by
  obtain ⟨hlength, hn⟩ := hhex
  match digits, hlength with
  | [d₁, d₂, d₃, d₄], _ =>
    have hlast : stringStep (.hex lead [d₁, d₂, d₃]) d₄ = .ok (out, next) := by
      have hnumber : hexNumber? ([d₁, d₂, d₃] ++ [d₄]) = some n := hn
      have hfull : ¬ [d₁, d₂, d₃].length < 3 := by simp
      rw [stringStep, if_neg hfull, hnumber]
      exact h
    change readContent (.hex lead []) (d₁ :: d₂ :: d₃ :: d₄ :: rest) = _
    rw [readContent_inside (.hex lead [d₁]) rfl rfl,
      readContent_inside (.hex lead [d₁, d₂]) rfl rfl,
      readContent_inside (.hex lead [d₁, d₂, d₃]) rfl rfl,
      readContent_cons (by rintro ⟨-, h⟩; cases h) hlast]

private theorem readContent_unicode {digits out : List UInt8} {n : Nat} {next : StringMode}
    (hhex : IsHex4 digits n) (h : hexEscape none n = .ok (out, next)) (rest : List UInt8) :
    readContent .plain ('\\'.toUInt8 :: 'u'.toUInt8 :: (digits ++ rest)) =
      (readContent next rest).map (prepend out) := by
  rw [readContent_backslash, readContent_inside (.hex none []) rfl rfl, readContent_hex4 hhex h]

private theorem readContent_second {digits out : List UInt8} {lead n : Nat} {next : StringMode}
    (hhex : IsHex4 digits n) (h : hexEscape (some lead) n = .ok (out, next))
    (rest : List UInt8) :
    readContent (.pairBackslash lead) ('\\'.toUInt8 :: 'u'.toUInt8 :: (digits ++ rest)) =
      (readContent next rest).map (prepend out) := by
  rw [readContent_inside (.pairLetter lead) rfl rfl,
    readContent_inside (.hex (some lead) []) rfl rfl, readContent_hex4 hhex h]

private theorem readContent_of_contentText {written content : List UInt8}
    (h : ContentText written content) (rest : List UInt8) :
    readContent .plain (written ++ '"'.toUInt8 :: rest) = .ok (content, rest) := by
  have hmap (out : List UInt8) (p : List UInt8 × List UInt8) :
      Except.map (prepend out) (.ok p : Except Fault _) = .ok (prepend out p) := rfl
  induction h with
  | nil => rfl
  | @byte b written meant hquote hbackslash hcontrol _ ih =>
    have hstep : stringStep .plain b = .ok ([b], .plain) := by
      rw [stringStep, if_neg hbackslash, if_neg hcontrol]
    rw [List.cons_append, readContent_cons (fun h => hquote h.1) hstep, ih, hmap]
    rfl
  | @escape b x written meant hx _ ih =>
    have hletter : b ≠ 'u'.toUInt8 := by
      rintro rfl
      cases hx
    have hstep : stringStep .escape b = .ok ([x], .plain) := by
      rw [stringStep, if_neg hletter, hx]
    rw [List.cons_append, List.cons_append, readContent_backslash,
      readContent_cons (by rintro ⟨-, h⟩; cases h) hstep, ih, hmap]
    rfl
  | @unicode digits written meant n hhex hscalar _ ih =>
    have hescape : hexEscape none n = .ok (Text.Utf8.encode [Char.ofNat n], .plain) := by
      rw [hexEscape, if_neg (by omega), if_neg (by omega)]
    rw [List.cons_append, List.cons_append, List.append_assoc,
      readContent_unicode hhex hescape, ih, hmap, prepend]
  | @pair high low written meant m n hfirst hlead hsecond htrail _ ih =>
    have hhigh : hexEscape none m = .ok ([], .pairBackslash m) := by
      rw [hexEscape, if_neg (by omega), if_pos hlead]
    have hlow : hexEscape (some m) n = .ok (Text.Utf8.encode
        [Char.ofNat ((m - 0xD800) * 0x400 + (n - 0xDC00) + 0x10000)], .plain) := by
      rw [hexEscape, if_pos htrail]
    rw [List.cons_append, List.cons_append, List.append_assoc, readContent_unicode hfirst hhigh,
      List.cons_append, List.cons_append, List.append_assoc, readContent_second hsecond hlow, ih,
      hmap, hmap, prepend, prepend, List.nil_append]

/-- A string is read off bytes exactly when they begin with its text behind the opening quote. -/
theorem readString_eq_ok_iff {bytes rest : List UInt8} {s : String} :
    readString bytes = .ok (s, rest) ↔
      ∃ text, StringText text s ∧ '"'.toUInt8 :: bytes = text ++ rest := by
  constructor
  · intro h
    obtain ⟨⟨content, rest'⟩, hcontent, hend⟩ := bind_eq_ok_iff.mp h
    have hplain : Pending .plain [] := rfl
    obtain ⟨written, rfl, hwritten⟩ := contentText_of_readContent hplain hcontent
    have hdecode := Text.Utf8.encode_decode content
    simp only at hend
    split at hend
    · next cs hcs =>
      obtain ⟨rfl, rfl⟩ := Prod.mk.inj (Except.ok.inj hend)
      rw [hcs, List.append_nil] at hdecode
      refine ⟨_, ⟨written, ?_, rfl⟩, by simp⟩
      rwa [String.toList_ofList, hdecode]
    · cases hend
  · rintro ⟨text, ⟨written, hwritten, rfl⟩, hbytes⟩
    have hbytes : bytes = written ++ '"'.toUInt8 :: rest := by simpa using hbytes
    rw [hbytes]
    refine bind_eq_ok_iff.mpr ⟨_, readContent_of_contentText hwritten rest, ?_⟩
    simp only [Text.Utf8.decode_encode, String.ofList_toList]

end Exemplar.Json
