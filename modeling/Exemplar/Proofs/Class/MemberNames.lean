import Exemplar.Class.Dialect
import Exemplar.Proofs.Ident.Words
import Exemplar.Proofs.Ident.WellFormed

/-!
# Names of members

A member is named as its identifier with a small letter at the start, and with an underscore at the
end if that is a reserved word.  Neither brings the identifiers of two ASCII keys together: they
never begin with a small letter, and an underscore stands at their start only.  The main statement:
members of different identifiers have different names, and no name is a reserved word.
-/

namespace Exemplar

/-! ## Lower case at the start of a text -/

namespace Text

private theorem forall_ascii {P : Char → Prop} (h : ∀ n < 128, P (Char.ofNat n)) {c : Char}
    (hc : c.toNat < 128) : P c := by
  have hc := h c.toNat hc
  rwa [Char.ofNat_toNat] at hc

/-- Whether a character belongs to ASCII and is none of its small letters. -/
def IsLarge (c : Char) : Prop :=
  c.toNat < 128 ∧ ¬ ('a'.toNat ≤ c.toNat ∧ c.toNat ≤ 'z'.toNat)

instance : DecidablePred IsLarge := fun c =>
  inferInstanceAs (Decidable (c.toNat < 128 ∧ ¬ ('a'.toNat ≤ c.toNat ∧ c.toNat ≤ 'z'.toNat)))

private theorem isLarge_of_mem_toUpper {c d : Char} (hc : c.toNat < 128) (hd : d ∈ toUpper c) :
    IsLarge d := by
  have hall := @forall_ascii (fun c => (toUpper c).all fun d => decide (IsLarge d))
    (by decide +kernel) c hc
  exact of_decide_eq_true (List.all_eq_true.mp hall d hd)

private theorem upperFirst_lowerFirst {cs : List Char} (h : ∀ c ∈ cs.head?, IsLarge c) :
    upperFirst (lowerFirst cs) = cs := by
  cases cs with
  | nil => rfl
  | cons c cs =>
    obtain ⟨hascii, hlarge⟩ := h c rfl
    obtain ⟨hlength, hupper⟩ := @forall_ascii
      (fun c => ¬ ('a'.toNat ≤ c.toNat ∧ c.toNat ≤ 'z'.toNat) →
        (toLower c).length = 1 ∧ (toLower c).flatMap toUpper = [c])
      (by decide +kernel) c hascii hlarge
    obtain ⟨d, hlower⟩ := List.length_eq_one_iff.mp hlength
    rw [hlower, List.flatMap_singleton] at hupper
    rw [lowerFirst, hlower, List.singleton_append, upperFirst, hupper, List.singleton_append]

private theorem tail_lowerFirst {cs : List Char} (h : ∀ c ∈ cs.head?, c.toNat < 128) :
    (lowerFirst cs).tail = cs.tail := by
  cases cs with
  | nil => rfl
  | cons c cs =>
    have hlength : (toLower c).length = 1 :=
      @forall_ascii (fun c => (toLower c).length = 1) (by decide +kernel) c (h c rfl)
    obtain ⟨d, hlower⟩ := List.length_eq_one_iff.mp hlength
    rw [lowerFirst, hlower]
    rfl

end Text

/-! ## Identifiers -/

namespace Ident

private theorem underscore_notMem_capitalized (cs : List Char) :
    '_' ∉ capitalizeAcronyms ((words cs).flatMap Text.upperFirst) := by
  intro h
  rcases mem_of_mem_capitalizeAcronyms h with ⟨p, hp, hc⟩ | hc
  · have hnot : ∀ p ∈ acronyms, '_' ∉ p.2 := by decide
    exact hnot p hp hc
  · obtain ⟨w, hw, hc⟩ := List.mem_flatMap.mp hc
    have hword {c : Char} : c ∈ w → Text.isWordChar c = true := isWordChar_of_mem_words hw
    cases w with
    | nil => cases hc
    | cons c w =>
      rcases List.mem_append.mp hc with hc | hc
      · exact Text.underscore_notMem_toUpper (hword List.mem_cons_self) hc
      · have hnot : Text.isWordChar '_' = false := by decide +kernel
        rw [hword (List.mem_cons_of_mem c hc)] at hnot
        cases hnot

private theorem underscore_notMem_tail (cs : List Char) : '_' ∉ (ofKeyChars cs).tail := by
  have hjoined := underscore_notMem_capitalized cs
  rw [ofKeyChars]
  split
  · exact fun h => hjoined (List.mem_of_mem_tail h)
  · exact hjoined

private theorem isLarge_head_ofKeyChars {cs : List Char} (h : ∀ c ∈ cs, c.toNat < 128) :
    ∀ c ∈ (ofKeyChars cs).head?, Text.IsLarge c := by
  intro d hd
  rw [ofKeyChars] at hd
  split at hd
  · cases hwords : words cs with
    | nil =>
      rw [hwords] at hd
      cases hd
    | cons w ws =>
      have hw : w ∈ words cs := hwords ▸ List.mem_cons_self
      obtain ⟨c, w, rfl⟩ := List.exists_cons_of_ne_nil (ne_nil_of_mem_words hw)
      rw [head?_capitalized hwords] at hd
      exact Text.isLarge_of_mem_toUpper (h c (mem_of_mem_words hw List.mem_cons_self))
        (List.mem_of_mem_head? hd)
  · obtain rfl := Option.some.inj hd
    decide

end Ident

/-! ## Members -/

namespace Class.Dialect

/-- The characters of the identifier that a member is named for: the name without the underscore
behind a reserved word, and in upper case at its start. -/
def identOf (member : List Char) : List Char :=
  Text.upperFirst (if '_' ∈ member.tail then member.dropLast else member)

private theorem reservedWords_marked (d : Dialect) :
    ∀ word ∈ d.reservedWords, word ≠ "" ∧ word ++ "_" ∉ d.reservedWords := by
  cases d with
  | java package =>
    have hwords : (java package).reservedWords = (java "").reservedWords := rfl
    rw [hwords]
    decide +kernel
  | typescript => decide +kernel

/-- The name of a member tells its identifier. -/
theorem identOf_memberName (d : Dialect) {cs : List Char}
    (hlarge : ∀ c ∈ cs.head?, Text.IsLarge c) (hunderscore : '_' ∉ cs.tail) :
    identOf (d.memberName (String.ofList cs)).toList = cs := by
  have hplain : (Ident.lowerFirst (String.ofList cs)).toList = Text.lowerFirst cs := by
    rw [Ident.lowerFirst, String.toList_ofList, String.toList_ofList]
  have htail : (Text.lowerFirst cs).tail = cs.tail :=
    Text.tail_lowerFirst fun c hc => (hlarge c hc).1
  rw [memberName, identOf]
  split
  · next hreserved =>
    have hne : Text.lowerFirst cs ≠ [] := by
      intro hnil
      rw [hnil, String.toList_eq_nil_iff] at hplain
      exact (d.reservedWords_marked _ hreserved).1 hplain
    have hmark : '_' ∈ (Text.lowerFirst cs ++ ['_']).tail := by
      rw [List.tail_append_of_ne_nil hne]
      exact List.mem_append_right _ List.mem_cons_self
    have hmember : (Ident.lowerFirst (String.ofList cs) ++ "_").toList =
        Text.lowerFirst cs ++ ['_'] := by
      rw [String.toList_append, hplain]
      rfl
    rw [hmember, if_pos hmark, List.dropLast_concat]
    exact Text.upperFirst_lowerFirst hlarge
  · rw [hplain, if_neg (by rwa [htail])]
    exact Text.upperFirst_lowerFirst hlarge

/-- No member is named by a reserved word. -/
theorem memberName_notMem_reservedWords (d : Dialect) (ident : String) :
    d.memberName ident ∉ d.reservedWords := by
  rw [memberName]
  split
  · next hreserved => exact (d.reservedWords_marked _ hreserved).2
  · next hplain => exact hplain

/-- The members of two keys of ASCII characters have different names if the keys have different
identifiers, and no member has a reserved word for its name. -/
theorem memberName_distinct (d : Dialect) :
    (∀ key other : String, (∀ c ∈ key.toList, c.toNat < 128) → (∀ c ∈ other.toList, c.toNat < 128) →
      Ident.ofKey key ≠ Ident.ofKey other →
        d.memberName (Ident.ofKey key) ≠ d.memberName (Ident.ofKey other)) ∧
      ∀ key : String, d.memberName (Ident.ofKey key) ∉ d.reservedWords := by
  refine ⟨fun key other hkey hother hne heq => hne ?_,
    fun key => d.memberName_notMem_reservedWords (Ident.ofKey key)⟩
  have htold {key : String} (hkey : ∀ c ∈ key.toList, c.toNat < 128) :
      identOf (d.memberName (Ident.ofKey key)).toList = Ident.ofKeyChars key.toList :=
    d.identOf_memberName (Ident.isLarge_head_ofKeyChars hkey)
      (Ident.underscore_notMem_tail key.toList)
  rw [Ident.ofKey, Ident.ofKey, ← htold hkey, ← htold hother, heq]

/-- The keys `class` and `$class` in Java: the underscores behind the reserved word and before the
other name keep them apart. -/
theorem memberName_distinct_class :
    Ident.ofKey "class" = "Class" ∧ Ident.ofKey "$class" = "_Class" ∧
      (java "").memberName "Class" = "class_" ∧ (java "").memberName "_Class" = "_Class" ∧
      (java "").memberName (Ident.ofKey "class") ≠ (java "").memberName (Ident.ofKey "$class") :=
  ⟨by decide +kernel, by decide +kernel, by decide +kernel, by decide +kernel,
    (memberName_distinct (java "")).1 "class" "$class" (by simp) (by simp) (by decide +kernel)⟩

end Class.Dialect

end Exemplar
