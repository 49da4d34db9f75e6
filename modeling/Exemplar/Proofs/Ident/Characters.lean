import Exemplar.Ident

/-!
# The characters of identifiers

An identifier is made of letters, numbers and underscores, and of the characters that upper case
turns them into.  None of them is blank, and the ASCII ones are letters, digits and underscores, so
an identifier holds nothing that quotes, separates or ends anything in generated code.
-/

namespace Exemplar.Text

/-! ## Plain characters -/

/-- Whether a character is neither blank nor an ASCII character other than a letter, a digit and
the underscore. -/
def isPlain (c : Char) : Bool :=
  !isBlank c && (decide (0x80 ≤ c.toNat) || c.isAlphanum || c == '_')

/-- A plain character is not blank. -/
theorem not_isBlank_of_isPlain {c : Char} (h : isPlain c) : isBlank c = false := by
  rw [isPlain, Bool.and_eq_true] at h
  simpa using h.1

private theorem isAlphanum_iff_toNat {c : Char} :
    c.isAlphanum ↔ ((65 ≤ c.toNat ∧ c.toNat ≤ 90) ∨ (97 ≤ c.toNat ∧ c.toNat ≤ 122)) ∨
      (48 ≤ c.toNat ∧ c.toNat ≤ 57) := by
  have halphanum : c.isAlphanum = ((decide ('A'.val ≤ c.val ∧ c.val ≤ 'Z'.val) ||
      decide ('a'.val ≤ c.val) && decide (c.val ≤ 'z'.val)) ||
      decide ('0'.val ≤ c.val) && decide (c.val ≤ '9'.val)) := rfl
  simp only [halphanum, Bool.or_eq_true, Bool.and_eq_true, decide_eq_true_eq,
    UInt32.le_iff_toNat_le]
  exact Iff.rfl

/-- The letters and digits of ASCII, and the underscore, are plain. -/
theorem isPlain_of_isAlphanum {c : Char} (h : c.isAlphanum ∨ c = '_') : isPlain c := by
  rcases h with h | rfl
  · have hblank : isBlank c = false := by
      rw [isAlphanum_iff_toNat] at h
      simp only [isBlank, Bool.or_eq_false_iff, Bool.and_eq_false_iff, decide_eq_false_iff_not,
        beq_eq_false_iff_ne]
      omega
    simp [isPlain, hblank, h]
  · decide

-- The blanks as ranges of code points.
private def blankRanges : List (Nat × Nat) :=
  [(0x09, 0x0D), (0x20, 0x20), (0x85, 0x85), (0xA0, 0xA0), (0x1680, 0x1680), (0x2000, 0x200A),
   (0x2028, 0x2029), (0x202F, 0x202F), (0x205F, 0x205F), (0x3000, 0x3000)]

-- The letters and digits of ASCII as ranges of code points.
private def asciiRanges : List (Nat × Nat) :=
  [(0x30, 0x39), (0x41, 0x5A), (0x61, 0x7A)]

-- Whether a range of code points lies apart from the blanks, and behind ASCII or within its letters
-- or digits.
private def isPlainRange (r : Nat × Nat) : Bool :=
  blankRanges.all (fun b => b.2 < r.1 || r.2 < b.1) &&
    (0x80 ≤ r.1 || asciiRanges.any fun a => a.1 ≤ r.1 && r.2 ≤ a.2)

private theorem isPlain_of_isPlainRange {r : Nat × Nat} (h : isPlainRange r) {c : Char}
    (hc : r.1 ≤ c.toNat ∧ c.toNat ≤ r.2) : isPlain c := by
  simp only [isPlainRange, Bool.and_eq_true, Bool.or_eq_true, List.all_eq_true, List.any_eq_true,
    decide_eq_true_eq] at h
  obtain ⟨hblank, hascii⟩ := h
  have hnot : isBlank c = false := by
    simp only [blankRanges, List.forall_mem_cons] at hblank
    simp only [isBlank, Bool.or_eq_false_iff, Bool.and_eq_false_iff, decide_eq_false_iff_not,
      beq_eq_false_iff_ne]
    omega
  have hletter : 0x80 ≤ c.toNat ∨ c.isAlphanum := by
    rcases hascii with hbehind | ⟨a, ha, hwithin⟩
    · exact .inl (by omega)
    · right
      simp only [asciiRanges, List.mem_cons, List.not_mem_nil, or_false] at ha
      rw [isAlphanum_iff_toNat]
      rcases ha with rfl | rfl | rfl <;> simp only at hwithin <;> omega
  rw [isPlain, hnot]
  rcases hletter with h | h <;> simp [h]

private theorem isPlain_of_isWordChar {c : Char} (h : isWordChar c = true) : isPlain c := by
  have hletters : letterRanges.all isPlainRange = true := by decide +kernel
  have hnumbers : numberRanges.all isPlainRange = true := by decide +kernel
  rw [isWordChar, Bool.or_eq_true] at h
  rcases h with h | h
  · obtain ⟨r, hr, hc⟩ := exists_range_of_covers h
    exact isPlain_of_isPlainRange (List.all_eq_true.mp hletters r hr) hc
  · obtain ⟨r, hr, hc⟩ := exists_range_of_covers h
    exact isPlain_of_isPlainRange (List.all_eq_true.mp hnumbers r hr) hc

/-! ## Upper case -/

/-- The code points that a run maps. -/
def CaseRun.source (r : CaseRun) : Nat × Nat :=
  (r.first, r.last)

/-- The code points that a run maps to. -/
def CaseRun.image (r : CaseRun) : Nat × Nat :=
  (r.target, r.target + (r.last - r.first))

/-- A list of runs maps a code point from the source of one of them into its image. -/
theorem exists_run_of_find? {runs : List CaseRun} {n m : Nat}
    (h : CaseRun.find? runs n = some m) :
    ∃ r ∈ runs, (r.source.1 ≤ n ∧ n ≤ r.source.2) ∧ r.image.1 ≤ m ∧ m ≤ r.image.2 := by
  induction runs with
  | nil => cases h
  | cons r rs ih =>
    rw [CaseRun.find?] at h
    split at h
    · cases h
    · next hfirst =>
      split at h
      · next hlast =>
        split at h
        · obtain rfl := Option.some.inj h
          exact ⟨r, List.mem_cons_self, ⟨Nat.le_of_not_lt hfirst, hlast⟩, Nat.le_add_right _ _,
            Nat.add_le_add_left (by omega) _⟩
        · cases h
      · obtain ⟨s, hs, hm⟩ := ih h
        exact ⟨s, List.mem_cons_of_mem r hs, hm⟩

-- Whether a run maps to characters.
private def CaseRun.hasScalarImage (r : CaseRun) : Bool :=
  r.image.2 < 0xD800 || 0xDFFF < r.image.1 && r.image.2 < 0x110000

/-- The upper-case form of a character is an expansion, a character that a run maps it to, or the
character itself. -/
theorem toUpper_cases (c : Char) :
    (∃ p ∈ upperExpansions, p.1 = c.toNat ∧ toUpper c = p.2) ∨
      (∃ r ∈ upperRuns, ∃ d, toUpper c = [d] ∧
        (r.source.1 ≤ c.toNat ∧ c.toNat ≤ r.source.2) ∧
        r.image.1 ≤ d.toNat ∧ d.toNat ≤ r.image.2) ∨
      toUpper c = [c] := by
  have hruns : upperRuns.all CaseRun.hasScalarImage = true := by decide +kernel
  rw [toUpper, mapCase]
  cases hexpansion : upperExpansions.lookup c.toNat with
  | some cs =>
    obtain ⟨before, after, htable, -⟩ := List.lookup_eq_some_iff.mp hexpansion
    refine .inl ⟨(c.toNat, cs), ?_, rfl, rfl⟩
    rw [htable]
    exact List.mem_append_right before List.mem_cons_self
  | none =>
    refine .inr ?_
    cases hrun : CaseRun.find? upperRuns c.toNat with
    | none => exact .inr rfl
    | some n =>
      obtain ⟨r, hr, hsource, himage⟩ := exists_run_of_find? hrun
      have hscalar := List.all_eq_true.mp hruns r hr
      simp only [CaseRun.hasScalarImage, Bool.and_eq_true, Bool.or_eq_true, decide_eq_true_eq]
        at hscalar
      have hchar : (Char.ofNat n).toNat = n := by
        have hvalid : n.isValidChar := by
          rw [Nat.isValidChar]
          omega
        rw [Char.ofNat, dif_pos hvalid]
        rfl
      exact .inl ⟨r, hr, Char.ofNat n, rfl, hsource, by rwa [hchar]⟩

private theorem isPlain_of_mem_toUpper {c d : Char} (hc : isPlain c) (h : d ∈ toUpper c) :
    isPlain d := by
  have hexpansions : upperExpansions.all (fun p => p.2.all isPlain) = true := by decide +kernel
  have hruns : upperRuns.all (fun r => isPlainRange r.image) = true := by decide +kernel
  rcases toUpper_cases c with ⟨p, hp, -, heq⟩ | ⟨r, hr, e, heq, -, himage⟩ | heq
  · rw [heq] at h
    exact List.all_eq_true.mp (List.all_eq_true.mp hexpansions p hp) d h
  · rw [heq] at h
    rw [List.mem_singleton.mp h]
    exact isPlain_of_isPlainRange (List.all_eq_true.mp hruns r hr) himage
  · rw [heq] at h
    rw [List.mem_singleton.mp h]
    exact hc

private theorem isPlain_of_mem_upperFirst {cs : List Char} (hcs : ∀ c ∈ cs, isPlain c) {d : Char}
    (h : d ∈ upperFirst cs) : isPlain d := by
  cases cs with
  | nil => cases h
  | cons c cs =>
    rw [upperFirst, List.mem_append] at h
    rcases h with h | h
    · exact isPlain_of_mem_toUpper (hcs c List.mem_cons_self) h
    · exact hcs d (List.mem_cons_of_mem c h)

end Exemplar.Text

namespace Exemplar.Ident

/-! ## Identifiers -/

/-- Words are made of letters and numbers. -/
theorem isWordChar_of_mem_words {cs w : List Char} (hw : w ∈ words cs) {c : Char} (hc : c ∈ w) :
    Text.isWordChar c = true := by
  induction cs generalizing w with
  | nil => cases hw
  | cons d cs ih =>
    rw [words] at hw
    split at hw
    · next hd =>
      split at hw
      · next w' ws hwords =>
        rw [hwords] at ih
        split at hw
        · rcases List.mem_cons.mp hw with rfl | hw
          · rcases List.mem_cons.mp hc with rfl | hc
            · exact hd
            · exact ih List.mem_cons_self hc
          · exact ih (List.mem_cons_of_mem w' hw) hc
        · rcases List.mem_cons.mp hw with rfl | hw
          · rw [List.mem_singleton.mp hc]
            exact hd
          · exact ih hw hc
      · rw [List.mem_singleton] at hw
        rw [hw, List.mem_singleton] at hc
        rw [hc]
        exact hd
    · exact ih hw hc

private theorem mem_of_mem_replaceFrom {pattern replacement : List Char} {pass : Nat}
    {cs : List Char} {c : Char} (h : c ∈ replaceFrom pattern replacement pass cs) :
    c ∈ replacement ∨ c ∈ cs := by
  induction cs generalizing pass with
  | nil => cases pass <;> cases h
  | cons d cs ih =>
    cases pass with
    | succ pass =>
      rw [replaceFrom] at h
      exact (ih h).imp_right (List.mem_cons_of_mem d)
    | zero =>
      rw [replaceFrom] at h
      split at h
      · rcases List.mem_append.mp h with h | h
        · exact .inl h
        · exact (ih h).imp_right (List.mem_cons_of_mem d)
      · rcases List.mem_cons.mp h with rfl | h
        · exact .inr List.mem_cons_self
        · exact (ih h).imp_right (List.mem_cons_of_mem d)

/-- Writing acronyms in capitals brings in characters of the capitals only. -/
theorem mem_of_mem_capitalizeAcronyms {cs : List Char} {c : Char}
    (h : c ∈ capitalizeAcronyms cs) : (∃ p ∈ acronyms, c ∈ p.2) ∨ c ∈ cs := by
  rw [capitalizeAcronyms] at h
  revert cs
  induction acronyms with
  | nil => exact fun h => .inr h
  | cons p ps ih =>
    intro cs h
    rw [List.foldl_cons] at h
    rcases ih h with ⟨q, hq, hc⟩ | hc
    · exact .inl ⟨q, List.mem_cons_of_mem p hq, hc⟩
    · rcases mem_of_mem_replaceFrom hc with hc | hc
      · exact .inl ⟨p, List.mem_cons_self, hc⟩
      · exact .inr hc

private theorem isPlain_of_mem_capitalizeAcronyms {cs : List Char} (hcs : ∀ c ∈ cs, Text.isPlain c)
    {c : Char} (h : c ∈ capitalizeAcronyms cs) : Text.isPlain c := by
  have hcapitals : ∀ p ∈ acronyms, ∀ c ∈ p.2, Text.isPlain c := by
    simp only [← List.all_eq_true]
    decide +kernel
  rcases mem_of_mem_capitalizeAcronyms h with ⟨p, hp, hc⟩ | hc
  · exact hcapitals p hp c hc
  · exact hcs c hc

private theorem isPlain_of_mem_ofKeyChars {cs : List Char} {c : Char} (h : c ∈ ofKeyChars cs) :
    Text.isPlain c := by
  have hjoined : ∀ d ∈ capitalizeAcronyms ((words cs).flatMap Text.upperFirst),
      Text.isPlain d := by
    intro d hd
    refine isPlain_of_mem_capitalizeAcronyms (fun e he => ?_) hd
    obtain ⟨w, hw, he⟩ := List.mem_flatMap.mp he
    refine Text.isPlain_of_mem_upperFirst (fun b hb => ?_) he
    exact Text.isPlain_of_isWordChar (isWordChar_of_mem_words hw hb)
  rw [ofKeyChars] at h
  split at h
  · exact hjoined c h
  · rcases List.mem_cons.mp h with rfl | h
    · decide
    · exact hjoined c h

/-- The identifier for a key is made of plain characters. -/
theorem isPlain_of_mem_ofKey {key : String} {c : Char} (h : c ∈ (ofKey key).toList) :
    Text.isPlain c := by
  rw [ofKey, String.toList_ofList] at h
  exact isPlain_of_mem_ofKeyChars h

/-- The name of a root is made of plain characters. -/
theorem isPlain_of_mem_root {requested : Option String} {c : Char}
    (h : c ∈ (root requested).toList) : Text.isPlain c := by
  have hdefault : defaultRoot.toList.all Text.isPlain = true := by decide +kernel
  rw [List.all_eq_true] at hdefault
  cases requested with
  | none => exact hdefault c h
  | some name =>
    simp only [root] at h
    split at h
    · exact hdefault c h
    · rw [String.toList_ofList] at h
      exact isPlain_of_mem_ofKeyChars h

end Exemplar.Ident
