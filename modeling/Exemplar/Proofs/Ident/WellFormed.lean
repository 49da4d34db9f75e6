import Exemplar.Proofs.Ident.Characters

/-!
# Well-formed identifiers

An identifier is well-formed if it begins with a letter or an underscore and goes on with letters
and numbers.  Neither the words of a key nor the capitals that they get ensure this: an underscore
at the start of a key is dropped, and some letters have capitals with marks.  The main statement:
which keys have well-formed identifiers.
-/

namespace Exemplar.Text

/-! ## Capitals of letters and numbers -/

-- Whether two increasing lists of ranges have no code point in common.
private def disjoint : List (Nat × Nat) → List (Nat × Nat) → Bool
  | [], _ => true
  | r :: rs, others =>
    match others.dropWhile fun s => Nat.blt s.2 r.1 with
    | [] => true
    | s :: others => Nat.blt r.2 s.1 && disjoint rs (s :: others)

private theorem covers_dropWhile {ranges : List (Nat × Nat)} {first n : Nat} (hn : first ≤ n)
    (h : covers ranges n = true) :
    covers (ranges.dropWhile fun s => Nat.blt s.2 first) n = true := by
  induction ranges with
  | nil => exact h
  | cons s ranges ih =>
    rw [List.dropWhile_cons]
    split
    · next hs =>
      rw [Nat.blt_eq] at hs
      rw [covers] at h
      split at h
      · cases h
      · rw [if_neg (by omega)] at h
        exact ih h
    · exact h

private theorem covers_eq_false_of_disjoint {ranges others : List (Nat × Nat)}
    (h : disjoint ranges others = true) {n : Nat} (hn : covers ranges n = true) :
    covers others n = false := by
  rw [← Bool.not_eq_true]
  intro hothers
  induction ranges generalizing others with
  | nil => cases hn
  | cons r ranges ih =>
    rw [covers] at hn
    split at hn
    · cases hn
    · next hfirst =>
      have hdrop := covers_dropWhile (Nat.le_of_not_lt hfirst) hothers
      rw [disjoint] at h
      split at h
      · next hnil =>
        rw [hnil] at hdrop
        cases hdrop
      · next s others' hcons =>
        rw [hcons] at hdrop
        rw [Bool.and_eq_true, Nat.blt_eq] at h
        have hbehind : r.2 < n := by
          rw [covers] at hdrop
          split at hdrop
          · cases hdrop
          · omega
        rw [if_neg (by omega)] at hn
        exact ih h.2 hn hdrop

private theorem covers_singleton {r : Nat × Nat} {n : Nat} (h : r.1 ≤ n ∧ n ≤ r.2) :
    covers [r] n = true := by
  rw [covers, if_neg (by omega), if_pos h.2]

private theorem isNumber_of_isLetter {c : Char} (h : isLetter c = true) : isNumber c = false :=
  covers_eq_false_of_disjoint (by decide +kernel) h

private theorem head_toUpper_cases {c d : Char} (hd : d ∈ (toUpper c).head?) :
    (isNumber c = false ∧ isNumber d = false) ∨ (isLetter c = false ∧ isLetter d = false) := by
  have hexpansions : upperExpansions.all (fun p =>
      !covers numberRanges p.1 && p.2.head?.all fun d => !isNumber d) = true := by decide +kernel
  have hruns : upperRuns.all (fun r =>
      (disjoint [r.source] numberRanges && disjoint [r.image] numberRanges) ||
        (disjoint [r.source] letterRanges && disjoint [r.image] letterRanges)) = true := by
    decide +kernel
  rcases toUpper_cases c with ⟨p, hp, hsource, heq⟩ | ⟨r, hr, e, heq, hsource, himage⟩ | heq
  · have hhead := List.all_eq_true.mp hexpansions p hp
    rw [hsource, ← heq, Option.mem_def.mp hd] at hhead
    exact .inl (by simpa [isNumber] using hhead)
  · rw [heq] at hd
    obtain rfl := Option.some.inj hd
    have hrun := List.all_eq_true.mp hruns r hr
    rw [Bool.or_eq_true, Bool.and_eq_true, Bool.and_eq_true] at hrun
    exact hrun.imp
      (fun h => ⟨covers_eq_false_of_disjoint h.1 (covers_singleton hsource),
        covers_eq_false_of_disjoint h.2 (covers_singleton himage)⟩)
      fun h => ⟨covers_eq_false_of_disjoint h.1 (covers_singleton hsource),
        covers_eq_false_of_disjoint h.2 (covers_singleton himage)⟩
  · rw [heq] at hd
    obtain rfl := Option.some.inj hd
    cases hletter : isLetter c with
    | true => exact .inl ⟨isNumber_of_isLetter hletter, isNumber_of_isLetter hletter⟩
    | false => exact .inr ⟨rfl, rfl⟩

private theorem isNumber_head_toUpper {c d : Char} (hc : isLetter c = true)
    (hd : d ∈ (toUpper c).head?) : isNumber d = false := by
  rcases head_toUpper_cases hd with ⟨-, hd⟩ | ⟨hnot, -⟩
  · exact hd
  · rw [hc] at hnot
    cases hnot

private theorem isLetter_head_toUpper {c d : Char} (hc : isNumber c = true)
    (hd : d ∈ (toUpper c).head?) : isLetter d = false := by
  rcases head_toUpper_cases hd with ⟨hnot, -⟩ | ⟨-, hd⟩
  · rw [hc] at hnot
    cases hnot
  · exact hd

private theorem toUpper_ne_nil (c : Char) : toUpper c ≠ [] := by
  have hexpansions : upperExpansions.all (fun p => !p.2.isEmpty) = true := by decide +kernel
  rcases toUpper_cases c with ⟨p, hp, -, heq⟩ | ⟨r, -, e, heq, -⟩ | heq
  · have hp := List.all_eq_true.mp hexpansions p hp
    rw [heq]
    simpa using hp
  · rw [heq]
    exact List.cons_ne_nil _ _
  · rw [heq]
    exact List.cons_ne_nil _ _

/-- No letter or number has an upper-case form with an underscore. -/
theorem underscore_notMem_toUpper {c : Char} (hc : isWordChar c = true) : '_' ∉ toUpper c := by
  have hexpansions : upperExpansions.all (fun p => p.2.all (· != '_')) = true := by decide +kernel
  have hruns : upperRuns.all (fun r => disjoint [r.image] [(0x5F, 0x5F)]) = true := by
    decide +kernel
  have hunderscore : isWordChar '_' = false := by decide +kernel
  intro h
  rcases toUpper_cases c with ⟨p, hp, -, heq⟩ | ⟨r, hr, e, heq, -, himage⟩ | heq
  · rw [heq] at h
    have hne := List.all_eq_true.mp (List.all_eq_true.mp hexpansions p hp) _ h
    simp at hne
  · rw [heq] at h
    rw [← List.mem_singleton.mp h] at himage
    have hnot := covers_eq_false_of_disjoint (List.all_eq_true.mp hruns r hr)
      (covers_singleton himage)
    exact absurd hnot (by decide)
  · rw [heq] at h
    rw [← List.mem_singleton.mp h, hunderscore] at hc
    cases hc

end Exemplar.Text

namespace Exemplar.Ident

/-! ## Words -/

private theorem exists_words_cons {c : Char} (hc : Text.isWordChar c = true) (cs : List Char) :
    ∃ w ws, words (c :: cs) = (c :: w) :: ws := by
  rw [words, if_pos hc]
  cases words cs with
  | nil => exact ⟨[], [], rfl⟩
  | cons w ws =>
    dsimp only
    split
    · exact ⟨w, ws, rfl⟩
    · exact ⟨[], w :: ws, rfl⟩

/-- Words have characters. -/
theorem ne_nil_of_mem_words {cs w : List Char} (hw : w ∈ words cs) : w ≠ [] := by
  induction cs with
  | nil => cases hw
  | cons c cs ih =>
    cases hc : Text.isWordChar c with
    | false =>
      rw [words, if_neg (by rw [hc]; exact Bool.false_ne_true)] at hw
      exact ih hw
    | true =>
      rw [words, if_pos hc] at hw
      cases hwords : words cs with
      | nil =>
        rw [hwords] at hw
        rw [List.mem_singleton.mp hw]
        exact List.cons_ne_nil _ _
      | cons w' ws =>
        rw [hwords] at hw ih
        dsimp only at hw
        split at hw
        · rcases List.mem_cons.mp hw with rfl | hw
          · exact List.cons_ne_nil _ _
          · exact ih (List.mem_cons_of_mem w' hw)
        · rcases List.mem_cons.mp hw with rfl | hw
          · exact List.cons_ne_nil _ _
          · exact ih hw

/-! ## Acronyms -/

private theorem mem_or_mem_replaceFrom {pattern replacement : List Char} (hne : pattern ≠ [])
    {pass : Nat} {cs : List Char} {c : Char} (h : c ∈ cs.drop pass) :
    c ∈ pattern ∨ c ∈ replaceFrom pattern replacement pass cs := by
  induction cs generalizing pass with
  | nil => simp at h
  | cons d cs ih =>
    cases pass with
    | succ pass =>
      rw [replaceFrom]
      exact ih h
    | zero =>
      rw [List.drop_zero] at h
      rw [replaceFrom]
      split
      · next hprefix =>
        obtain ⟨rest, hrest⟩ := List.isPrefixOf_iff_prefix.mp hprefix
        have hdrop : cs.drop (pattern.length - 1) = rest := by
          obtain ⟨p, ps, rfl⟩ := List.exists_cons_of_ne_nil hne
          obtain ⟨-, hcs⟩ := List.cons.inj hrest
          rw [List.length_cons, Nat.add_sub_cancel, ← hcs]
          exact List.drop_left
        rw [← hrest, List.mem_append] at h
        rcases h with h | h
        · exact .inl h
        · exact (ih (hdrop.symm ▸ h)).imp_right (List.mem_append_right _)
      · rcases List.mem_cons.mp h with rfl | h
        · exact .inr List.mem_cons_self
        · exact (@ih 0 h).imp_right (List.mem_cons_of_mem d)

private theorem mem_or_mem_capitalizeAcronyms {cs : List Char} {c : Char} (h : c ∈ cs) :
    (∃ p ∈ acronyms, c ∈ p.1) ∨ c ∈ capitalizeAcronyms cs := by
  have hne : ∀ p ∈ acronyms, p.1 ≠ [] := by decide
  rw [capitalizeAcronyms]
  revert hne cs
  induction acronyms with
  | nil => exact fun h _ => .inr h
  | cons p ps ih =>
    intro cs h hne
    rw [List.foldl_cons]
    rw [← @List.drop_zero _ cs] at h
    rcases mem_or_mem_replaceFrom (hne p List.mem_cons_self) h with hc | hc
    · exact .inl ⟨p, List.mem_cons_self, hc⟩
    · rcases ih hc fun q hq => hne q (List.mem_cons_of_mem p hq) with ⟨q, hq, hc⟩ | hc
      · exact .inl ⟨q, List.mem_cons_of_mem p hq, hc⟩
      · exact .inr hc

private theorem forall_mem_capitalizeAcronyms_iff {cs : List Char} :
    (∀ c ∈ capitalizeAcronyms cs, Text.isWordChar c = true) ↔
      ∀ c ∈ cs, Text.isWordChar c = true := by
  have hall : acronyms.all (fun p => (p.1 ++ p.2).all Text.isWordChar) = true := by
    decide +kernel
  have hacronyms : ∀ p ∈ acronyms, ∀ c ∈ p.1 ++ p.2, Text.isWordChar c = true := fun p hp =>
    List.all_eq_true.mp (List.all_eq_true.mp hall p hp)
  constructor
  · intro h c hc
    rcases mem_or_mem_capitalizeAcronyms hc with ⟨p, hp, hc⟩ | hc
    · exact hacronyms p hp c (List.mem_append_left _ hc)
    · exact h c hc
  · intro h c hc
    rcases mem_of_mem_capitalizeAcronyms hc with ⟨p, hp, hc⟩ | hc
    · exact hacronyms p hp c (List.mem_append_right _ hc)
    · exact h c hc

private theorem head?_replaceAll (p : Char) (ps rs cs : List Char) :
    (replaceAll (p :: ps) (p :: rs) cs).head? = cs.head? := by
  rw [replaceAll]
  cases cs with
  | nil => rfl
  | cons d cs =>
    rw [replaceFrom]
    split
    · next hprefix =>
      obtain ⟨rest, hrest⟩ := List.isPrefixOf_iff_prefix.mp hprefix
      rw [← hrest]
      rfl
    · rfl

private theorem head?_capitalizeAcronyms (cs : List Char) :
    (capitalizeAcronyms cs).head? = cs.head? := by
  simp only [capitalizeAcronyms, acronyms, List.foldl_cons, List.foldl_nil, head?_replaceAll]

/-! ## Identifiers -/

/-- Whether a text is a well-formed identifier: a letter or an underscore, and then letters and
numbers. -/
def IsIdentifier : List Char → Prop
  | [] => False
  | c :: cs => (Text.isLetter c = true ∨ c = '_') ∧ ∀ d ∈ cs, Text.isWordChar d = true

instance : DecidablePred IsIdentifier
  | [] => inferInstanceAs (Decidable False)
  | c :: cs => decidable_of_iff ((Text.isLetter c || c == '_') && cs.all Text.isWordChar)
      (by simp [IsIdentifier])

/-- Whether the first word of a text begins with a letter. -/
def BeginsWithLetter (cs : List Char) : Prop :=
  ∃ c w ws, words cs = (c :: w) :: ws ∧ Text.isLetter c = true

/-- Whether a text can be a key of a well-formed identifier: a letter must follow the underscores
and other separators behind an underscore at its start, and the capitals of its words must be
letters and numbers. -/
structure GivesIdentifier (cs : List Char) : Prop where
  begins : cs.head? = some '_' → BeginsWithLetter cs
  capitals : ∀ w ∈ words cs, ∀ c ∈ w.head?, ∀ d ∈ Text.toUpper c, Text.isWordChar d = true

private theorem forall_mem_capitals_iff {cs : List Char} :
    (∀ d ∈ (words cs).flatMap Text.upperFirst, Text.isWordChar d = true) ↔
      ∀ w ∈ words cs, ∀ c ∈ w.head?, ∀ d ∈ Text.toUpper c, Text.isWordChar d = true := by
  constructor
  · intro h w hw c hc d hd
    refine h d (List.mem_flatMap.mpr ⟨w, hw, ?_⟩)
    cases w with
    | nil => cases hc
    | cons c' w =>
      obtain rfl := Option.some.inj hc
      exact List.mem_append_left w hd
  · intro h d hd
    obtain ⟨w, hw, hd⟩ := List.mem_flatMap.mp hd
    cases w with
    | nil => cases hd
    | cons c w =>
      rcases List.mem_append.mp hd with hd | hd
      · exact h (c :: w) hw c rfl d hd
      · exact isWordChar_of_mem_words hw (List.mem_cons_of_mem c hd)

/-- Words with capitals begin as the capital of the first word does. -/
theorem head?_capitalized {cs : List Char} {c : Char} {w : List Char} {ws : List (List Char)}
    (h : words cs = (c :: w) :: ws) :
    (capitalizeAcronyms ((words cs).flatMap Text.upperFirst)).head? =
      (Text.toUpper c).head? := by
  rw [head?_capitalizeAcronyms, h, List.flatMap_cons, Text.upperFirst, List.append_assoc]
  cases hcapital : Text.toUpper c with
  | nil => exact absurd hcapital (Text.toUpper_ne_nil c)
  | cons d ds => rfl

private theorem isIdentifier_capitalized_iff {cs : List Char} :
    IsIdentifier (capitalizeAcronyms ((words cs).flatMap Text.upperFirst)) ↔
      BeginsWithLetter cs ∧
        ∀ w ∈ words cs, ∀ c ∈ w.head?, ∀ d ∈ Text.toUpper c, Text.isWordChar d = true := by
  rw [← forall_mem_capitals_iff, ← forall_mem_capitalizeAcronyms_iff]
  cases hwords : words cs with
  | nil =>
    refine iff_of_false id fun h => ?_
    obtain ⟨c, w, ws, hcons, -⟩ := h.1
    rw [hwords] at hcons
    cases hcons
  | cons w ws =>
    cases w with
    | nil => exact absurd rfl (ne_nil_of_mem_words (hwords ▸ List.mem_cons_self))
    | cons c w =>
      have hword : Text.isWordChar c = true :=
        isWordChar_of_mem_words (hwords ▸ List.mem_cons_self) List.mem_cons_self
      have hhead := head?_capitalized hwords
      rw [hwords] at hhead
      cases htext : capitalizeAcronyms (((c :: w) :: ws).flatMap Text.upperFirst) with
      | nil =>
        rw [htext, List.head?_nil, eq_comm, List.head?_eq_none_iff] at hhead
        exact absurd hhead (Text.toUpper_ne_nil c)
      | cons d ds =>
        rw [htext] at hhead
        have hd : d ∈ (Text.toUpper c).head? := hhead.symm
        constructor
        · rintro ⟨hbegin, hrest⟩
          have hletter : Text.isLetter d = true := by
            refine hbegin.resolve_right ?_
            rintro rfl
            exact Text.underscore_notMem_toUpper hword (List.mem_of_mem_head? hd)
          refine ⟨⟨c, w, ws, hwords, ?_⟩, ?_⟩
          · rw [Text.isWordChar, Bool.or_eq_true] at hword
            refine hword.resolve_right fun hnumber => ?_
            rw [Text.isLetter_head_toUpper hnumber hd] at hletter
            cases hletter
          · intro e he
            rcases List.mem_cons.mp he with rfl | he
            · rw [Text.isWordChar, hletter, Bool.true_or]
            · exact hrest e he
        · rintro ⟨⟨c', w', ws', hcons, hletter⟩, hall⟩
          rw [hwords] at hcons
          obtain ⟨rfl, rfl⟩ := List.cons.inj (List.cons.inj hcons).1
          refine ⟨.inl ?_, fun e he => hall e (List.mem_cons_of_mem d he)⟩
          have hd := hall d List.mem_cons_self
          rw [Text.isWordChar, Text.isNumber_head_toUpper hletter hhead.symm, Bool.or_false] at hd
          exact hd

/-- The identifier for a key is well-formed exactly if the key can be one of such an identifier. -/
theorem isIdentifier_ofKeyChars_iff {cs : List Char} :
    IsIdentifier (ofKeyChars cs) ↔ GivesIdentifier cs := by
  rw [ofKeyChars]
  cases hbegins : beginsWell cs with
  | false =>
    have hhead : cs.head? ≠ some '_' := by
      intro hhead
      rw [beginsWell, hhead] at hbegins
      simp at hbegins
    rw [if_neg Bool.false_ne_true, IsIdentifier, forall_mem_capitalizeAcronyms_iff,
      forall_mem_capitals_iff]
    exact ⟨fun h => ⟨fun h' => absurd h' hhead, h.2⟩, fun h => ⟨.inr rfl, h.capitals⟩⟩
  | true =>
    rw [if_pos rfl, isIdentifier_capitalized_iff]
    refine ⟨fun h => ⟨fun _ => h.1, h.2⟩, fun h => ⟨?_, h.capitals⟩⟩
    cases cs with
    | nil => cases hbegins
    | cons c cs =>
      rw [beginsWell, List.head?_cons, Option.any_some, Bool.or_eq_true, beq_iff_eq] at hbegins
      rcases hbegins with hletter | rfl
      · have hword : Text.isWordChar c = true := by rw [Text.isWordChar, hletter, Bool.true_or]
        obtain ⟨w, ws, hwords⟩ := exists_words_cons hword cs
        exact ⟨c, w, ws, hwords, hletter⟩
      · exact h.begins rfl

/-- Which keys have well-formed identifiers, and which names give well-formed names of roots: those
of which nothing is left without the blanks around them, and those that can be such keys then. -/
theorem isIdentifier_ofKey_and_root_iff (key : String) (requested : Option String) :
    (IsIdentifier (ofKey key).toList ↔ GivesIdentifier key.toList) ∧
      (IsIdentifier (root requested).toList ↔
        ∀ name ∈ requested, Text.trim name.toList ≠ [] →
          GivesIdentifier (Text.trim name.toList)) := by
  have hdefault : IsIdentifier defaultRoot.toList := by decide +kernel
  constructor
  · rw [ofKey, String.toList_ofList]
    exact isIdentifier_ofKeyChars_iff
  · cases requested with
    | none => exact iff_of_true hdefault fun name hname => by cases hname
    | some name =>
      rw [root]
      split
      · next hnil =>
        refine iff_of_true hdefault fun name' hname hne => ?_
        obtain rfl := Option.some.inj hname
        exact absurd hnil hne
      · next hne =>
        rw [String.toList_ofList, isIdentifier_ofKeyChars_iff]
        refine ⟨fun h name' hname _ => ?_, fun h => h name rfl hne⟩
        obtain rfl := Option.some.inj hname
        exact h

/-- Keys without well-formed identifiers: an underscore alone, one before a digit, and a letter
whose capital has a mark. -/
theorem ofKey_underscore :
    ofKey "_" = "" ∧ ofKey "_1" = "1" ∧ ofKey "\u01f0" = "J\u030c" ∧
      ¬ IsIdentifier (ofKey "_").toList ∧ ¬ IsIdentifier (ofKey "_1").toList ∧
      ¬ IsIdentifier (ofKey "\u01f0").toList := by
  decide +kernel

end Exemplar.Ident
