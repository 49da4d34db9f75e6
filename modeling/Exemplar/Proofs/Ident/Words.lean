import Exemplar.Ident

/-!
# Words of keys

The words of a text are its longest runs of letters and numbers, and a text has no other such runs.
-/

namespace Exemplar.Ident

/-- The longest runs of letters and numbers in a text: other characters stand before and between
them, and only other characters stand behind the last. -/
inductive Runs : List Char → List (List Char) → Prop
  | none {gap : List Char} (hgap : ∀ c ∈ gap, Text.isWordChar c = false) : Runs gap []
  | run {gap word rest : List Char} {runs : List (List Char)}
      (hgap : ∀ c ∈ gap, Text.isWordChar c = false) (hne : word ≠ [])
      (hword : ∀ c ∈ word, Text.isWordChar c = true)
      (hend : ∀ c ∈ rest.head?, Text.isWordChar c = false) (hrest : Runs rest runs) :
      Runs (gap ++ (word ++ rest)) (word :: runs)

private theorem words_append_of_gap {gap : List Char} (hgap : ∀ c ∈ gap, Text.isWordChar c = false)
    (cs : List Char) : words (gap ++ cs) = words cs := by
  induction gap with
  | nil => rfl
  | cons c gap ih =>
    have hc : ¬ Text.isWordChar c = true := by
      rw [hgap c List.mem_cons_self]
      exact Bool.false_ne_true
    rw [List.cons_append, words, if_neg hc, ih fun d hd => hgap d (List.mem_cons_of_mem c hd)]

private theorem words_append_of_word {word : List Char} (hne : word ≠ [])
    (hword : ∀ c ∈ word, Text.isWordChar c = true) {rest : List Char}
    (hend : ∀ c ∈ rest.head?, Text.isWordChar c = false) :
    words (word ++ rest) = word :: words rest := by
  induction word with
  | nil => exact absurd rfl hne
  | cons c word ih =>
    have hc := hword c List.mem_cons_self
    rw [List.cons_append, words, if_pos hc]
    cases word with
    | nil =>
      have hnot : rest.head?.any Text.isWordChar = false := by
        cases hhead : rest.head? with
        | none => rfl
        | some d => exact hend d hhead
      rw [List.nil_append, hnot]
      cases words rest <;> rfl
    | cons d word =>
      rw [ih (List.cons_ne_nil d word) fun e he => hword e (List.mem_cons_of_mem c he)]
      dsimp only
      rw [if_pos]
      exact hword d (List.mem_cons_of_mem c List.mem_cons_self)

/-- A text has no longest runs of letters and numbers but its words. -/
theorem Runs.eq_words {cs : List Char} {runs : List (List Char)} (h : Runs cs runs) :
    runs = words cs := by
  induction h with
  | @none gap hgap =>
    have hwords := words_append_of_gap hgap []
    rw [List.append_nil] at hwords
    exact hwords.symm
  | run hgap hne hword hend _ ih =>
    rw [words_append_of_gap hgap, words_append_of_word hne hword hend, ← ih]

private theorem Runs.cons_gap {c : Char} (hc : Text.isWordChar c = false) {cs : List Char}
    {runs : List (List Char)} (h : Runs cs runs) : Runs (c :: cs) runs := by
  have hcons {gap : List Char} (hgap : ∀ d ∈ gap, Text.isWordChar d = false) :
      ∀ d ∈ c :: gap, Text.isWordChar d = false :=
    List.forall_mem_cons.mpr ⟨hc, hgap⟩
  cases h with
  | none hgap => exact .none (hcons hgap)
  | run hgap hne hword hend hrest => exact .run (hcons hgap) hne hword hend hrest

private theorem Runs.of_word {word rest : List Char} {runs : List (List Char)} (hne : word ≠ [])
    (hword : ∀ c ∈ word, Text.isWordChar c = true)
    (hend : ∀ c ∈ rest.head?, Text.isWordChar c = false) (hrest : Runs rest runs) :
    Runs (word ++ rest) (word :: runs) :=
  @Runs.run [] word rest runs (fun _ hc => absurd hc List.not_mem_nil) hne hword hend hrest

private theorem Runs.cons_word {c : Char} (hc : Text.isWordChar c = true) {cs : List Char}
    {runs : List (List Char)} (h : Runs cs runs) : ∃ runs', Runs (c :: cs) runs' := by
  have hsingle : ∀ d ∈ [c], Text.isWordChar d = true := by simpa using hc
  have hne (word : List Char) : c :: word ≠ [] := List.cons_ne_nil c word
  cases h with
  | none hgap =>
    exact ⟨[[c]], .of_word (hne []) hsingle
      (fun d hd => hgap d (List.mem_of_mem_head? hd)) (.none hgap)⟩
  | @run gap word rest runs hgap hnil hword hend hrest =>
    cases gap with
    | nil =>
      exact ⟨(c :: word) :: runs,
        .of_word (hne word) (List.forall_mem_cons.mpr ⟨hc, hword⟩) hend hrest⟩
    | cons d gap =>
      refine ⟨[c] :: word :: runs,
        .of_word (hne []) hsingle (fun e he => ?_) (.run hgap hnil hword hend hrest)⟩
      obtain rfl := Option.some.inj he
      exact hgap d List.mem_cons_self

/-- The words of a text are its longest runs of letters and numbers. -/
theorem runs_iff {cs : List Char} {runs : List (List Char)} : Runs cs runs ↔ runs = words cs := by
  refine ⟨Runs.eq_words, ?_⟩
  rintro rfl
  suffices hexists : ∃ runs, Runs cs runs by
    obtain ⟨runs, hruns⟩ := hexists
    rwa [← hruns.eq_words]
  induction cs with
  | nil => exact ⟨[], .none fun _ hc => absurd hc List.not_mem_nil⟩
  | cons c cs ih =>
    obtain ⟨runs, hruns⟩ := ih
    cases hc : Text.isWordChar c with
    | false => exact ⟨runs, hruns.cons_gap hc⟩
    | true => exact hruns.cons_word hc

private theorem Runs.mem_of_mem {cs : List Char} {runs : List (List Char)} (h : Runs cs runs)
    {w : List Char} (hw : w ∈ runs) {c : Char} (hc : c ∈ w) : c ∈ cs := by
  induction h with
  | none => cases hw
  | run _ _ _ _ _ ih =>
    rcases List.mem_cons.mp hw with rfl | hw
    · exact List.mem_append_right _ (List.mem_append_left _ hc)
    · exact List.mem_append_right _ (List.mem_append_right _ (ih hw))

/-- The characters of the words of a text are characters of the text. -/
theorem mem_of_mem_words {cs w : List Char} (hw : w ∈ words cs) {c : Char} (hc : c ∈ w) : c ∈ cs :=
  (runs_iff.mpr rfl : Runs cs (words cs)).mem_of_mem hw hc

end Exemplar.Ident
