import Mathlib.Data.List.DropRight
import Mathlib.Data.List.TakeWhile
import Exemplar.Text.Blank

/-!
# Trimmed text and lines

What trimming takes off and what it leaves, the characters of a text that are not blank, and the
lines of a text that was written line by line.
-/

namespace Exemplar.Text

/-! ## Characters that are not blank -/

/-- The characters of a text that are not blank, in order. -/
def ink (cs : List Char) : List Char :=
  cs.filter fun c => !isBlank c

/-- Text in two parts has the characters of both. -/
@[simp] theorem ink_append (xs ys : List Char) : ink (xs ++ ys) = ink xs ++ ink ys :=
  List.filter_append xs ys

/-- A character that is not blank counts. -/
@[simp] theorem ink_cons_of_not_blank {c : Char} (h : isBlank c = false) (cs : List Char) :
    ink (c :: cs) = c :: ink cs := by
  rw [ink, List.filter_cons, h]
  rfl

/-- A blank does not count. -/
@[simp] theorem ink_cons_of_blank {c : Char} (h : isBlank c = true) (cs : List Char) :
    ink (c :: cs) = ink cs := by
  rw [ink, List.filter_cons, h]
  rfl

/-- A text has no other characters exactly when it is made of blanks. -/
theorem ink_eq_nil_iff {cs : List Char} : ink cs = [] ↔ ∀ c ∈ cs, isBlank c = true := by
  rw [ink, List.filter_eq_nil_iff]
  simp only [Bool.not_eq_eq_eq_not, Bool.not_true, Bool.not_eq_false]

/-- Copies of a blank hold no other character. -/
@[simp] theorem ink_replicate_of_blank {c : Char} (h : isBlank c = true) (n : Nat) :
    ink (List.replicate n c) = [] := by
  rw [ink_eq_nil_iff]
  intro d hd
  rw [List.eq_of_mem_replicate hd]
  exact h

/-! ## Trimming the end -/

private theorem trimEnd_eq_rdropWhile (cs : List Char) : trimEnd cs = cs.rdropWhile isBlank := by
  induction cs using List.reverseRecOn with
  | nil => rfl
  | append_singleton cs c ih =>
    rw [List.rdropWhile_concat, ← ih]
    clear ih
    induction cs with
    | nil => rfl
    | cons d cs ih =>
      rw [List.cons_append, trimEnd, ih]
      by_cases hc : isBlank c = true
      · rw [if_pos hc, if_pos hc, trimEnd]
      · rw [if_neg hc, if_neg hc]
        cases cs <;> rfl

/-- Text in two parts is trimmed at the end of the second part, unless that part is blank. -/
theorem trimEnd_append (xs ys : List Char) :
    trimEnd (xs ++ ys) = if trimEnd ys = [] then trimEnd xs else xs ++ trimEnd ys := by
  cases hys : trimEnd ys with
  | nil =>
    rw [if_pos rfl]
    induction xs with
    | nil => exact hys
    | cons x xs ih => rw [List.cons_append, trimEnd, ih, trimEnd]
  | cons y ys' =>
    rw [if_neg (List.cons_ne_nil y ys')]
    induction xs with
    | nil => exact hys
    | cons x xs ih =>
      rw [List.cons_append, trimEnd, ih]
      cases xs <;> rfl

/-- A text is trimmed to nothing exactly when it is made of blanks. -/
theorem trimEnd_eq_nil_iff {cs : List Char} : trimEnd cs = [] ↔ ∀ c ∈ cs, isBlank c = true := by
  rw [trimEnd_eq_rdropWhile, List.rdropWhile_eq_nil_iff]

/-- Trimming the end twice is trimming it once. -/
@[simp] theorem trimEnd_trimEnd (cs : List Char) : trimEnd (trimEnd cs) = trimEnd cs := by
  simp only [trimEnd_eq_rdropWhile, List.rdropWhile_idempotent]

/-- What a text without blanks at its end has behind a part without them has none there either. -/
theorem trimEnd_of_append {xs ys : List Char} (h : trimEnd (xs ++ ys) = xs ++ ys)
    (hxs : trimEnd xs = xs) : trimEnd ys = ys := by
  rw [trimEnd_append] at h
  split at h
  · rw [hxs, List.self_eq_append_right] at h
    rw [h]
    rfl
  · exact List.append_cancel_left h

/-- A text that ends in a character that is not blank is trimmed at its end. -/
theorem trimEnd_concat {c : Char} (h : isBlank c = false) (cs : List Char) :
    trimEnd (cs ++ [c]) = cs ++ [c] := by
  rw [trimEnd_eq_rdropWhile]
  apply List.rdropWhile_concat_neg
  rw [h]
  exact Bool.false_ne_true

/-- A text that is trimmed at its end does not end in a blank. -/
theorem not_isBlank_of_getLast? {cs : List Char} (h : trimEnd cs = cs) {c : Char}
    (hc : cs.getLast? = some c) : isBlank c = false := by
  have hne : cs ≠ [] := by
    rintro rfl
    cases hc
  rw [trimEnd_eq_rdropWhile, List.rdropWhile_eq_self_iff] at h
  rw [List.getLast?_eq_some_getLast hne] at hc
  rw [← Option.some.inj hc]
  simpa using h hne

/-- Trimming the end keeps a first character that is not blank. -/
theorem trimEnd_cons {c : Char} (h : isBlank c = false) (cs : List Char) :
    trimEnd (c :: cs) = c :: trimEnd cs := by
  rw [trimEnd]
  cases trimEnd cs with
  | nil => rw [if_neg (by rw [h]; exact Bool.false_ne_true)]
  | cons d ds => rfl

/-- The blanks that a text ends with. -/
def endBlanks (cs : List Char) : List Char :=
  cs.rtakeWhile isBlank

/-- A text is what trimming its end leaves and the blanks that it ends with. -/
theorem trimEnd_append_endBlanks (cs : List Char) : trimEnd cs ++ endBlanks cs = cs := by
  rw [trimEnd_eq_rdropWhile]
  exact List.rdropWhile_append_rtakeWhile ..

/-- What a text ends with as blanks is blank. -/
theorem isBlank_of_mem_endBlanks {cs : List Char} {c : Char} (h : c ∈ endBlanks cs) :
    isBlank c = true :=
  List.mem_rtakeWhile_imp h

/-- Trimming the end keeps all characters that are not blank. -/
@[simp] theorem ink_trimEnd (cs : List Char) : ink (trimEnd cs) = ink cs := by
  have hblanks : ink (endBlanks cs) = [] := ink_eq_nil_iff.mpr fun _ => isBlank_of_mem_endBlanks
  conv_rhs => rw [← trimEnd_append_endBlanks cs, ink_append, hblanks, List.append_nil]

/-! ## Trimming the start and both ends -/

/-- The blanks that a text begins with. -/
def startBlanks (cs : List Char) : List Char :=
  cs.takeWhile isBlank

/-- A text is the blanks that it begins with and what trimming its start leaves. -/
theorem startBlanks_append_trimStart (cs : List Char) : startBlanks cs ++ trimStart cs = cs :=
  List.takeWhile_append_dropWhile

/-- What a text begins with as blanks is blank. -/
theorem isBlank_of_mem_startBlanks {cs : List Char} {c : Char} (h : c ∈ startBlanks cs) :
    isBlank c = true :=
  List.mem_takeWhile_imp h

/-- Trimming the start keeps all characters that are not blank. -/
@[simp] theorem ink_trimStart (cs : List Char) : ink (trimStart cs) = ink cs := by
  have hblanks : ink (startBlanks cs) = [] :=
    ink_eq_nil_iff.mpr fun _ => isBlank_of_mem_startBlanks
  conv_rhs => rw [← startBlanks_append_trimStart cs, ink_append, hblanks, List.nil_append]

/-- Text in two parts is trimmed at the start of the first part, unless that part is blank. -/
theorem trimStart_append (xs ys : List Char) :
    trimStart (xs ++ ys) = if trimStart xs = [] then trimStart ys else trimStart xs ++ ys := by
  rw [trimStart, List.dropWhile_append]
  simp only [List.isEmpty_iff]
  rfl

/-- A text is trimmed to nothing exactly when it is made of blanks. -/
theorem trimStart_eq_nil_iff {cs : List Char} :
    trimStart cs = [] ↔ ∀ c ∈ cs, isBlank c = true :=
  List.dropWhile_eq_nil_iff

/-- Trimming the start keeps the last character, unless it leaves nothing. -/
theorem getLast?_trimStart {cs : List Char} (h : trimStart cs ≠ []) :
    (trimStart cs).getLast? = cs.getLast? := by
  conv_rhs => rw [← startBlanks_append_trimStart cs, List.getLast?_append]
  rw [List.getLast?_eq_some_getLast h]
  rfl

/-- A text that begins with a character that is not blank is trimmed at its start. -/
@[simp] theorem trimStart_cons {c : Char} (h : isBlank c = false) (cs : List Char) :
    trimStart (c :: cs) = c :: cs := by
  rw [trimStart, List.dropWhile_cons, h]
  rfl

/-- Trimming both ends keeps all characters that are not blank. -/
@[simp] theorem ink_trim (cs : List Char) : ink (trim cs) = ink cs := by
  rw [trim, ink_trimEnd, ink_trimStart]

/-- A text is trimmed to nothing exactly when it is made of blanks. -/
theorem trim_eq_nil_iff {cs : List Char} : trim cs = [] ↔ ∀ c ∈ cs, isBlank c = true := by
  rw [trim, trimEnd_eq_nil_iff, ← ink_eq_nil_iff, ink_trimStart, ink_eq_nil_iff]

/-- A trimmed text begins with a character that is not blank. -/
theorem not_isBlank_of_trim_eq_cons {cs ds : List Char} {d : Char} (h : trim cs = d :: ds) :
    isBlank d = false := by
  have hprefix : trim cs <+: trimStart cs := by
    rw [trim, trimEnd_eq_rdropWhile]
    exact List.rdropWhile_prefix ..
  rw [h] at hprefix
  obtain ⟨rest, hrest⟩ := hprefix
  have hhead := List.head?_dropWhile_not isBlank cs
  rw [trimStart] at hrest
  rw [← hrest] at hhead
  simpa using hhead

/-- Trimming both ends twice is trimming them once. -/
@[simp] theorem trim_trim (cs : List Char) : trim (trim cs) = trim cs := by
  cases htrim : trim cs with
  | nil => rfl
  | cons d ds =>
    rw [trim, trimStart_cons (not_isBlank_of_trim_eq_cons htrim), ← htrim, trim, trimEnd_trimEnd]

/-- A text without blanks at its end is trimmed at its start alone. -/
theorem trim_of_trimEnd_eq {cs : List Char} (h : trimEnd cs = cs) : trim cs = trimStart cs := by
  rw [← startBlanks_append_trimStart cs, trimEnd_append] at h
  split at h
  · next hblank =>
    have hnil := trimEnd_eq_nil_iff.mp hblank
    rw [← ink_eq_nil_iff, ink_trimStart, ink_eq_nil_iff, ← trimStart_eq_nil_iff] at hnil
    rw [trim, hnil]
    rfl
  · exact List.append_cancel_left h

/-- Blanks behind a text are trimmed off. -/
theorem trim_append_of_blank (cs : List Char) {blanks : List Char}
    (h : ∀ c ∈ blanks, isBlank c = true) : trim (cs ++ blanks) = trim cs := by
  rw [trim, trim, trimStart_append]
  split
  · next hnil => rw [hnil, trimStart_eq_nil_iff.mpr h]
  · rw [trimEnd_append, if_pos (trimEnd_eq_nil_iff.mpr h)]

/-- Blanks in front of a text are trimmed off. -/
theorem trim_blank_append {blanks : List Char} (h : ∀ c ∈ blanks, isBlank c = true)
    (cs : List Char) : trim (blanks ++ cs) = trim cs := by
  rw [trim, trim, trimStart_append, if_pos (trimStart_eq_nil_iff.mpr h)]

/-- Every character of a text trimmed at its end is one of the text. -/
theorem mem_of_mem_trimEnd {cs : List Char} {c : Char} (h : c ∈ trimEnd cs) : c ∈ cs := by
  rw [trimEnd_eq_rdropWhile] at h
  exact (List.rdropWhile_prefix ..).mem h

/-- Every character of a trimmed text is one of the text. -/
theorem mem_of_mem_trim {cs : List Char} {c : Char} (h : c ∈ trim cs) : c ∈ cs :=
  (List.dropWhile_sublist _).mem (mem_of_mem_trimEnd h)

/-! ## Lines -/

private theorem lines_append_lineFeed {l : List Char} (h : '\n' ∉ l) (cs : List Char) :
    lines (l ++ '\n' :: cs) = l :: lines cs := by
  induction l with
  | nil => rw [List.nil_append, lines, if_pos rfl]
  | cons c l ih =>
    rw [List.mem_cons, not_or] at h
    rw [List.cons_append, lines, if_neg (Ne.symm h.1), ih h.2]

/-- The lines of a text that was written line by line, and of what follows it, are those lines and
the lines behind them. -/
theorem lines_unlines_append {ls : List (List Char)} (h : ∀ l ∈ ls, '\n' ∉ l) (cs : List Char) :
    lines (unlines ls ++ cs) = ls ++ lines cs := by
  induction ls with
  | nil => rfl
  | cons l ls ih =>
    have hrest := ih fun l' hl' => h l' (List.mem_cons_of_mem l hl')
    rw [unlines] at hrest
    rw [unlines, List.flatMap_cons, List.append_assoc, List.append_assoc, List.singleton_append,
      lines_append_lineFeed (h l List.mem_cons_self), hrest, List.cons_append]

/-- The lines of a text that was written line by line are those lines. -/
theorem lines_unlines {ls : List (List Char)} (h : ∀ l ∈ ls, '\n' ∉ l) :
    lines (unlines ls) = ls := by
  have hlines := lines_unlines_append h []
  rwa [List.append_nil, lines, List.append_nil] at hlines

/-- No line holds a line feed. -/
theorem lineFeed_notMem_of_mem_lines {cs l : List Char} (h : l ∈ lines cs) : '\n' ∉ l := by
  induction cs generalizing l with
  | nil => cases h
  | cons c cs ih =>
    rw [lines] at h
    split at h
    · rcases List.mem_cons.mp h with rfl | h
      · exact List.not_mem_nil
      · exact ih h
    · next hc =>
      split at h
      · rw [List.mem_singleton.mp h, List.mem_singleton]
        exact Ne.symm hc
      · next l' ls hlines =>
        rw [hlines] at ih
        rcases List.mem_cons.mp h with rfl | h
        · rw [List.mem_cons, not_or]
          exact ⟨Ne.symm hc, ih List.mem_cons_self⟩
        · exact ih (List.mem_cons_of_mem l' h)

end Exemplar.Text
