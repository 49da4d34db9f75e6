import Mathlib.Data.List.TakeWhile

/-!
# Texts cut at a character

A text is cut where a test of its characters fails first.  A text that holds a character is cut in
one way at the first place where the character stands.
-/

namespace Exemplar.Text

/-- A list is cut exactly in front of the first element that fails a test. -/
theorem cut_iff {α : Type} {p : α → Bool} {xs before after : List α} :
    xs.takeWhile p = before ∧ xs.dropWhile p = after ↔
      xs = before ++ after ∧ (∀ x ∈ before, p x = true) ∧ ∀ x ∈ after.head?, p x = false := by
  constructor
  · rintro ⟨rfl, rfl⟩
    refine ⟨List.takeWhile_append_dropWhile.symm, fun x => List.mem_takeWhile_imp, fun x hx => ?_⟩
    have hhead := List.head?_dropWhile_not p xs
    rw [Option.mem_def.mp hx] at hhead
    exact hhead
  · rintro ⟨rfl, hbefore, hafter⟩
    rw [List.takeWhile_append_of_pos hbefore, List.dropWhile_append_of_pos hbefore]
    cases after with
    | nil => exact ⟨List.append_nil _, rfl⟩
    | cons x after =>
      have hx : ¬ p x = true := by
        rw [hafter x rfl]
        exact Bool.false_ne_true
      rw [List.takeWhile_cons_of_neg hx, List.dropWhile_cons_of_neg hx]
      exact ⟨List.append_nil _, rfl⟩

variable {c : Char} {xs ys xs' ys' : List Char}

/-- A text up to a character that it does not hold is the part before it. -/
theorem takeWhile_ne_append (h : c ∉ xs) (ys : List Char) :
    (xs ++ c :: ys).takeWhile (· != c) = xs := by
  have hxs : ∀ d ∈ xs, (d != c) = true := by
    intro d hd
    rw [bne_iff_ne]
    rintro rfl
    exact h hd
  rw [List.takeWhile_append_of_pos hxs, List.takeWhile_cons_of_neg (by simp), List.append_nil]

/-- A text from a character on that its first part does not hold is the other part. -/
theorem dropWhile_ne_append (h : c ∉ xs) (ys : List Char) :
    (xs ++ c :: ys).dropWhile (· != c) = c :: ys := by
  have hxs : ∀ d ∈ xs, (d != c) = true := by
    intro d hd
    rw [bne_iff_ne]
    rintro rfl
    exact h hd
  rw [List.dropWhile_append_of_pos hxs, List.dropWhile_cons_of_neg (by simp)]

/-- Nothing of a text stands behind a character that it does not hold. -/
theorem dropWhile_ne_eq_nil (h : c ∉ xs) : xs.dropWhile (· != c) = [] := by
  rw [List.dropWhile_eq_nil_iff]
  intro d hd
  rw [bne_iff_ne]
  rintro rfl
  exact h hd

/-- What stands from the first place of a character on begins with the character. -/
theorem exists_append_of_dropWhile_ne {d : Char} (h : xs.dropWhile (· != c) = d :: ys) :
    xs = xs.takeWhile (· != c) ++ c :: ys ∧ c ∉ xs.takeWhile (· != c) := by
  have hhead := List.head?_dropWhile_not (· != c) xs
  rw [h] at hhead
  obtain rfl : d = c := by simpa using hhead
  constructor
  · rw [← h, List.takeWhile_append_dropWhile]
  · intro hmem
    have hne := List.mem_takeWhile_imp hmem
    simp at hne

/-- A text that holds a character is cut at the first place where it stands. -/
theorem exists_cut (h : c ∈ xs) : ∃ before after, xs = before ++ c :: after ∧ c ∉ before := by
  cases hdrop : xs.dropWhile (· != c) with
  | nil =>
    rw [List.dropWhile_eq_nil_iff] at hdrop
    exact absurd (hdrop c h) (by simp)
  | cons d after => exact ⟨_, after, exists_append_of_dropWhile_ne hdrop⟩

/-- A text is cut in one way at the first place of a character. -/
theorem cut_unique (hxs : c ∉ xs) (hxs' : c ∉ xs') (h : xs ++ c :: ys = xs' ++ c :: ys') :
    xs = xs' ∧ ys = ys' := by
  have htake := congrArg (List.takeWhile (· != c)) h
  have hdrop := congrArg (List.dropWhile (· != c)) h
  rw [takeWhile_ne_append hxs, takeWhile_ne_append hxs'] at htake
  rw [dropWhile_ne_append hxs, dropWhile_ne_append hxs'] at hdrop
  exact ⟨htake, (List.cons.inj hdrop).2⟩

end Exemplar.Text
