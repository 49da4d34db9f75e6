/-!
# Cutting at separators

The pieces of a text between the occurrences of a separator.  A text without separators is one
piece, and each separator begins a further one.
-/

namespace Exemplar.Text

/-- Cuts a text at each separator. -/
def split (separator : Char) : List Char → List (List Char)
  | [] => [[]]
  | c :: cs =>
    match split separator cs with
    | [] => [[c]]
    | p :: ps => if c = separator then [] :: p :: ps else (c :: p) :: ps

/-- There is always a piece. -/
theorem split_ne_nil (separator : Char) (cs : List Char) : split separator cs ≠ [] := by
  cases cs with
  | nil => simp [split]
  | cons c cs =>
    rw [split]
    split
    · simp
    · split <;> simp

/-- A separator ends a piece. -/
theorem split_separator (separator : Char) (cs : List Char) :
    split separator (separator :: cs) = [] :: split separator cs := by
  rw [split]
  split
  · rename_i h
    exact absurd h (split_ne_nil separator cs)
  · rename_i h
    rw [if_pos rfl, h]

/-- Text around a separator is cut into the pieces of both parts. -/
theorem split_append_separator (separator : Char) (xs ys : List Char) :
    split separator (xs ++ separator :: ys) = split separator xs ++ split separator ys := by
  induction xs with
  | nil => exact split_separator separator ys
  | cons x xs ih =>
    rw [List.cons_append, split, ih, split]
    cases hsplit : split separator xs with
    | nil => exact absurd hsplit (split_ne_nil separator xs)
    | cons p ps =>
      dsimp only [List.cons_append]
      split <;> rfl

/-- A text without separators is one piece. -/
theorem split_eq_self {separator : Char} {p : List Char} (h : separator ∉ p) :
    split separator p = [p] := by
  induction p with
  | nil => rfl
  | cons c p ih =>
    rw [List.mem_cons, not_or] at h
    rw [split, ih h.2]
    simp only
    rw [if_neg (Ne.symm h.1)]

/-- A text without separators before a separator is the first piece. -/
theorem split_append {separator : Char} {p : List Char} (h : separator ∉ p) (cs : List Char) :
    split separator (p ++ separator :: cs) = p :: split separator cs := by
  rw [split_append_separator, split_eq_self h, List.singleton_append]

/-- A piece has no separator. -/
theorem separator_notMem_of_mem_split {separator : Char} {cs p : List Char}
    (h : p ∈ split separator cs) : separator ∉ p := by
  induction cs generalizing p with
  | nil =>
    rw [List.mem_singleton.mp h]
    exact List.not_mem_nil
  | cons c cs ih =>
    cases hsplit : split separator cs with
    | nil => exact absurd hsplit (split_ne_nil separator cs)
    | cons q qs =>
      rw [hsplit] at ih
      rw [split, hsplit] at h
      dsimp only at h
      split at h
      · rcases List.mem_cons.mp h with rfl | h
        · exact List.not_mem_nil
        · exact ih h
      · next hne =>
        rcases List.mem_cons.mp h with rfl | h
        · rw [List.mem_cons, not_or]
          exact ⟨Ne.symm hne, ih List.mem_cons_self⟩
        · exact ih (List.mem_cons_of_mem q h)

end Exemplar.Text
