import Exemplar.Proofs.Text.Cut
import Exemplar.Proofs.Text.Trim
import Exemplar.Struct.Layout

/-!
# The cells of lines

What the cells of a line are in terms of its text.  A line has cells exactly if two backticks stand
on it, with at least two words before the first and nothing or a comment behind the second.
-/

namespace Exemplar.Struct

/-! ## The text of cells -/

/-- The name of a line whose text before the first backtick is given: its first word. -/
def nameOf (before : List Char) : List Char :=
  (Text.trimEnd before).takeWhile fun c => !Text.isBlank c

/-- The type of a line whose text before the first backtick is given: what follows the first
word. -/
def typeOf (before : List Char) : List Char :=
  Text.trim ((Text.trimEnd before).drop (nameOf before).length)

/-- Whether what follows the second backtick of a line is nothing or a comment. -/
def EndsRow (after : List Char) : Prop :=
  Text.trim after = [] ∨ ['/', '/'] <+: Text.trim after

/-- The cells of a line that two backticks stand on. -/
def cellsOf (before body after : List Char) : Cells where
  name := nameOf before
  type := typeOf before
  tag := tick :: (body ++ [tick])
  comment? := if Text.trim after = [] then none else some (Text.trim after)

/-- The cells of a text that is cut at its first two backticks. -/
theorem cells?_append {before body : List Char} (hbefore : tick ∉ before) (hbody : tick ∉ body)
    (after : List Char) (c : Cells) :
    cells? (before ++ tick :: (body ++ tick :: after)) = some c ↔
      typeOf before ≠ [] ∧ EndsRow after ∧ c = cellsOf before body after := by
  rw [cells?, Text.takeWhile_ne_append hbefore, Text.dropWhile_ne_append hbefore]
  dsimp only
  rw [Text.takeWhile_ne_append hbody, Text.dropWhile_ne_append hbody]
  dsimp only
  change (if typeOf before = [] then _ else _) = _ ↔ _
  rw [cellsOf, EndsRow]
  split
  · next htype => exact iff_of_false (by simp) fun h => h.1 htype
  · next htype =>
    split
    · next hrest =>
      rw [Option.some.injEq]
      constructor
      · rintro rfl
        exact ⟨htype, .inl hrest, rfl⟩
      · rintro ⟨-, -, rfl⟩
        rfl
    · next hrest =>
      split
      · next hcomment =>
        rw [List.isPrefixOf_iff_prefix] at hcomment
        rw [Option.some.injEq]
        constructor
        · rintro rfl
          exact ⟨htype, .inr hcomment, rfl⟩
        · rintro ⟨-, -, rfl⟩
          rfl
      · next hcomment =>
        rw [List.isPrefixOf_iff_prefix] at hcomment
        exact iff_of_false (by simp) fun h => h.2.1.elim hrest hcomment

/-- A line has cells only if two backticks stand on it. -/
theorem exists_of_cells? {text : List Char} {c : Cells} (h : cells? text = some c) :
    ∃ before body after, text = before ++ tick :: (body ++ tick :: after) ∧ tick ∉ before ∧
      tick ∉ body ∧ typeOf before ≠ [] ∧ EndsRow after ∧ c = cellsOf before body after := by
  cases hopener : text.dropWhile (· != tick) with
  | nil =>
    rw [cells?, hopener] at h
    cases h
  | cons opener inside =>
    cases hcloser : inside.dropWhile (· != tick) with
    | nil =>
      rw [cells?, hopener] at h
      dsimp only at h
      rw [hcloser] at h
      cases h
    | cons closer after =>
      obtain ⟨htext, hbefore⟩ := Text.exists_append_of_dropWhile_ne hopener
      obtain ⟨hinside, hbody⟩ := Text.exists_append_of_dropWhile_ne hcloser
      rw [hinside] at htext
      refine ⟨_, _, after, htext, hbefore, hbody, ?_⟩
      rw [htext] at h
      exact (cells?_append hbefore hbody after c).mp h

/-- The name and the type of a line hold what stands before the first backtick. -/
theorem ink_nameOf_append_typeOf (before : List Char) :
    Text.ink (nameOf before) ++ Text.ink (typeOf before) = Text.ink before := by
  rw [typeOf, Text.ink_trim, ← Text.ink_append, ← Text.ink_trimEnd before]
  congr 1
  have hprefix : nameOf before <+: Text.trimEnd before := List.takeWhile_prefix _
  obtain ⟨rest, hrest⟩ := hprefix
  rw [← hrest, List.drop_left]

/-- The text behind the tag of a line holds what stands behind the second backtick. -/
theorem ink_comment_cellsOf (before body after : List Char) :
    Text.ink ((cellsOf before body after).comment?.getD []) = Text.ink after := by
  rw [cellsOf]
  dsimp only
  split
  · next h =>
    rw [← Text.ink_trim after, h]
    rfl
  · exact Text.ink_trim after

end Exemplar.Struct
