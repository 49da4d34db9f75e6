import Mathlib.Logic.Relation
import Exemplar.Proofs.Struct.NormalForm

/-!
# Texts with other blanks

The blanks around lines, the lengths of gaps and the blank lines at the ends of a text do not
matter to its rows.  The main statement: a laid out text is its own layout, and it is the layout of
every text that differs from the first one in nothing else.
-/

namespace Exemplar.Struct

/-- A change of blanks in the lines of a text: blanks around one of them, more or fewer blank lines
where there are some, or blank lines at either end. -/
inductive BlankEdit : List (List Char) → List (List Char) → Prop
  | around (before after : List (List Char)) (text : List Char)
      {left right left' right' : List Char} (hleft : ∀ c ∈ left, Text.isBlank c = true)
      (hright : ∀ c ∈ right, Text.isBlank c = true)
      (hleft' : ∀ c ∈ left', Text.isBlank c = true)
      (hright' : ∀ c ∈ right', Text.isBlank c = true) :
      BlankEdit (before ++ (left ++ text ++ right) :: after)
        (before ++ (left' ++ text ++ right') :: after)
  | between (before after : List (List Char)) (m n : Nat) :
      BlankEdit (before ++ (List.replicate (m + 1) [] ++ after))
        (before ++ (List.replicate (n + 1) [] ++ after))
  | above (n : Nat) (ls : List (List Char)) : BlankEdit ls (List.replicate n [] ++ ls)
  | below (n : Nat) (ls : List (List Char)) : BlankEdit ls (ls ++ List.replicate n [])

/-! ## Lines that are read as the same rows -/

/-- Whether lines are read as the same rows, if the same blocks are open and the same stands before
them, wherever they are. -/
def ReadAlike (ls ls' : List (List Char)) : Prop :=
  ∀ number number' depth started gap rs, rowsFrom number depth started gap ls = .ok rs ↔
    rowsFrom number' depth started gap ls' = .ok rs

private theorem ReadAlike.cons {l l' : List Char} (hl : Text.trim l = Text.trim l')
    {ls ls' : List (List Char)} (h : ReadAlike ls ls') : ReadAlike (l :: ls) (l' :: ls') := by
  intro number number' depth started gap rs
  by_cases hblank : Text.trim l = []
  · rw [rowsFrom_blank hblank, rowsFrom_blank (hl.symm.trans hblank)]
    exact h _ _ depth started started rs
  · rw [rowsFrom_cons_eq_ok_iff hblank, rowsFrom_cons_eq_ok_iff (hl ▸ hblank), hl]
    refine exists_congr fun depth' => exists_congr fun rs' => and_congr_right' ?_
    exact and_congr_left' (h _ _ _ true false rs')

private theorem ReadAlike.behind {ls ls' : List (List Char)} (h : ReadAlike ls ls') :
    ∀ before, ReadAlike (before ++ ls) (before ++ ls')
  | [] => h
  | _ :: before => .cons rfl (h.behind before)

private theorem ReadAlike.refl (ls : List (List Char)) : ReadAlike ls ls := by
  induction ls with
  | nil =>
    intro number number' depth started gap rs
    rw [rowsFrom_nil_eq_ok_iff, rowsFrom_nil_eq_ok_iff]
  | cons l ls ih => exact .cons rfl ih

private theorem rowsFrom_blanks (n number depth : Nat) (started gap : Bool)
    (ls : List (List Char)) :
    rowsFrom number depth started gap (List.replicate (n + 1) [] ++ ls) =
      rowsFrom (number + (n + 1)) depth started started ls := by
  induction n generalizing number gap with
  | zero => exact rowsFrom_blank rfl number depth started gap ls
  | succ n ih =>
    rw [List.replicate_succ, List.cons_append, rowsFrom_blank rfl, ih, Nat.add_assoc,
      Nat.add_comm 1]

private theorem ReadAlike.blanks (m n : Nat) (ls : List (List Char)) :
    ReadAlike (List.replicate (m + 1) [] ++ ls) (List.replicate (n + 1) [] ++ ls) := by
  intro number number' depth started gap rs
  rw [rowsFrom_blanks, rowsFrom_blanks]
  exact ReadAlike.refl ls _ _ depth started started rs

private theorem ReadAlike.nil_blanks (n : Nat) : ReadAlike [] (List.replicate n []) := by
  cases n with
  | zero => exact .refl []
  | succ n =>
    intro number number' depth started gap rs
    rw [← List.append_nil (List.replicate (n + 1) []), rowsFrom_blanks, rowsFrom_nil_eq_ok_iff,
      rowsFrom_nil_eq_ok_iff]

/-! ## Changes of blanks -/

private theorem BlankEdit.rowsFrom_iff {ls ls' : List (List Char)} (h : BlankEdit ls ls')
    (number number' : Nat) (rs : List Row) :
    rowsFrom number 0 false false ls = .ok rs ↔ rowsFrom number' 0 false false ls' = .ok rs := by
  cases h with
  | around before after text hleft hright hleft' hright' =>
    refine ReadAlike.behind (.cons ?_ (.refl after)) before number number' 0 false false rs
    rw [Text.trim_append_of_blank _ hright, Text.trim_blank_append hleft,
      Text.trim_append_of_blank _ hright', Text.trim_blank_append hleft']
  | between before after m n =>
    exact (ReadAlike.blanks m n after).behind before number number' 0 false false rs
  | above n ls =>
    cases n with
    | zero => exact ReadAlike.refl ls number number' 0 false false rs
    | succ n =>
      rw [rowsFrom_blanks]
      exact ReadAlike.refl ls number _ 0 false false rs
  | below n ls =>
    have hbelow := (ReadAlike.nil_blanks n).behind ls
    rw [List.append_nil] at hbelow
    exact hbelow number number' 0 false false rs

private theorem rowsFrom_iff_of_blankEdits {ls ls' : List (List Char)}
    (h : Relation.EqvGen BlankEdit ls ls') (rs : List Row) :
    rowsFrom 1 0 false false ls = .ok rs ↔ rowsFrom 1 0 false false ls' = .ok rs := by
  induction h with
  | rel ls ls' hedit => exact hedit.rowsFrom_iff 1 1 rs
  | refl ls => exact Iff.rfl
  | symm ls ls' _ ih => exact ih.symm
  | trans ls ls' ls'' _ _ ih ih' => exact ih.trans ih'

/-- A laid out text is its own layout, and it is that of every text that differs from the one it
was laid out from by changes of blanks. -/
theorem layout_normalForm {source out : List Char} (h : layout source = .ok out) :
    layout out = .ok out ∧
      ∀ source', Relation.EqvGen BlankEdit (Text.lines source) (Text.lines source') →
        layout source' = .ok out := by
  refine ⟨layout_layout h, fun source' hedits => ?_⟩
  obtain ⟨rs, hrows, rfl⟩ := map_eq_ok_iff.mp h
  exact map_eq_ok_iff.mpr ⟨rs, (rowsFrom_iff_of_blankEdits hedits rs).mp hrows, rfl⟩

/-- A text with two blank lines in a block, and a tag in it. -/
def gappedText : List Char :=
  "type A struct \x7b\n\n\n B  int `b`\n\x7d".toList

/-- The text with one blank line there and one at the top, and other blanks around its field. -/
def regappedText : List Char :=
  "\ntype A struct \x7b\n\nB  int `b`\t\n\x7d\n".toList

/-- The two texts have the same layout, which is its own. -/
theorem layout_normalForm_gapped :
    ∃ out, layout gappedText = .ok out ∧ layout out = .ok out ∧ layout regappedText = .ok out := by
  have hout : layout gappedText =
      .ok "type A struct \x7b\n\n\tB int `b`\n\x7d\n".toList := by decide +kernel
  obtain ⟨hnormal, hsame⟩ := layout_normalForm hout
  refine ⟨_, hout, hnormal, hsame regappedText ?_⟩
  have hlines : Text.lines gappedText = ["type A struct \x7b".toList, [], [],
      [' '] ++ "B  int `b`".toList ++ [], ['\x7d']] := by decide +kernel
  have hlines' : Text.lines regappedText = [[], "type A struct \x7b".toList, [],
      [] ++ "B  int `b`".toList ++ ['\t'], ['\x7d']] := by decide +kernel
  rw [hlines, hlines']
  refine .trans _ _ _ (.rel _ _ (.above 1 _)) (.trans _ _ _
    (.rel _ _ (.between [[], "type A struct \x7b".toList] [_, ['\x7d']] 1 0)) (.rel _ _ ?_))
  exact .around [[], "type A struct \x7b".toList, []] [['\x7d']] "B  int `b`".toList
    (List.forall_mem_singleton.mpr rfl) (List.forall_mem_nil _) (List.forall_mem_nil _)
    (List.forall_mem_singleton.mpr rfl)

end Exemplar.Struct
