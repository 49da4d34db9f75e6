/-!
# The order of keys

Fields follow one another in the order of their keys: `id` before all others, and these by code
points.  The main statements: sorting permutes entries into that order, and gives the same list for
every order in which entries with distinct keys came.  Source: `sorted_keys` in the module
`inference`.
-/

namespace Exemplar

/-- The key that stands before all others. -/
def leadingKey : String := "id"

/-- Whether a key may stand before another.  Source: the order in `sorted_keys`. -/
def KeyLe (a b : String) : Prop :=
  a = leadingKey ∨ (b ≠ leadingKey ∧ a ≤ b)

instance (a b : String) : Decidable (KeyLe a b) :=
  inferInstanceAs (Decidable (_ ∨ _))

/-- Puts an entry before the first one whose key may follow its own. -/
def insertByKey {α : Type} (e : String × α) : List (String × α) → List (String × α)
  | [] => [e]
  | x :: xs => if KeyLe e.1 x.1 then e :: x :: xs else x :: insertByKey e xs

/-- Brings entries into the order of their keys.  Source: the sorting in `sorted_keys`. -/
def sortByKey {α : Type} (es : List (String × α)) : List (String × α) :=
  es.foldr insertByKey []

/-! ## A linear order -/

/-- Of two keys one may stand before the other. -/
theorem KeyLe.total (a b : String) : KeyLe a b ∨ KeyLe b a := by
  by_cases ha : a = leadingKey
  · exact .inl (.inl ha)
  · by_cases hb : b = leadingKey
    · exact .inr (.inl hb)
    · exact (String.le_total a b).imp (fun h => .inr ⟨hb, h⟩) (fun h => .inr ⟨ha, h⟩)

/-- A key stands before all that stand behind a later one. -/
theorem KeyLe.trans {a b c : String} (hab : KeyLe a b) (hbc : KeyLe b c) : KeyLe a c := by
  rcases hab with ha | ⟨hb, hab⟩
  · exact .inl ha
  · rcases hbc with hb' | ⟨hc, hbc⟩
    · exact absurd hb' hb
    · exact .inr ⟨hc, String.le_trans hab hbc⟩

/-- Two keys that may stand either way are equal. -/
theorem KeyLe.antisymm {a b : String} (hab : KeyLe a b) (hba : KeyLe b a) : a = b := by
  rcases hab with ha | ⟨hb, hab⟩
  · rcases hba with hb | ⟨ha', -⟩
    · rw [ha, hb]
    · exact absurd ha ha'
  · rcases hba with hb' | ⟨-, hba⟩
    · exact absurd hb' hb
    · exact String.le_antisymm hab hba

/-! ## Sorting -/

private theorem insertByKey_perm {α : Type} (e : String × α) (xs : List (String × α)) :
    (insertByKey e xs).Perm (e :: xs) := by
  induction xs with
  | nil => exact .refl _
  | cons x xs ih =>
    rw [insertByKey]
    split
    · exact .refl _
    · exact (ih.cons x).trans (.swap e x xs)

/-- Sorting loses no entry and adds none. -/
theorem sortByKey_perm {α : Type} (es : List (String × α)) : (sortByKey es).Perm es := by
  induction es with
  | nil => exact .refl _
  | cons e es ih => exact (insertByKey_perm e _).trans (ih.cons e)

private theorem insertByKey_sorted {α : Type} {e : String × α} {xs : List (String × α)}
    (h : xs.Pairwise fun x y => KeyLe x.1 y.1) :
    (insertByKey e xs).Pairwise fun x y => KeyLe x.1 y.1 := by
  induction xs with
  | nil => exact List.pairwise_singleton _ _
  | cons x xs ih =>
    rw [List.pairwise_cons] at h
    rw [insertByKey]
    split
    · rename_i hle
      refine List.pairwise_cons.2 ⟨?_, List.pairwise_cons.2 h⟩
      intro y hy
      rcases List.mem_cons.1 hy with rfl | hy
      · exact hle
      · exact hle.trans (h.1 y hy)
    · rename_i hle
      refine List.pairwise_cons.2 ⟨?_, ih h.2⟩
      intro y hy
      rcases List.mem_cons.1 ((insertByKey_perm e xs).mem_iff.1 hy) with rfl | hy
      · exact (KeyLe.total x.1 y.1).resolve_right hle
      · exact h.1 y hy

/-- Sorted entries stand in the order of their keys. -/
theorem sortByKey_sorted {α : Type} (es : List (String × α)) :
    (sortByKey es).Pairwise fun x y => KeyLe x.1 y.1 := by
  induction es with
  | nil => exact .nil
  | cons e es ih => exact insertByKey_sorted ih

private theorem eq_of_fst_eq {α : Type} {es : List (String × α)} (h : (es.map Prod.fst).Nodup)
    {x y : String × α} (hx : x ∈ es) (hy : y ∈ es) (hxy : x.1 = y.1) : x = y := by
  induction es with
  | nil => exact absurd hx List.not_mem_nil
  | cons e es ih =>
    rw [List.map_cons, List.nodup_cons] at h
    rcases List.mem_cons.1 hx with hxe | hx
    · rcases List.mem_cons.1 hy with hye | hy
      · rw [hxe, hye]
      · exact absurd (List.mem_map.2 ⟨y, hy, by rw [← hxy, hxe]⟩) h.1
    · rcases List.mem_cons.1 hy with hye | hy
      · exact absurd (List.mem_map.2 ⟨x, hx, by rw [hxy, hye]⟩) h.1
      · exact ih h.2 hx hy

/-- Entries with distinct keys are sorted into one list, whatever order they came in. -/
theorem sortByKey_eq_of_perm {α : Type} {es es' : List (String × α)} (h : es.Perm es')
    (hkeys : (es.map Prod.fst).Nodup) : sortByKey es = sortByKey es' := by
  have hperm : (sortByKey es).Perm (sortByKey es') :=
    (sortByKey_perm es).trans (h.trans (sortByKey_perm es').symm)
  refine hperm.eq_of_pairwise ?_ (sortByKey_sorted es) (sortByKey_sorted es')
  intro x y hx hy hxy hyx
  have hx := (sortByKey_perm es).mem_iff.1 hx
  have hy := (sortByKey_perm es).mem_iff.1 (hperm.mem_iff.2 hy)
  exact eq_of_fst_eq hkeys hx hy (hxy.antisymm hyx)

/-- A map that keeps keys may be applied before sorting or after. -/
theorem sortByKey_map {α β : Type} (f : String × α → String × β) (hf : ∀ e, (f e).1 = e.1)
    (es : List (String × α)) : sortByKey (es.map f) = (sortByKey es).map f := by
  have hinsert : ∀ (e : String × α) (xs : List (String × α)),
      insertByKey (f e) (xs.map f) = (insertByKey e xs).map f := by
    intro e xs
    induction xs with
    | nil => rfl
    | cons x xs ih =>
      rw [List.map_cons, insertByKey, insertByKey, hf, hf]
      split
      · rfl
      · rw [List.map_cons, ih]
  induction es with
  | nil => rfl
  | cons e es ih =>
    change insertByKey (f e) (sortByKey (es.map f)) = _
    rw [ih, hinsert]
    rfl

end Exemplar
