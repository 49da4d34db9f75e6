import Mathlib.Data.List.Forall2
import Exemplar.Error

/-!
# Outcomes of several steps

Steps of which each has a result or an error, taken in order: when they all have results, and
which error ends them when they do not.
-/

namespace Exemplar

variable {ε α β γ : Type}

/-! ## Results -/

/-- Two steps have a result exactly when the first has one and the second has that result from
it. -/
theorem bind_eq_ok_iff {x : Except ε α} {f : α → Except ε β} {b : β} :
    x >>= f = .ok b ↔ ∃ a, x = .ok a ∧ f a = .ok b := by
  cases x with
  | error e => simp [bind, Except.bind]
  | ok a => simp [bind, Except.bind]

/-- A mapped outcome is a result exactly when the outcome is one that is mapped to it. -/
theorem map_eq_ok_iff {x : Except ε α} {f : α → β} {b : β} :
    x.map f = .ok b ↔ ∃ a, x = .ok a ∧ f a = b := by
  cases x with
  | error e => simp [Except.map]
  | ok a => simp [Except.map]

/-- Rewording its error does not change the result of an outcome. -/
theorem mapError_eq_ok_iff {ε' : Type} {x : Except ε α} {f : ε → ε'} {a : α} :
    x.mapError f = .ok a ↔ x = .ok a := by
  cases x with
  | error e => simp [Except.mapError]
  | ok b => simp [Except.mapError]

/-- Steps taken in order all have results exactly when each of them has its own. -/
theorem mapM_eq_ok_iff {f : α → Except ε β} {xs : List α} {ys : List β} :
    xs.mapM f = .ok ys ↔ List.Forall₂ (fun x y => f x = .ok y) xs ys := by
  induction xs generalizing ys with
  | nil =>
    rw [List.mapM_nil, List.forall₂_nil_left_iff]
    exact ⟨fun h => (Except.ok.inj h).symm, fun h => h ▸ rfl⟩
  | cons x xs ih =>
    rw [List.mapM_cons, List.forall₂_cons_left_iff]
    cases hx : f x with
    | error e =>
      constructor
      · intro h
        cases h
      · rintro ⟨y, ys', hy, -, -⟩
        cases hy
    | ok y =>
      cases hxs : xs.mapM f with
      | error e =>
        constructor
        · intro h
          cases h
        · rintro ⟨y', ys', -, hys, -⟩
          rw [← ih, hxs] at hys
          cases hys
      | ok ys' =>
        constructor
        · intro h
          exact ⟨y, ys', rfl, ih.mp hxs, (Except.ok.inj h).symm⟩
        · rintro ⟨z, zs, hz, hzs, rfl⟩
          rw [← ih, hxs] at hzs
          rw [Except.ok.inj hz, ← Except.ok.inj hzs]
          rfl

/-- A result of steps taken in order is that of one of them. -/
theorem exists_of_mem_mapM {f : α → Except ε β} {xs : List α} {ys : List β}
    (h : xs.mapM f = .ok ys) {y : β} (hy : y ∈ ys) : ∃ x ∈ xs, f x = .ok y := by
  rw [mapM_eq_ok_iff] at h
  induction h with
  | nil => cases hy
  | cons hx _ ih =>
    rcases List.mem_cons.mp hy with rfl | hy
    · exact ⟨_, List.mem_cons_self, hx⟩
    · obtain ⟨x, hmem, hx⟩ := ih hy
      exact ⟨x, List.mem_cons_of_mem _ hmem, hx⟩

/-- A step taken in order has one of the results. -/
theorem exists_mem_of_mapM {f : α → Except ε β} {xs : List α} {ys : List β}
    (h : xs.mapM f = .ok ys) {x : α} (hx : x ∈ xs) : ∃ y ∈ ys, f x = .ok y := by
  rw [mapM_eq_ok_iff] at h
  induction h with
  | nil => cases hx
  | cons hy _ ih =>
    rcases List.mem_cons.mp hx with rfl | hx
    · exact ⟨_, List.mem_cons_self, hy⟩
    · obtain ⟨y, hmem, hy⟩ := ih hx
      exact ⟨y, List.mem_cons_of_mem _ hmem, hy⟩

/-- Steps that all have results, each by way of a first part, have them by way of the results of
the first parts. -/
theorem exists_mapM_through {f : α → Except ε β} {g : β → Except ε γ} {step : α → Except ε γ}
    (hstep : ∀ x z, step x = .ok z → ∃ y, f x = .ok y ∧ g y = .ok z) {xs : List α} {zs : List γ}
    (h : xs.mapM step = .ok zs) : ∃ ys, xs.mapM f = .ok ys ∧ ys.mapM g = .ok zs := by
  rw [mapM_eq_ok_iff] at h
  induction h with
  | nil => exact ⟨[], rfl, rfl⟩
  | cons hx _ ih =>
    obtain ⟨y, hy, hz⟩ := hstep _ _ hx
    obtain ⟨ys, hys, hzs⟩ := ih
    rw [mapM_eq_ok_iff] at hys hzs
    exact ⟨y :: ys, mapM_eq_ok_iff.mpr (.cons hy hys), mapM_eq_ok_iff.mpr (.cons hz hzs)⟩

/-- Steps that do the same on every item have the same outcome. -/
theorem mapM_congr {f g : α → Except ε β} {xs : List α} (h : ∀ x ∈ xs, f x = g x) :
    xs.mapM f = xs.mapM g := by
  induction xs with
  | nil => rfl
  | cons x xs ih =>
    rw [List.mapM_cons, List.mapM_cons, h x List.mem_cons_self,
      ih fun y hy => h y (List.mem_cons_of_mem x hy)]

/-- A function may be applied to each result or to all of them at the end. -/
theorem map_mapM (f : α → Except ε β) (g : β → γ) (xs : List α) :
    (xs.mapM f).map (List.map g) = xs.mapM fun x => (f x).map g := by
  induction xs with
  | nil => rfl
  | cons x xs ih =>
    rw [List.mapM_cons, List.mapM_cons, ← ih]
    cases f x with
    | error e => rfl
    | ok y => cases xs.mapM f <;> rfl

/-- What is read off the results of steps in a row is what is read off the items, if that holds of
each step. -/
theorem flatMap_of_mapM {f : α → Except ε β} {g : β → List γ} {h : α → List γ}
    (hstep : ∀ x y, f x = .ok y → g y = h x) {xs : List α} {ys : List β}
    (hys : xs.mapM f = .ok ys) : ys.flatMap g = xs.flatMap h := by
  rw [mapM_eq_ok_iff] at hys
  induction hys with
  | nil => rfl
  | cons hxy _ ih => rw [List.flatMap_cons, List.flatMap_cons, hstep _ _ hxy, ih]

/-- Two maps of an outcome are one. -/
theorem map_map_outcome (g : α → β) (h : β → γ) (x : Except ε α) :
    (x.map g).map h = x.map fun a => h (g a) := by
  cases x <;> rfl

/-! ## The error that ends them -/

/-- Steps taken in order end with the error of one of them, before which all have results. -/
theorem exists_of_mapM_eq_error {f : α → Except ε β} {xs : List α} {e : ε}
    (h : xs.mapM f = .error e) :
    ∃ before x after, xs = before ++ x :: after ∧ (∀ y ∈ before, ∃ b, f y = .ok b) ∧
      f x = .error e := by
  induction xs with
  | nil => cases h
  | cons x xs ih =>
    rw [List.mapM_cons] at h
    cases hx : f x with
    | error e' =>
      rw [hx] at h
      obtain rfl := Except.error.inj h
      exact ⟨[], x, xs, rfl, fun y hy => absurd hy List.not_mem_nil, hx⟩
    | ok b =>
      rw [hx] at h
      cases hxs : xs.mapM f with
      | ok bs =>
        rw [hxs] at h
        cases h
      | error e' =>
        rw [hxs] at h
        obtain rfl := Except.error.inj h
        obtain ⟨before, y, after, rfl, hbefore, hy⟩ := ih hxs
        refine ⟨x :: before, y, after, rfl, ?_, hy⟩
        intro z hz
        rcases List.mem_cons.mp hz with rfl | hz
        · exact ⟨b, hx⟩
        · exact hbefore z hz

/-- The error of an outcome that is one. -/
def failure? : Except ε α → Option ε
  | .ok _ => none
  | .error e => some e

/-- An outcome is an error exactly when that is its error. -/
theorem failure?_eq_some_iff {x : Except ε α} {e : ε} : failure? x = some e ↔ x = .error e := by
  cases x with
  | error e' => simp only [failure?, Option.some.injEq, Except.error.injEq]
  | ok a => simp only [failure?, reduceCtorEq]

/-- An outcome without an error has a result. -/
theorem exists_ok_of_failure? {x : Except ε α} (h : failure? x = none) : ∃ a, x = .ok a := by
  cases x with
  | error e => cases h
  | ok a => exact ⟨a, rfl⟩

/-- Mapping results keeps the error. -/
theorem failure?_map (g : α → β) (x : Except ε α) : failure? (x.map g) = failure? x := by
  cases x <;> rfl

/-- Two steps end with the first of the errors that each may end with. -/
theorem failure?_bind {x : Except ε α} {f : α → Except ε β} {es es' : List ε}
    (hx : failure? x = es.head?) (hf : ∀ a, x = .ok a → failure? (f a) = es'.head?) :
    failure? (x >>= f) = (es ++ es').head? := by
  rw [List.head?_append, ← hx]
  cases x with
  | error e => rfl
  | ok a => exact hf a rfl

/-- Two steps of which the second never fails end with the error of the first. -/
theorem failure?_bind_left {x : Except ε α} {f : α → Except ε β}
    (hf : ∀ a, failure? (f a) = none) : failure? (x >>= f) = failure? x := by
  cases x with
  | error e => rfl
  | ok a => exact hf a

/-- Two steps of which the first does not fail end with the error of the second. -/
theorem failure?_bind_right {x : Except ε α} {f : α → Except ε β} {e? : Option ε}
    (hx : failure? x = none) (hf : ∀ a, failure? (f a) = e?) : failure? (x >>= f) = e? := by
  cases x with
  | error e => cases hx
  | ok a => exact hf a

/-- Steps taken in order end with the first of the errors that they may end with. -/
theorem failure?_mapM {f : α → Except ε β} {errors : α → List ε} {xs : List α}
    (h : ∀ x ∈ xs, failure? (f x) = (errors x).head?) :
    failure? (xs.mapM f) = (xs.flatMap errors).head? := by
  induction xs with
  | nil => rfl
  | cons x xs ih =>
    rw [List.mapM_cons, List.flatMap_cons]
    refine failure?_bind (h x List.mem_cons_self) fun y _ => ?_
    have hrest := ih fun z hz => h z (List.mem_cons_of_mem x hz)
    rw [← hrest]
    cases xs.mapM f <;> rfl

end Exemplar
