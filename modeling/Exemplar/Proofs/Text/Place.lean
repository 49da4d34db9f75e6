import Exemplar.Proofs.Text.Trim

/-!
# Places in text that is spaced out anew

A part of a text is at its place in another spacing of the text if the characters before it and
behind it, blanks apart, are the same.  The main statement: a part that begins and ends with other
characters than blanks has one such place, so it stands there exactly if it is what stands there.
-/

namespace Exemplar.Text

/-- Whether a part stands in a text at the place that it has between two others, blanks apart. -/
def KeepsAt (before part after text : List Char) : Prop :=
  ∃ before' after', text = before' ++ (part ++ after') ∧ ink before' = ink before ∧
    ink after' = ink after

/-- Whether a text begins with a character that is not blank. -/
def BeginsSolid (cs : List Char) : Prop :=
  ∃ c rest, cs = c :: rest ∧ isBlank c = false

/-- Whether a text ends with a character that is not blank. -/
def EndsSolid (cs : List Char) : Prop :=
  ∃ rest c, cs = rest ++ [c] ∧ isBlank c = false

/-- Whether a text begins and ends with characters that are not blank. -/
def IsSolid (cs : List Char) : Prop :=
  BeginsSolid cs ∧ EndsSolid cs

/-- A text begins as its first part does. -/
theorem BeginsSolid.append {xs : List Char} (h : BeginsSolid xs) (ys : List Char) :
    BeginsSolid (xs ++ ys) := by
  obtain ⟨c, rest, rfl, hc⟩ := h
  exact ⟨c, rest ++ ys, rfl, hc⟩

/-- A text ends as its last part does. -/
theorem EndsSolid.append {ys : List Char} (h : EndsSolid ys) (xs : List Char) :
    EndsSolid (xs ++ ys) := by
  obtain ⟨rest, c, rfl, hc⟩ := h
  exact ⟨xs ++ rest, c, (List.append_assoc _ _ _).symm, hc⟩

/-- A text ends as it does without the blanks at its start. -/
theorem EndsSolid.trimStart {cs : List Char} (h : EndsSolid cs) : EndsSolid (trimStart cs) := by
  obtain ⟨rest, c, rfl, hc⟩ := h
  rw [trimStart_append]
  split
  · rw [trimStart_cons hc]
    exact ⟨[], c, rfl, hc⟩
  · exact ⟨_, c, rfl, hc⟩

/-- A text that ends with a character that is not blank has no blanks at its end. -/
theorem EndsSolid.trimEnd_eq {cs : List Char} (h : EndsSolid cs) : trimEnd cs = cs := by
  obtain ⟨rest, c, rfl, hc⟩ := h
  exact trimEnd_concat hc rest

/-- Text with trimmed text behind it is trimmed at its start alone. -/
theorem EndsSolid.trim_append {cs : List Char} (h : EndsSolid cs) (ds : List Char) :
    trim (cs ++ Text.trimEnd ds) = Text.trimStart cs ++ Text.trimEnd ds := by
  have hne : Text.trimStart cs ≠ [] := by
    obtain ⟨rest, c, hcs, -⟩ := h.trimStart
    rw [hcs]
    exact List.append_ne_nil_of_right_ne_nil _ (List.cons_ne_nil _ _)
  rw [trim, trimStart_append, if_neg hne, trimEnd_append, trimEnd_trimEnd]
  split
  · next hnil => rw [h.trimStart.trimEnd_eq, hnil, List.append_nil]
  · rfl

private theorem EndsSolid.reverse {cs : List Char} (h : EndsSolid cs) : BeginsSolid cs.reverse := by
  obtain ⟨rest, c, rfl, hc⟩ := h
  exact ⟨c, rest.reverse, List.reverse_concat, hc⟩

private theorem ink_reverse (cs : List Char) : ink cs.reverse = (ink cs).reverse :=
  List.filter_reverse

private theorem append_inj_of_ink {xs xs' ys ys' : List Char} (h : xs ++ ys = xs' ++ ys')
    (hink : ink xs = ink xs') (hy : BeginsSolid ys) (hy' : BeginsSolid ys') :
    xs = xs' ∧ ys = ys' := by
  induction xs generalizing xs' with
  | nil =>
    cases xs' with
    | nil => exact ⟨rfl, h⟩
    | cons x xs' =>
      obtain ⟨c, rest, rfl, hc⟩ := hy
      obtain ⟨rfl, -⟩ := List.cons.inj h
      rw [ink_cons_of_not_blank hc] at hink
      cases hink
  | cons x xs ih =>
    cases xs' with
    | nil =>
      obtain ⟨c, rest, rfl, hc⟩ := hy'
      obtain ⟨rfl, -⟩ := List.cons.inj h
      rw [ink_cons_of_not_blank hc] at hink
      cases hink
    | cons x' xs' =>
      obtain ⟨rfl, hrest⟩ := List.cons.inj h
      have htail : ink xs = ink xs' := by
        cases hx : isBlank x with
        | true => rwa [ink_cons_of_blank hx, ink_cons_of_blank hx] at hink
        | false =>
          rw [ink_cons_of_not_blank hx, ink_cons_of_not_blank hx] at hink
          exact (List.cons.inj hink).2
      obtain ⟨rfl, rfl⟩ := ih hrest htail
      exact ⟨rfl, rfl⟩

private theorem keepsAt_iff {before part after lead found rest : List Char} (hpart : IsSolid part)
    (hfound : IsSolid found) (hlead : ink lead = ink before) (hrest : ink rest = ink after) :
    KeepsAt before part after (lead ++ (found ++ rest)) ↔ part = found := by
  constructor
  · rintro ⟨before', after', htext, hbefore, hafter⟩
    obtain ⟨-, hbehind⟩ := append_inj_of_ink htext (hlead.trans hbefore.symm)
      (hfound.1.append rest) (hpart.1.append after')
    have hreverse := congrArg List.reverse hbehind
    rw [List.reverse_append, List.reverse_append] at hreverse
    obtain ⟨-, hsame⟩ := append_inj_of_ink hreverse
      (by rw [ink_reverse, ink_reverse, hrest, hafter]) hfound.2.reverse hpart.2.reverse
    exact (List.reverse_injective hsame).symm
  · rintro rfl
    exact ⟨lead, rest, rfl, hlead, hrest⟩

/-- A text that begins with a character that is not blank still does so without the blanks at its
end. -/
theorem BeginsSolid.trimEnd {cs : List Char} (h : BeginsSolid cs) : BeginsSolid (trimEnd cs) := by
  obtain ⟨c, rest, rfl, hc⟩ := h
  rw [trimEnd_cons hc]
  exact ⟨c, _, rfl, hc⟩

/-- A text without blanks at its end that is not empty ends with a character that is not blank. -/
theorem endsSolid_of_trimEnd_eq {cs : List Char} (h : Text.trimEnd cs = cs) (hne : cs ≠ []) :
    EndsSolid cs := by
  induction cs using List.reverseRecOn with
  | nil => exact absurd rfl hne
  | append_singleton rest c =>
    cases hc : isBlank c with
    | false => exact ⟨rest, c, rfl, hc⟩
    | true =>
      have hlast : Text.trimEnd [c] = [] :=
        trimEnd_eq_nil_iff.mpr (List.forall_mem_singleton.mpr hc)
      have hlength := congrArg List.length h
      have hrest := congrArg List.length (trimEnd_append_endBlanks rest)
      rw [trimEnd_append, if_pos hlast, List.length_append, List.length_singleton] at hlength
      rw [List.length_append] at hrest
      omega

/-- A trimmed text that is not empty is solid. -/
theorem isSolid_trim {cs : List Char} (h : trim cs ≠ []) : IsSolid (trim cs) := by
  constructor
  · cases htrim : trim cs with
    | nil => exact absurd htrim h
    | cons d ds => exact ⟨d, ds, rfl, not_isBlank_of_trim_eq_cons htrim⟩
  · exact endsSolid_of_trimEnd_eq (by rw [trim, trimEnd_trimEnd]) h

/-- A solid text is trimmed. -/
theorem IsSolid.trim_eq {cs : List Char} (h : IsSolid cs) : trim cs = cs := by
  obtain ⟨⟨c, rest, rfl, hc⟩, hends⟩ := h
  rw [trim, trimStart_cons hc, hends.trimEnd_eq]

/-- A part whose first gap is written anew stands at its place exactly if what follows its first
word is as it was. -/
theorem keepsAt_gap_iff {before after lead rest word behind gap behind' : List Char}
    (hword : BeginsSolid word) (hbehind : EndsSolid behind) (hbehind' : EndsSolid behind')
    (hlead : ink lead = ink before) (hrest : ink rest = ink after) :
    KeepsAt before (word ++ behind) after
        (lead ++ (trimEnd word ++ (gap ++ behind') ++ rest)) ↔
      endBlanks word ++ behind = gap ++ behind' := by
  have hpart : IsSolid (word ++ behind) := ⟨hword.append behind, hbehind.append word⟩
  have hfound : IsSolid (trimEnd word ++ (gap ++ behind')) :=
    ⟨hword.trimEnd.append _, (hbehind'.append gap).append _⟩
  have hsplit : word ++ behind = trimEnd word ++ (endBlanks word ++ behind) := by
    rw [← List.append_assoc, trimEnd_append_endBlanks]
  rw [keepsAt_iff hpart hfound hlead hrest, hsplit, List.append_right_inj]

end Exemplar.Text
