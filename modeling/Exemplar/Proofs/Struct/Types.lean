import Exemplar.Proofs.Ident.Characters
import Exemplar.Proofs.Struct.Code

/-!
# The types of inferred fields

What the types of fields look like when structs are nested inside their fields: a name, a slice of
names, or a struct.  None of them quotes, comments or closes anything, so the code of a line is an
identifier and a type whatever the keys are.
-/

namespace Exemplar.Struct

/-- Whether a text is code that begins with neither a blank nor the end of a block. -/
structure IsType (cs : List Char) : Prop where
  unquoted : ∀ c ∈ cs, c ≠ '/' ∧ c ≠ '"' ∧ c ≠ tick ∧ c ≠ '\n'
  trimmed : Text.trimEnd cs = cs
  first : ∃ c rest, cs = c :: rest ∧ Text.isBlank c = false ∧ c ≠ '\x7d' ∧ c ≠ ')'

/-- Whether a field is written with a type on its own line, or with a struct around the lines of
its fields. -/
def IsWritten (f : Field) : Prop :=
  IsType (typeOpening f.node) ∧
    ((∀ depth, typeLines? depth f.node = none) ∨ ∃ fields, f.node = .object none fields)

/-! ## Plain text -/

/-- A plain character neither quotes nor comments nor ends a line or a block. -/
theorem unquoted_of_isPlain {c : Char} (h : Text.isPlain c) :
    (c ≠ '/' ∧ c ≠ '"' ∧ c ≠ tick ∧ c ≠ '\n') ∧ c ≠ '\x7d' ∧ c ≠ ')' := by
  refine ⟨⟨?_, ?_, ?_, ?_⟩, ?_, ?_⟩ <;>
    · rintro rfl
      exact absurd h (by decide)

private theorem trimEnd_of_isPlain {cs : List Char} (h : ∀ c ∈ cs, Text.isPlain c) :
    Text.trimEnd cs = cs := by
  induction cs using List.reverseRecOn with
  | nil => rfl
  | append_singleton cs c _ =>
    exact Text.trimEnd_concat (Text.not_isBlank_of_isPlain (h c (by simp))) cs

/-! ## Types -/

private theorem isType_scalarType (kind : ScalarKind) : IsType (scalarType kind).toList where
  unquoted := unquoted_of_all (by cases kind <;> decide +kernel)
  trimmed := by cases kind <;> decide +kernel
  first := by
    cases kind <;> exact ⟨_, _, rfl, by decide, by decide, by decide⟩

/-- The slice of a type, or of a name that may be empty, is code. -/
theorem isType_slice {cs : List Char}
    (hunquoted : ∀ c ∈ cs, c ≠ '/' ∧ c ≠ '"' ∧ c ≠ tick ∧ c ≠ '\n')
    (htrimmed : Text.trimEnd cs = cs) : IsType ('[' :: ']' :: cs) where
  unquoted := by
    intro c hc
    simp only [List.mem_cons] at hc
    rcases hc with rfl | rfl | hc
    · decide
    · decide
    · exact hunquoted c hc
  trimmed := by
    change Text.trimEnd (['[', ']'] ++ cs) = _
    rw [Text.trimEnd_append, htrimmed]
    split
    · next hnil => rw [hnil]; rfl
    · rfl
  first := ⟨_, _, rfl, by decide, by decide, by decide⟩

/-- The opening of a struct is code. -/
theorem isType_block : IsType "struct \x7b".toList where
  unquoted := unquoted_of_all (by decide +kernel)
  trimmed := by decide +kernel
  first := ⟨_, _, rfl, by decide, by decide, by decide⟩

/-- The fields found under inline nesting can be written. -/
theorem isWritten_of_treeField {o : InferOptions} (ho : o.nesting = .inline) {key : String}
    {v : Json.Value} {f : Field} (h : treeField o key v = .ok f) : IsWritten f := by
  have hname : ∀ key : String, ∀ c ∈ (Ident.ofKey key).toList, Text.isPlain c :=
    fun key c hc => Ident.isPlain_of_mem_ofKey hc
  refine treeField_induct (motive := fun _ _ f => IsWritten f)
    ⟨?scalar, ?scalars, ?objects, ?nested, ?object⟩ key v f h
  case scalar =>
    intro key v r _
    refine ⟨?_, .inl fun _ => rfl⟩
    change IsType (typeOpening (.scalar r.kind))
    rw [typeOpening_scalar]
    exact isType_scalarType r.kind
  case scalars =>
    intro key items kind _
    refine ⟨?_, .inl fun _ => rfl⟩
    change IsType (typeOpening (.array (.scalar kind)))
    rw [typeOpening_array, typeOpening_scalar]
    exact isType_slice (isType_scalarType kind).unquoted (isType_scalarType kind).trimmed
  case objects =>
    intro key ms rest fields _ _
    refine ⟨?_, .inl fun _ => rfl⟩
    change IsType (typeOpening (.array (.object (some (Ident.ofKey key)) fields)))
    rw [typeOpening_array, typeOpening_named]
    refine isType_slice (fun c hc => ?_) (trimEnd_of_isPlain (hname key))
    exact (unquoted_of_isPlain (hname key c hc)).1
  case nested => exact fun _ _ _ _ _ ih => ih
  case object =>
    intro key ms fields _ _
    rw [ho]
    refine ⟨?_, .inr ⟨fields, rfl⟩⟩
    change IsType (typeOpening (.object none fields))
    rw [typeOpening_block]
    exact isType_block

/-! ## The code of a field -/

variable {key : String} {cs : List Char}

/-- Unquoted text with a type behind it is code. -/
theorem isCode_append_type {name : List Char}
    (hname : ∀ c ∈ name, c ≠ '/' ∧ c ≠ '"' ∧ c ≠ tick ∧ c ≠ '\n') (h : IsType cs) :
    IsCode (name ++ ' ' :: cs) where
  unquoted := by
    intro c hc
    rcases List.mem_append.mp hc with hc | hc
    · exact hname c hc
    · rcases List.mem_cons.mp hc with rfl | hc
      · decide
      · exact h.unquoted c hc
  trimmed := by
    obtain ⟨c, rest, rfl, -, -⟩ := h.first
    rw [← List.singleton_append, ← List.append_assoc, Text.trimEnd_append, h.trimmed,
      if_neg (List.cons_ne_nil c rest)]
  ne_blank := by
    obtain ⟨c, rest, rfl, hblank, -⟩ := h.first
    rw [Ne, Text.trimStart_eq_nil_iff]
    intro hall
    have hc := hall c (by simp)
    rw [hblank] at hc
    cases hc

/-- An identifier and a type are code. -/
theorem isCode_head (h : IsType cs) : IsCode ((Ident.ofKey key).toList ++ ' ' :: cs) :=
  isCode_append_type (fun _ hc => (unquoted_of_isPlain (Ident.isPlain_of_mem_ofKey hc)).1) h

/-- The code of a field closes no block. -/
theorem closes_head (h : IsType cs) :
    closes (Text.trimStart ((Ident.ofKey key).toList ++ ' ' :: cs)) = false := by
  obtain ⟨c, rest, rfl, hblank, hbrace, hparen⟩ := h.first
  have hplain : ∀ d ∈ (Ident.ofKey key).toList, Text.isPlain d :=
    fun d hd => Ident.isPlain_of_mem_ofKey hd
  cases hname : (Ident.ofKey key).toList with
  | nil =>
    change closes (Text.trimStart ([' '] ++ c :: rest)) = false
    rw [Text.trimStart_append, if_pos (by rfl), Text.trimStart_cons hblank, closes, List.head?_cons]
    simp [hbrace, hparen]
  | cons d ds =>
    rw [hname] at hplain
    have hd := hplain d List.mem_cons_self
    obtain ⟨-, hdbrace, hdparen⟩ := unquoted_of_isPlain hd
    rw [List.cons_append, Text.trimStart_cons (Text.not_isBlank_of_isPlain hd), closes,
      List.head?_cons]
    simp [hdbrace, hdparen]

end Exemplar.Struct
