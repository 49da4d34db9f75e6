import Exemplar.Proofs.Struct.Lines

/-!
# The blocks around lines

How many structs a line stands in, counted on the code of the lines above it.  The main statement:
the depth that a line is written at is the number of structs that are opened above it and not
ended above it or by it.
-/

namespace Exemplar.Struct

/-! ## Counting blocks -/

/-- Whether a line opens a struct: its code ends with a brace, and no tag follows. -/
def Line.opensStruct (l : Line) : Bool :=
  l.field?.isNone && l.code.getLast? == some '\x7b'

/-- Whether a line ends a struct: its code is a brace. -/
def Line.endsStruct (l : Line) : Bool :=
  l.code == ['\x7d']

/-- The number of structs around the line of a given number: those opened above it, without those
ended above it or by it. -/
def blocksAround (ls : List Line) (k : Nat) : Nat :=
  (ls.take k).countP Line.opensStruct - (ls.take (k + 1)).countP Line.endsStruct

/-- Whether lines stand as deep as they should with a number of structs around the first one, and
lead to another number. -/
structure Nests (ls : List Line) (depth depth' : Nat) : Prop where
  depth_eq : ∀ (k : Nat) (l : Line), ls[k]? = some l →
    l.depth + (ls.take (k + 1)).countP Line.endsStruct =
      depth + (ls.take k).countP Line.opensStruct
  leads : depth' + ls.countP Line.endsStruct = depth + ls.countP Line.opensStruct

namespace Nests

variable {ls ms : List Line} {d d' d'' : Nat}

private theorem nil : Nests [] d d where
  depth_eq := by
    intro k l hl
    cases hl
  leads := rfl

private theorem line (l : Line) :
    Nests [l] (l.depth + if l.endsStruct then 1 else 0)
      (l.depth + if l.opensStruct then 1 else 0) where
  depth_eq := by
    intro k l' hl'
    obtain ⟨rfl, rfl⟩ : k = 0 ∧ l = l' := by
      cases k with
      | zero => exact ⟨rfl, Option.some.inj hl'⟩
      | succ k => cases hl'
    simp [List.countP_singleton]
  leads := by
    simp only [List.countP_singleton]
    omega

private theorem append (hl : Nests ls d d') (hm : Nests ms d' d'') : Nests (ls ++ ms) d d'' where
  depth_eq := by
    intro k l hk
    have hleads := hl.leads
    by_cases hlt : k < ls.length
    · rw [List.getElem?_append_left hlt] at hk
      rw [List.take_append_of_le_length hlt, List.take_append_of_le_length (Nat.le_of_lt hlt)]
      exact hl.depth_eq k l hk
    · have hle : ls.length ≤ k := Nat.le_of_not_lt hlt
      rw [List.getElem?_append_right hle] at hk
      have hdepth := hm.depth_eq (k - ls.length) l hk
      rw [List.take_append, List.take_append, List.take_of_length_le hle,
        List.take_of_length_le (Nat.le_succ_of_le hle), Nat.sub_add_comm hle]
      simp only [List.countP_append]
      omega
  leads := by
    have hleads := hl.leads
    have hleads' := hm.leads
    simp only [List.countP_append]
    omega

/-- The depth of a line is the number of structs around it, if none is around the first one. -/
theorem depth_eq_blocksAround (h : Nests ls 0 d) {k : Nat} {l : Line} (hl : ls[k]? = some l) :
    l.depth = blocksAround ls k := by
  have hdepth := h.depth_eq k l hl
  unfold blocksAround
  omega

private theorem block {code : List Char} (hcode : code.getLast? = some '\x7b')
    (hbody : Nests ls (d + 1) (d + 1)) (field? : Option Field) :
    Nests ({ depth := d, code } :: (ls ++ [{ depth := d, code := ['\x7d'], field? }])) d d := by
  have hopening := line { depth := d, code }
  have hclosing := line { depth := d, code := ['\x7d'], field? }
  have hends : Line.endsStruct { depth := d, code } = false := by
    rw [Line.endsStruct, beq_eq_false_iff_ne]
    rintro rfl
    cases hcode
  have hopens : Line.opensStruct { depth := d, code } = true := by
    simp [Line.opensStruct, hcode]
  have hshuts : Line.opensStruct { depth := d, code := ['\x7d'], field? } = false := by
    unfold Line.opensStruct
    cases field? <;> rfl
  simp only [hends, hopens] at hopening
  simp only [hshuts, Line.endsStruct] at hclosing
  exact hopening.append (hbody.append hclosing)

private theorem tagged {name type : List Char} (f : Field) :
    Nests [{ depth := d, code := name ++ ' ' :: type, field? := some f }] d d := by
  have hline := line { depth := d, code := name ++ ' ' :: type, field? := some f }
  have hends : Line.endsStruct { depth := d, code := name ++ ' ' :: type, field? := some f } =
      false := by
    rw [Line.endsStruct, beq_eq_false_iff_ne]
    intro hbrace
    have hblank : ' ' ∈ ['\x7d'] := hbrace ▸ List.mem_append_right name List.mem_cons_self
    exact absurd hblank (by decide)
  simp only [hends] at hline
  exact hline

end Nests

/-! ## The lines of a file -/

private theorem exists_typeOpening_eq (depth : Nat) (node : Node) {body : List Line}
    (h : typeLines? depth node = some body) :
    ∃ rest, typeOpening node = rest ++ ['\x7b'] := by
  match node with
  | .scalar _ | .object (some _) _ => cases h
  | .array element =>
    obtain ⟨rest, hrest⟩ := exists_typeOpening_eq depth element h
    exact ⟨'[' :: ']' :: rest, by rw [typeOpening_array, hrest]; rfl⟩
  | .object none fields => exact ⟨"struct ".toList, by rw [typeOpening_block]; rfl⟩
termination_by structural node

private theorem lineCases_nests :
    LineCases (fun _ => True) fun depth ls => Nests ls depth depth where
  nil _ := .nil
  append _ _ _ hl hm := hl.append hm
  field := by
    intro depth f _ hbody
    unfold linesOfField
    cases hlines : typeLines? (depth + 1) f.node with
    | none => exact .tagged f
    | some body =>
      obtain ⟨rest, hopening⟩ := exists_typeOpening_eq (depth + 1) f.node hlines
      refine .block ?_ (hbody body hlines) _
      rw [hopening, ← List.cons_append, ← List.append_assoc, List.getLast?_concat]

private theorem nests_declarationLines (name : String) (isArray : Bool) (fields : List Field) :
    Nests (declarationLines name isArray fields) 0 0 := by
  have hfields := linesOfFields_induct lineCases_nests 1 fields fun _ _ => trivial
  refine .block ?_ hfields none
  have hblock : "struct \x7b".toList = "struct ".toList ++ ['\x7b'] := rfl
  rw [hblock, ← List.append_assoc, ← List.cons_append, ← List.append_assoc, List.getLast?_concat]

/-- The lines of a file begin and end outside of structs. -/
theorem nests_fileLines (root : RootFields) (named : List NamedObject) (rootName : String) :
    Nests (fileLines root named rootName) 0 0 := by
  unfold fileLines
  refine (nests_declarationLines rootName root.isArray root.fields).append ?_
  induction named with
  | nil => exact .nil
  | cons o named ih => exact (nests_declarationLines o.typeName false o.fields).append ih

end Exemplar.Struct
