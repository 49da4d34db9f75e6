import Exemplar.Json.Reader
import Exemplar.Proofs.Outcome

/-!
# Values that are read

The objects of a document may be written with repeated keys, but those of the value read have
distinct ones.  The main statement: every value that is read is well formed.
-/

namespace Exemplar.Json

/-! ## Parts -/

/-- The items of an array are well formed if each of them is. -/
theorem itemsWellFormed_iff {vs : List Value} : itemsWellFormed vs ↔ ∀ v ∈ vs, v.WellFormed := by
  induction vs with
  | nil => exact ⟨fun _ _ h => (List.not_mem_nil h).elim, fun _ => trivial⟩
  | cons v vs ih => rw [itemsWellFormed, ih, List.forall_mem_cons]

/-- The members of an object are well formed if the value of each of them is. -/
theorem membersWellFormed_iff {ms : List (String × Value)} :
    membersWellFormed ms ↔ ∀ m ∈ ms, m.2.WellFormed := by
  induction ms with
  | nil => exact ⟨fun _ _ h => (List.not_mem_nil h).elim, fun _ => trivial⟩
  | cons m ms ih => rw [membersWellFormed, ih, List.forall_mem_cons]

/-- The value of a member of a well-formed object is well formed. -/
theorem Value.WellFormed.member {ms : List (String × Value)} (h : (Value.object ms).WellFormed)
    {m : String × Value} (hm : m ∈ ms) : m.2.WellFormed :=
  membersWellFormed_iff.mp h.2 m hm

/-! ## Written members -/

private theorem mem_keys_setMember {k key : String} {v : Value} {ms : List (String × Value)} :
    k ∈ (setMember key v ms).map Prod.fst ↔ k = key ∨ k ∈ ms.map Prod.fst := by
  induction ms with
  | nil => simp [setMember]
  | cons m ms ih =>
    rw [setMember]
    split
    · next hm => simp [hm]
    · rw [List.map_cons, List.mem_cons, ih, List.map_cons, List.mem_cons]
      exact or_left_comm

private theorem nodup_setMember {key : String} {v : Value} {ms : List (String × Value)}
    (h : (ms.map Prod.fst).Nodup) : ((setMember key v ms).map Prod.fst).Nodup := by
  induction ms with
  | nil => simp [setMember]
  | cons m ms ih =>
    rw [List.map_cons, List.nodup_cons] at h
    rw [setMember]
    split
    · next hm => rw [List.map_cons, List.nodup_cons, ← hm]; exact h
    · next hm =>
      rw [List.map_cons, List.nodup_cons, mem_keys_setMember, not_or]
      exact ⟨⟨hm, h.1⟩, ih h.2⟩

private theorem setMember_wellFormed {key : String} {v : Value} {ms : List (String × Value)}
    (hv : v.WellFormed) (hms : membersWellFormed ms) : membersWellFormed (setMember key v ms) := by
  induction ms with
  | nil => exact ⟨hv, trivial⟩
  | cons m ms ih =>
    rw [setMember]
    split
    · exact ⟨hv, hms.2⟩
    · exact ⟨hms.1, ih hms.2⟩

private theorem ofWritten_wellFormed {written : List (String × Value)}
    (h : membersWellFormed written) :
    (Value.object (ofWritten written)).WellFormed := by
  have hfold : ∀ ms : List (String × Value), (Value.object ms).WellFormed →
      (Value.object (written.foldl (fun ms m => setMember m.1 m.2 ms) ms)).WellFormed := by
    induction written with
    | nil => exact fun ms hms => hms
    | cons m written ih =>
      intro ms hms
      exact ih h.2 _ ⟨nodup_setMember hms.1, setMember_wellFormed h.1 hms.2⟩
  exact hfold [] ⟨List.nodup_nil, trivial⟩

/-! ## Reading -/

/-- Whether a reader gives well-formed values only. -/
def ReadsWellFormed (readItem : List UInt8 → Except Fault (Value × List UInt8)) : Prop :=
  ∀ bytes v rest, readItem bytes = .ok (v, rest) → v.WellFormed

variable {readItem : List UInt8 → Except Fault (Value × List UInt8)}

private theorem readItems_wellFormed (h : ReadsWellFormed readItem) (fuel position : Nat)
    (bytes : List UInt8) (vs : List Value) (rest : List UInt8)
    (hread : readItems readItem fuel position bytes = .ok (vs, rest)) : itemsWellFormed vs := by
  induction fuel generalizing position bytes vs rest with
  | zero => cases hread
  | succ fuel ih =>
    have hitem : ∀ bytes : List UInt8,
        ((readItem bytes).mapError (.within (.index position)) >>= fun p =>
          readItems readItem fuel (position + 1) p.2 >>= fun q =>
            Except.ok (p.1 :: q.1, q.2)) = Except.ok (vs, rest) → itemsWellFormed vs := by
      intro bytes hread
      obtain ⟨⟨v, r⟩, hv, hread⟩ := bind_eq_ok_iff.mp hread
      obtain ⟨⟨vs', r'⟩, hvs, hread⟩ := bind_eq_ok_iff.mp hread
      obtain ⟨rfl, rfl⟩ := Prod.mk.inj (Except.ok.inj hread)
      exact ⟨h _ _ _ (mapError_eq_ok_iff.mp hv), ih _ _ _ _ hvs⟩
    rw [readItems] at hread
    split at hread
    · cases hread
    · split at hread
      · obtain ⟨rfl, rfl⟩ := Prod.mk.inj (Except.ok.inj hread)
        exact trivial
      · split at hread
        · exact hitem _ hread
        · split at hread
          · split at hread
            · cases hread
            · split at hread
              · cases hread
              · exact hitem _ hread
          · cases hread

private theorem readMembers_wellFormed (h : ReadsWellFormed readItem) (fuel : Nat) (first : Bool)
    (bytes : List UInt8) (ms : List (String × Value)) (rest : List UInt8)
    (hread : readMembers readItem fuel first bytes = .ok (ms, rest)) : membersWellFormed ms := by
  induction fuel generalizing first bytes ms rest with
  | zero => cases hread
  | succ fuel ih =>
    have hvalue : ∀ key bytes v rest,
        readMemberValue readItem key bytes = .ok (v, rest) → v.WellFormed := by
      intro key bytes v rest hread
      rw [readMemberValue] at hread
      split at hread
      · cases hread
      · split at hread
        · exact h _ _ _ (mapError_eq_ok_iff.mp hread)
        · cases hread
    have hmember : ∀ (b : UInt8) (bytes : List UInt8), (if b = '"'.toUInt8 then
        (readString bytes).mapError (.within .unknown) >>= fun p =>
          readMemberValue readItem p.1 p.2 >>= fun q =>
            readMembers readItem fuel false q.2 >>= fun s =>
              Except.ok ((p.1, q.1) :: s.1, s.2)
        else .error ((Fault.at .keyNotString bytes).within .unknown)) = Except.ok (ms, rest) →
          membersWellFormed ms := by
      intro b bytes hread
      split at hread
      · obtain ⟨⟨key, r⟩, -, hread⟩ := bind_eq_ok_iff.mp hread
        obtain ⟨⟨v, r'⟩, hv, hread⟩ := bind_eq_ok_iff.mp hread
        obtain ⟨⟨ms', r''⟩, hms, hread⟩ := bind_eq_ok_iff.mp hread
        obtain ⟨rfl, rfl⟩ := Prod.mk.inj (Except.ok.inj hread)
        exact ⟨hvalue _ _ _ _ hv, ih _ _ _ _ hms⟩
      · cases hread
    rw [readMembers] at hread
    split at hread
    · cases hread
    · split at hread
      · obtain ⟨rfl, rfl⟩ := Prod.mk.inj (Except.ok.inj hread)
        exact trivial
      · split at hread
        · exact hmember _ _ hread
        · split at hread
          · split at hread
            · cases hread
            · split at hread
              · cases hread
              · exact hmember _ _ hread
          · cases hread

private theorem readWord_eq_ok {value v : Value} {cs : List Char} {bytes rest : List UInt8}
    (h : readWord value cs bytes = .ok (v, rest)) : v = value := by
  induction cs generalizing bytes with
  | nil => exact (Prod.mk.inj (Except.ok.inj h)).1.symm
  | cons c cs ih =>
    cases bytes with
    | nil => cases h
    | cons b bytes =>
      rw [readWord] at h
      split at h
      · exact ih h
      · cases h

private theorem wellFormed_of_map {α : Type} {x : Except Fault (α × List UInt8)} {f : α → Value}
    {v : Value} {rest : List UInt8} (hf : ∀ a r, x = .ok (a, r) → (f a).WellFormed)
    (h : (x.map fun p => (f p.1, p.2)) = .ok (v, rest)) : v.WellFormed := by
  obtain ⟨⟨a, r⟩, hx, hp⟩ := map_eq_ok_iff.mp h
  obtain ⟨rfl, rfl⟩ := Prod.mk.inj hp
  exact hf a r hx

private theorem readValue_wellFormed_of (depth : Nat)
    (ih : ∀ inner, depth = inner + 1 → ReadsWellFormed (readValue inner)) :
    ReadsWellFormed (readValue depth) := by
  intro bytes v rest hread
  rw [readValue] at hread
  split at hread
  · cases hread
  · split at hread
    · rw [readWord_eq_ok hread]; exact trivial
    · split at hread
      · rw [readWord_eq_ok hread]; exact trivial
      · split at hread
        · rw [readWord_eq_ok hread]; exact trivial
        · split at hread
          · exact wellFormed_of_map (f := Value.string) (fun _ _ _ => trivial) hread
          · split at hread
            · exact wellFormed_of_map (f := Value.number) (fun _ _ _ => trivial) hread
            · split at hread
              · exact wellFormed_of_map (f := Value.number) (fun _ _ _ => trivial) hread
              · split at hread
                · split at hread
                  · cases hread
                  · next inner =>
                    refine wellFormed_of_map (f := Value.array) (fun vs r hvs => ?_) hread
                    exact readItems_wellFormed (ih inner rfl) _ _ _ vs r hvs
                · split at hread
                  · split at hread
                    · cases hread
                    · next inner =>
                      refine wellFormed_of_map (f := fun ms => Value.object (ofWritten ms))
                        (fun ms r hms => ?_) hread
                      exact ofWritten_wellFormed
                        (readMembers_wellFormed (ih inner rfl) _ _ _ ms r hms)
                  · cases hread

private theorem readValue_wellFormed (depth : Nat) : ReadsWellFormed (readValue depth) := by
  induction depth with
  | zero => exact readValue_wellFormed_of 0 fun inner h => by cases h
  | succ depth ih =>
    refine readValue_wellFormed_of (depth + 1) fun inner h => ?_
    rw [← Nat.succ.inj h]
    exact ih

/-- Every value that is read is well formed. -/
theorem read_wellFormed {document : List UInt8} {v : Value} (h : read document = .ok v) :
    v.WellFormed := by
  rw [read] at h
  split at h
  · next v' rest hread =>
    obtain rfl := Except.ok.inj h
    exact readValue_wellFormed maxDepth document v' rest hread
  · cases h

end Exemplar.Json
