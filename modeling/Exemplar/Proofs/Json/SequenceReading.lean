import Exemplar.Proofs.Json.NumeralReading
import Exemplar.Proofs.Json.StringReading

/-!
# Reading lists and objects

The readers of items and of members against the grammar, given what the reader of their values
takes.  Both go through a sequence in the same way, which is told once: an element is due behind the
opening bracket, or behind a comma, unless the sequence is closed there.
-/

namespace Exemplar.Json

/-! ## Blanks and words -/

/-- Bytes begin with the blanks that are skipped. -/
theorem exists_blanks (bytes : List UInt8) :
    ∃ blanks, AllSpace blanks ∧ bytes = blanks ++ skipSpace bytes :=
  ⟨bytes.takeWhile isSpace, fun _ => List.mem_takeWhile_imp,
    List.takeWhile_append_dropWhile.symm⟩

/-- Nothing is skipped at a byte that is no blank. -/
theorem skipSpace_cons {b : UInt8} (hb : isSpace b = false) (rest : List UInt8) :
    skipSpace (b :: rest) = b :: rest := by
  rw [skipSpace, List.dropWhile_cons, hb, if_neg Bool.false_ne_true]

/-- Blanks are skipped up to a byte that is none. -/
theorem skipSpace_append {blanks rest : List UInt8} (hblanks : AllSpace blanks) {b : UInt8}
    (hb : isSpace b = false) : skipSpace (blanks ++ b :: rest) = b :: rest := by
  rw [skipSpace, List.dropWhile_append_of_pos hblanks]
  exact skipSpace_cons hb rest

/-- No bytes are blanks. -/
theorem AllSpace.nil : AllSpace [] :=
  fun _ hb => by cases hb

private theorem AllSpace.append {blanks blanks' : List UInt8} (h : AllSpace blanks)
    (h' : AllSpace blanks') : AllSpace (blanks ++ blanks') :=
  fun b hb => (List.mem_append.mp hb).elim (h b) (h' b)

/-- A word is read off bytes that begin with the rest of it. -/
theorem readWord_eq_ok_iff {value v : Value} {cs : List Char} {bytes rest : List UInt8} :
    readWord value cs bytes = .ok (v, rest) ↔ v = value ∧ bytes = cs.map Char.toUInt8 ++ rest := by
  induction cs generalizing bytes with
  | nil =>
    rw [readWord, Except.ok.injEq, Prod.mk.injEq]
    exact and_congr_left' eq_comm
  | cons c cs ih =>
    cases bytes with
    | nil => simp [readWord]
    | cons b bytes =>
      rw [readWord]
      split
      · next hb => simp [ih, hb]
      · next hb => simp [hb]

/-! ## Sequences -/

/-- Whether an element is due at a byte: behind blanks if it is the first, and else behind a comma,
unless the byte is the closing bracket. -/
def ElementAt (close : UInt8) (first : Bool) (bytes : List UInt8) (b : UInt8)
    (after : List UInt8) : Prop :=
  b ≠ close ∧
    if first then skipSpace bytes = b :: after
    else ∃ gap, skipSpace bytes = ','.toUInt8 :: gap ∧ skipSpace gap = b :: after

/-- Goes one step through a sequence: to its closing bracket, or to the element that is due. -/
def sequenceStep {β : Type} (close : UInt8) (first : Bool) (closed : List UInt8 → β)
    (element : UInt8 → List UInt8 → Except Fault β) (none dangling : Fault)
    (trailing due : List UInt8 → Fault) (bytes : List UInt8) : Except Fault β :=
  match skipSpace bytes with
  | [] => .error none
  | b :: after =>
    if b = close then .ok (closed after)
    else if first then element b after
    else if b = ','.toUInt8 then
      match skipSpace after with
      | [] => .error dangling
      | c :: more => if c = close then .error (trailing more) else element c more
    else .error (due after)

private theorem sequenceStep_eq_ok_iff {β : Type} {close : UInt8} {first : Bool}
    {closed : List UInt8 → β}
    {element : UInt8 → List UInt8 → Except Fault β} {none dangling : Fault}
    {trailing due : List UInt8 → Fault} {bytes : List UInt8} {y : β}
    (hcomma : close ≠ ','.toUInt8) :
    sequenceStep close first closed element none dangling trailing due bytes = .ok y ↔
      (∃ rest, skipSpace bytes = close :: rest ∧ closed rest = y) ∨
        ∃ b after, ElementAt close first bytes b after ∧ element b after = .ok y := by
  unfold sequenceStep ElementAt
  cases hskip : skipSpace bytes with
  | nil => cases first <;> simp
  | cons b after =>
    dsimp only
    by_cases hclose : b = close
    · subst hclose
      cases first with
      | true => simp
      | false => simp [hcomma]
    · rw [if_neg hclose]
      cases first with
      | true => simp [hclose]
      | false =>
        rw [if_neg Bool.false_ne_true]
        by_cases hb : b = ','.toUInt8
        · subst hb
          rw [if_pos rfl]
          cases hafter : skipSpace after with
          | nil => simp [hafter, hclose]
          | cons c more =>
            by_cases hc : c = close
            · simp [hafter, hclose, hc]
            · simp [hafter, hclose, hc]
        · simp [hclose, hb]

section Sequence

variable {α : Type} {Element : List UInt8 → α → Prop} {close : UInt8}
  (ReadElement : List UInt8 → α → List UInt8 → Prop)
  (Read : (fuel : Nat) → (first : Bool) → List UInt8 → List α → List UInt8 → Prop)

private theorem sequenceText_of_read
    (helement : ∀ bytes x rest, ReadElement bytes x rest →
      ∃ blanks text, bytes = blanks ++ (text ++ rest) ∧ AllSpace blanks ∧ Element text x)
    (hzero : ∀ first bytes xs rest, ¬ Read 0 first bytes xs rest)
    (hstep : ∀ fuel first bytes xs rest, Read (fuel + 1) first bytes xs rest →
      (xs = [] ∧ skipSpace bytes = close :: rest) ∨
        ∃ b after x mid xs', xs = x :: xs' ∧ ElementAt close first bytes b after ∧
          ReadElement (b :: after) x mid ∧ Read fuel false mid xs' rest)
    {fuel : Nat} {first : Bool} {bytes : List UInt8} {xs : List α} {rest : List UInt8}
    (h : Read fuel first bytes xs rest) :
    ∃ text, bytes = text ++ rest ∧ SequenceText Element close first text xs := by
  induction fuel generalizing first bytes xs with
  | zero => exact absurd h (hzero _ _ _ _)
  | succ fuel ih =>
    obtain ⟨blanks, hblanks, hbytes⟩ := exists_blanks bytes
    rcases hstep _ _ _ _ _ h with ⟨rfl, hclose⟩ | ⟨b, after, x, mid, xs', rfl, hat, hx, hrest⟩
    · rw [hclose] at hbytes
      exact ⟨blanks ++ [close], by rw [hbytes]; simp, .close hblanks⟩
    · obtain ⟨blanks', text, hnext, hblanks', htext⟩ := helement _ _ _ hx
      obtain ⟨tail, rfl, htail⟩ := ih hrest
      obtain ⟨-, hat⟩ := hat
      cases first with
      | true =>
        rw [if_pos rfl] at hat
        rw [hat, hnext] at hbytes
        exact ⟨_, by rw [hbytes]; simp, .first (hblanks.append hblanks') htext htail⟩
      | false =>
        rw [if_neg Bool.false_ne_true] at hat
        obtain ⟨more, hcomma, hmore⟩ := hat
        obtain ⟨gap, hgap, hmore'⟩ := exists_blanks more
        rw [hmore, hnext] at hmore'
        rw [hcomma, hmore'] at hbytes
        exact ⟨_, by rw [hbytes]; simp, .next hblanks (hgap.append hblanks') htext htail⟩

/-- Whether a byte can follow an element: a blank, a comma or the closing bracket. -/
def IsDelimiter (close b : UInt8) : Prop :=
  isSpace b = true ∨ b = ','.toUInt8 ∨ b = close

private theorem isDelimiter_head {text : List UInt8} {xs : List α} {first : Bool}
    (h : SequenceText Element close first text xs) (hfirst : first = false) (rest : List UInt8) :
    ∀ b ∈ (text ++ rest).head?, IsDelimiter close b := by
  have hblank {blanks more : List UInt8} {c : UInt8} (hblanks : AllSpace blanks)
      (hc : IsDelimiter close c) : ∀ b ∈ (blanks ++ c :: more).head?, IsDelimiter close b := by
    intro b hb
    cases blanks with
    | nil =>
      obtain rfl : c = b := Option.some.inj hb
      exact hc
    | cons d blanks =>
      obtain rfl : d = b := Option.some.inj hb
      exact .inl (hblanks d List.mem_cons_self)
  cases h with
  | close hblanks =>
    rw [List.append_assoc]
    exact hblank hblanks (.inr (.inr rfl))
  | first => cases hfirst
  | next hblanks =>
    rw [List.append_assoc]
    exact hblank hblanks (.inr (.inl rfl))

private theorem read_of_sequenceText (hclosing : isSpace close = false)
    (hbegins : ∀ text x, Element text x →
      ∃ b more, text = b :: more ∧ isSpace b = false ∧ b ≠ close)
    (helement : ∀ text x rest, Element text x → (∀ b ∈ rest.head?, IsDelimiter close b) →
      ReadElement (text ++ rest) x rest)
    (hclose : ∀ fuel first bytes rest, skipSpace bytes = close :: rest →
      Read (fuel + 1) first bytes [] rest)
    (hnext : ∀ fuel first bytes b after x mid xs rest, ElementAt close first bytes b after →
      ReadElement (b :: after) x mid → Read fuel false mid xs rest →
        Read (fuel + 1) first bytes (x :: xs) rest)
    {first : Bool} {text : List UInt8} {xs : List α}
    (h : SequenceText Element close first text xs) {fuel : Nat} (hfuel : xs.length < fuel)
    (rest : List UInt8) : Read fuel first (text ++ rest) xs rest := by
  induction h generalizing fuel with
  | @close first blanks hblanks =>
    obtain ⟨fuel, rfl⟩ := Nat.exists_eq_add_of_lt hfuel
    refine hclose _ _ _ _ ?_
    rw [List.append_assoc]
    exact skipSpace_append hblanks hclosing
  | @first blanks text tail x xs hblanks htext htail ih =>
    obtain ⟨fuel, rfl⟩ : ∃ n, fuel = n + 1 := ⟨fuel - 1, by omega⟩
    obtain ⟨b, more, rfl, hspace, hb⟩ := hbegins _ _ htext
    have hread := helement _ _ (tail ++ rest) htext (isDelimiter_head htail rfl rest)
    refine hnext _ _ _ b (more ++ (tail ++ rest)) _ _ _ _ ⟨hb, ?_⟩ hread
      (ih (by simpa using hfuel))
    rw [if_pos rfl, List.append_assoc, List.append_assoc]
    exact skipSpace_append hblanks hspace
  | @next blanks gap text tail x xs hblanks hgap htext htail ih =>
    obtain ⟨fuel, rfl⟩ : ∃ n, fuel = n + 1 := ⟨fuel - 1, by omega⟩
    obtain ⟨b, more, rfl, hspace, hb⟩ := hbegins _ _ htext
    have hread := helement _ _ (tail ++ rest) htext (isDelimiter_head htail rfl rest)
    refine hnext _ _ _ b (more ++ (tail ++ rest)) _ _ _ _ ⟨hb, ?_⟩ hread
      (ih (by simpa using hfuel))
    rw [if_neg Bool.false_ne_true]
    refine ⟨gap ++ b :: (more ++ (tail ++ rest)), ?_, skipSpace_append hgap hspace⟩
    have hcomma : isSpace ','.toUInt8 = false := rfl
    refine Eq.trans ?_ (skipSpace_append hblanks hcomma)
    simp

/-- A sequence has fewer elements than bytes, but for one if it may begin with an element. -/
theorem length_lt_of_sequenceText {first : Bool} {text : List UInt8} {xs : List α}
    (h : SequenceText Element close first text xs) (rest : List UInt8) :
    xs.length < (text ++ rest).length + first.toNat := by
  induction h with
  | close =>
    simp only [List.length_append, List.length_cons, List.length_nil]
    omega
  | first _ _ _ ih | next _ _ _ _ ih =>
    simp only [List.length_append, List.length_cons, Bool.toNat_true, Bool.toNat_false] at ih ⊢
    omega

end Sequence

/-! ## Lists -/

/-- Whether a reader takes values for texts of them alone. -/
def Sound (readItem : List UInt8 → Except Fault (Value × List UInt8))
    (Element : List UInt8 → Value → Prop) : Prop :=
  ∀ bytes v rest, readItem bytes = .ok (v, rest) → BeginsWith Element bytes v rest

/-- Whether a reader takes every text of a value that the next byte does not make longer. -/
def Complete (readItem : List UInt8 → Except Fault (Value × List UInt8))
    (Element : List UInt8 → Value → Prop) : Prop :=
  ∀ bytes v rest, BeginsWith Element bytes v rest → readItem bytes = .ok (v, rest)

/-- How the texts of values begin, and what can follow them: they begin with neither a blank nor a
closing bracket, and end before a delimiter. -/
structure Delimited (Element : List UInt8 → Value → Prop) : Prop where
  begins : ∀ text v, Element text v → ∃ b more, text = b :: more ∧ isSpace b = false ∧
    b ≠ ']'.toUInt8
  ends : ∀ text v rest, Element text v →
    (∀ b ∈ rest.head?, IsDelimiter ']'.toUInt8 b ∨ IsDelimiter '\x7d'.toUInt8 b) →
      EndsBefore text v rest

variable {readItem : List UInt8 → Except Fault (Value × List UInt8)}
  {Element : List UInt8 → Value → Prop}

private theorem readItem_bind_eq_ok_iff {fuel position : Nat} {next rest : List UInt8}
    {vs : List Value} :
    ((readItem next).mapError (.within (.index position)) >>= fun p =>
        readItems readItem fuel (position + 1) p.2 >>= fun q =>
          Except.ok (p.1 :: q.1, q.2)) = .ok (vs, rest) ↔
      ∃ v mid vs', vs = v :: vs' ∧ readItem next = .ok (v, mid) ∧
        readItems readItem fuel (position + 1) mid = .ok (vs', rest) := by
  constructor
  · intro h
    obtain ⟨⟨v, mid⟩, hv, h⟩ := bind_eq_ok_iff.mp h
    obtain ⟨⟨vs', rest'⟩, hvs, h⟩ := bind_eq_ok_iff.mp h
    obtain ⟨rfl, rfl⟩ := Prod.mk.inj (Except.ok.inj h)
    exact ⟨v, mid, vs', rfl, mapError_eq_ok_iff.mp hv, hvs⟩
  · rintro ⟨v, mid, vs', rfl, hv, hvs⟩
    exact bind_eq_ok_iff.mpr ⟨_, mapError_eq_ok_iff.mpr hv, bind_eq_ok_iff.mpr ⟨_, hvs, rfl⟩⟩

private theorem readItems_step {fuel position : Nat} {bytes rest : List UInt8} {vs : List Value} :
    readItems readItem (fuel + 1) position bytes = .ok (vs, rest) ↔
      (vs = [] ∧ skipSpace bytes = ']'.toUInt8 :: rest) ∨
        ∃ b after v mid vs', vs = v :: vs' ∧
          ElementAt ']'.toUInt8 (position == 0) bytes b after ∧
            readItem (b :: after) = .ok (v, mid) ∧
              readItems readItem fuel (position + 1) mid = .ok (vs', rest) := by
  have hstep : readItems readItem (fuel + 1) position bytes =
      sequenceStep ']'.toUInt8 (position == 0) (fun rest => ([], rest))
        (fun b after => (readItem (b :: after)).mapError (.within (.index position)) >>= fun p =>
          readItems readItem fuel (position + 1) p.2 >>= fun q => .ok (p.1 :: q.1, q.2))
        (.at .eofList []) (.at .eofValue []) (.at .trailingComma) (.at .expectedListEnd) bytes := by
    cases position <;> rfl
  rw [hstep, sequenceStep_eq_ok_iff (by decide)]
  refine or_congr ?_ ?_
  · simp [eq_comm, and_comm]
  · refine exists_congr fun b => exists_congr fun after => ?_
    rw [readItem_bind_eq_ok_iff]
    constructor
    · rintro ⟨hat, v, mid, vs', hvs, hv, hrest⟩
      exact ⟨v, mid, vs', hvs, hat, hv, hrest⟩
    · rintro ⟨v, mid, vs', hvs, hat, hv, hrest⟩
      exact ⟨hat, v, mid, vs', hvs, hv, hrest⟩

/-- Items that are read are a sequence of texts. -/
theorem readItems_sound (h : Sound readItem Element) {fuel position : Nat}
    {bytes rest : List UInt8} {vs : List Value}
    (hread : readItems readItem fuel position bytes = .ok (vs, rest)) :
    ∃ text, bytes = text ++ rest ∧
      SequenceText Element ']'.toUInt8 (position == 0) text vs := by
  refine sequenceText_of_read (fun bytes v rest => readItem bytes = .ok (v, rest))
    (fun fuel first bytes vs rest => ∃ position, (position == 0) = first ∧
      readItems readItem fuel position bytes = .ok (vs, rest)) ?_ ?_ ?_ ⟨position, rfl, hread⟩
  · intro bytes v rest hv
    obtain ⟨blanks, text, hbytes, hblanks, htext, -⟩ := h _ _ _ hv
    exact ⟨blanks, text, hbytes, hblanks, htext⟩
  · rintro first bytes vs rest ⟨position, -, h⟩
    cases h
  · rintro fuel first bytes vs rest ⟨position, rfl, h⟩
    refine (readItems_step.mp h).imp_right ?_
    rintro ⟨b, after, v, mid, vs', hvs, hat, hv, hrest⟩
    exact ⟨b, after, v, mid, vs', hvs, hat, hv, position + 1, rfl, hrest⟩

/-- A sequence of texts is read item by item. -/
theorem readItems_complete (h : Complete readItem Element) (hdelimited : Delimited Element)
    {text : List UInt8} {vs : List Value} (htext : SequenceText Element ']'.toUInt8 true text vs)
    {fuel : Nat} (hfuel : vs.length < fuel) (rest : List UInt8) :
    readItems readItem fuel 0 (text ++ rest) = .ok (vs, rest) := by
  have hread := read_of_sequenceText (fun bytes v rest => readItem bytes = .ok (v, rest))
    (fun fuel first bytes vs rest => ∀ position, (position == 0) = first →
      readItems readItem fuel position bytes = .ok (vs, rest)) rfl hdelimited.begins ?_ ?_ ?_
    htext hfuel rest
  · exact hread 0 rfl
  · intro text v rest hv hrest
    exact h _ _ _ ⟨[], text, rfl, .nil, hv,
      hdelimited.ends _ _ _ hv fun b hb => .inl (hrest b hb)⟩
  · exact fun fuel first bytes rest hclose position _ => readItems_step.mpr (.inl ⟨rfl, hclose⟩)
  · rintro fuel first bytes b after v mid vs rest hat hv hrest position rfl
    exact readItems_step.mpr
      (.inr ⟨b, after, v, mid, vs, rfl, hat, hv, hrest (position + 1) rfl⟩)

/-! ## Objects -/

private theorem readMemberValue_eq_ok_iff {key : String} {bytes rest : List UInt8} {v : Value} :
    readMemberValue readItem key bytes = .ok (v, rest) ↔
      ∃ after, skipSpace bytes = ':'.toUInt8 :: after ∧ readItem after = .ok (v, rest) := by
  rw [readMemberValue]
  cases skipSpace bytes with
  | nil => simp
  | cons b after =>
    dsimp only
    split
    · next hb => simp [hb, mapError_eq_ok_iff]
    · next hb => simp [hb]

/-- Whether a member is read off bytes: its key as a string, and its value behind a colon. -/
def MemberRead (readItem : List UInt8 → Except Fault (Value × List UInt8)) (bytes : List UInt8)
    (m : String × Value) (rest : List UInt8) : Prop :=
  ∃ after mid, bytes = '"'.toUInt8 :: after ∧ readString after = .ok (m.1, mid) ∧
    readMemberValue readItem m.1 mid = .ok (m.2, rest)

private theorem MemberRead.sound (h : Sound readItem Element) {bytes rest : List UInt8}
    {m : String × Value} (hread : MemberRead readItem bytes m rest) :
    ∃ blanks text, bytes = blanks ++ (text ++ rest) ∧ AllSpace blanks ∧
      MemberText Element text m := by
  obtain ⟨after, mid, rfl, hkey, hvalue⟩ := hread
  obtain ⟨key, hkeyText, hbytes⟩ := readString_eq_ok_iff.mp hkey
  obtain ⟨behind, hcolon, hitem⟩ := readMemberValue_eq_ok_iff.mp hvalue
  obtain ⟨blanks, hblanks, hmid⟩ := exists_blanks mid
  obtain ⟨gap, value, hbehind, hgap, hvalueText, -⟩ := h _ _ _ hitem
  rw [hcolon, hbehind] at hmid
  rw [hmid] at hbytes
  refine ⟨[], _, ?_, .nil, key, blanks, gap, value, hkeyText, hblanks, hgap, hvalueText, rfl⟩
  rw [hbytes]
  simp

private theorem MemberRead.complete (h : Complete readItem Element) (hdelimited : Delimited Element)
    {text : List UInt8} {m : String × Value} (hm : MemberText Element text m)
    {rest : List UInt8} (hrest : ∀ b ∈ rest.head?, IsDelimiter '\x7d'.toUInt8 b) :
    MemberRead readItem (text ++ rest) m rest := by
  obtain ⟨key, blanks, gap, value, hkey, hblanks, hgap, hvalue, rfl⟩ := hm
  have hvalueRead := h _ _ _ ⟨gap, value, rfl, hgap, hvalue,
    hdelimited.ends _ _ _ hvalue fun b hb => .inr (hrest b hb)⟩
  obtain ⟨written, -, hkeyText⟩ := id hkey
  have hcolon : isSpace ':'.toUInt8 = false := rfl
  refine ⟨written ++ '"'.toUInt8 :: (blanks ++ ':'.toUInt8 :: (gap ++ (value ++ rest))),
    blanks ++ ':'.toUInt8 :: (gap ++ (value ++ rest)), by rw [hkeyText]; simp, ?_, ?_⟩
  · exact readString_eq_ok_iff.mpr ⟨key, hkey, by rw [hkeyText]; simp⟩
  · exact readMemberValue_eq_ok_iff.mpr ⟨_, skipSpace_append hblanks hcolon, hvalueRead⟩

private theorem readMember_bind_eq_ok_iff {fuel : Nat} {b : UInt8} {after rest : List UInt8}
    {ms : List (String × Value)} :
    (if b = '"'.toUInt8 then
        (readString after).mapError (.within .unknown) >>= fun p =>
          readMemberValue readItem p.1 p.2 >>= fun q =>
            readMembers readItem fuel false q.2 >>= fun s => Except.ok ((p.1, q.1) :: s.1, s.2)
      else .error ((Fault.at .keyNotString after).within .unknown)) = .ok (ms, rest) ↔
      ∃ m mid ms', ms = m :: ms' ∧ MemberRead readItem (b :: after) m mid ∧
        readMembers readItem fuel false mid = .ok (ms', rest) := by
  constructor
  · intro h
    split at h
    · next hb =>
      obtain ⟨⟨key, mid⟩, hkey, h⟩ := bind_eq_ok_iff.mp h
      obtain ⟨⟨v, mid'⟩, hv, h⟩ := bind_eq_ok_iff.mp h
      obtain ⟨⟨ms', rest'⟩, hms, h⟩ := bind_eq_ok_iff.mp h
      obtain ⟨rfl, rfl⟩ := Prod.mk.inj (Except.ok.inj h)
      exact ⟨(key, v), mid', ms', rfl, ⟨after, mid, by rw [hb], mapError_eq_ok_iff.mp hkey, hv⟩,
        hms⟩
    · cases h
  · rintro ⟨⟨key, v⟩, mid', ms', rfl, ⟨after', mid, hb, hkey, hv⟩, hms⟩
    obtain ⟨rfl, rfl⟩ := List.cons.inj hb
    rw [if_pos rfl]
    exact bind_eq_ok_iff.mpr ⟨_, mapError_eq_ok_iff.mpr hkey,
      bind_eq_ok_iff.mpr ⟨_, hv, bind_eq_ok_iff.mpr ⟨_, hms, rfl⟩⟩⟩

private theorem readMembers_step {fuel : Nat} {first : Bool} {bytes rest : List UInt8}
    {ms : List (String × Value)} :
    readMembers readItem (fuel + 1) first bytes = .ok (ms, rest) ↔
      (ms = [] ∧ skipSpace bytes = '\x7d'.toUInt8 :: rest) ∨
        ∃ b after m mid ms', ms = m :: ms' ∧ ElementAt '\x7d'.toUInt8 first bytes b after ∧
          MemberRead readItem (b :: after) m mid ∧
            readMembers readItem fuel false mid = .ok (ms', rest) := by
  have hstep : readMembers readItem (fuel + 1) first bytes =
      sequenceStep '\x7d'.toUInt8 first (fun rest => ([], rest))
        (fun b after =>
          if b = '"'.toUInt8 then
            (readString after).mapError (.within .unknown) >>= fun p =>
              readMemberValue readItem p.1 p.2 >>= fun q =>
                readMembers readItem fuel false q.2 >>= fun s => .ok ((p.1, q.1) :: s.1, s.2)
          else .error ((Fault.at .keyNotString after).within .unknown))
        ((Fault.at .eofObject []).within .unknown) ((Fault.at .eofValue []).within .unknown)
        (fun rest => (Fault.at .trailingComma rest).within .unknown)
        (fun rest => (Fault.at .expectedObjectEnd rest).within .unknown) bytes := by
    rfl
  rw [hstep, sequenceStep_eq_ok_iff (by decide)]
  refine or_congr ?_ ?_
  · simp [eq_comm, and_comm]
  · refine exists_congr fun b => exists_congr fun after => ?_
    rw [readMember_bind_eq_ok_iff]
    constructor
    · rintro ⟨hat, m, mid, ms', hms, hm, hrest⟩
      exact ⟨m, mid, ms', hms, hat, hm, hrest⟩
    · rintro ⟨m, mid, ms', hms, hat, hm, hrest⟩
      exact ⟨hat, m, mid, ms', hms, hm, hrest⟩

/-- Members that are read are a sequence of texts. -/
theorem readMembers_sound (h : Sound readItem Element) {fuel : Nat} {first : Bool}
    {bytes rest : List UInt8} {ms : List (String × Value)}
    (hread : readMembers readItem fuel first bytes = .ok (ms, rest)) :
    ∃ text, bytes = text ++ rest ∧
      SequenceText (MemberText Element) '\x7d'.toUInt8 first text ms := by
  refine sequenceText_of_read (MemberRead readItem)
    (fun fuel first bytes ms rest => readMembers readItem fuel first bytes = .ok (ms, rest))
    (fun bytes m rest hm => hm.sound h) ?_ ?_ hread
  · intro first bytes ms rest h
    cases h
  · exact fun fuel first bytes ms rest h => readMembers_step.mp h

/-- A sequence of texts is read member by member. -/
theorem readMembers_complete (h : Complete readItem Element) (hdelimited : Delimited Element)
    {first : Bool} {text : List UInt8} {ms : List (String × Value)}
    (htext : SequenceText (MemberText Element) '\x7d'.toUInt8 first text ms) {fuel : Nat}
    (hfuel : ms.length < fuel) (rest : List UInt8) :
    readMembers readItem fuel first (text ++ rest) = .ok (ms, rest) := by
  refine read_of_sequenceText (MemberRead readItem)
    (fun fuel first bytes ms rest => readMembers readItem fuel first bytes = .ok (ms, rest)) rfl
    ?_ (fun text m rest hm hrest => .complete h hdelimited hm hrest) ?_ ?_ htext hfuel rest
  · rintro text m ⟨key, blanks, gap, value, ⟨written, -, rfl⟩, -, -, -, rfl⟩
    exact ⟨_, _, rfl, rfl, by decide⟩
  · exact fun fuel first bytes rest hclose => readMembers_step.mpr (.inl ⟨rfl, hclose⟩)
  · intro fuel first bytes b after m mid ms rest hat hm hrest
    exact readMembers_step.mpr (.inr ⟨b, after, m, mid, ms, rfl, hat, hm, hrest⟩)

end Exemplar.Json
