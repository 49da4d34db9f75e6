import Exemplar.Proofs.Text.Cut
import Exemplar.Proofs.Text.Digits
import Exemplar.Refinement.Timestamp

/-!
# Written timestamps

Date-times with an offset as data, and their texts.  A text is taken for a timestamp exactly if it
is that of a date-time that exists, a sixtieth second and the minus sign U+2212 included.  The main
statement: it is taken for one exactly if it is one of RFC 3339, those two cases apart.
-/

namespace Exemplar.Refinement

open Text (padded)

/-! ## Date-times -/

/-- The offset of a local time: none, or a sign with hours and minutes. -/
inductive Zone
  | utc
  | offset (sign : Char) (hour minute : Nat)

/-- A date of the calendar with a time of day, the digits of a fraction of its second, and an
offset. -/
structure DateTime where
  year : Nat
  month : Nat
  day : Nat
  hour : Nat
  minute : Nat
  second : Nat
  fraction : List Char
  zone : Zone

/-- The text of an offset. -/
def Zone.text : Zone → List Char
  | utc => ['Z']
  | offset sign hour minute => sign :: (padded 2 hour ++ ':' :: padded 2 minute)

/-- The text of a fraction; no digits have none. -/
def fractionText (digits : List Char) : List Char :=
  if digits = [] then [] else '.' :: digits

/-- The text of a date-time. -/
def DateTime.text (t : DateTime) : List Char :=
  padded 4 t.year ++ '-' :: (padded 2 t.month ++ '-' :: (padded 2 t.day ++ 'T' ::
    (padded 2 t.hour ++ ':' :: (padded 2 t.minute ++ ':' :: (padded 2 t.second ++
      (fractionText t.fraction ++ t.zone.text))))))

/-- Whether an offset is less than a day and has one of the given signs. -/
def Zone.Exists (signs : List Char) : Zone → Prop
  | utc => True
  | offset sign hour minute => sign ∈ signs ∧ hour ≤ 23 ∧ minute ≤ 59

/-- Whether there is such a day in that month of that year, such a time on it and such an offset,
minutes having seconds up to a last one and offsets having the given signs. -/
structure DateTime.Exists (lastSecond : Nat) (signs : List Char) (t : DateTime) : Prop where
  year : t.year ≤ 9999
  month : 1 ≤ t.month ∧ t.month ≤ 12
  day : 1 ≤ t.day ∧ t.day ≤ Timestamp.daysIn t.year t.month
  hour : t.hour ≤ 23
  minute : t.minute ≤ 59
  second : t.second ≤ lastSecond
  fraction : ∀ c ∈ t.fraction, Text.isDigit c = true
  zone : t.zone.Exists signs

/-- The signs of an offset. -/
def offsetSigns : List Char := ['+', '-']

/-- The signs of an offset that are read, the minus sign U+2212 among them. -/
def readSigns : List Char := ['+', '-', '\u2212']

private theorem mem_readSigns_iff {sign : Char} :
    sign ∈ readSigns ↔ sign = '+' ∨ sign = '-' ∨ sign = '\u2212' := by
  simp only [readSigns, List.mem_cons, List.not_mem_nil, or_false]

/-- Whether a text is a timestamp of RFC 3339 with capital letters and without leap seconds. -/
def IsRfc3339 (cs : List Char) : Prop :=
  ∃ t : DateTime, t.Exists 59 offsetSigns ∧ t.text = cs

/-- Whether a text would be such a timestamp but for a leap second or for U+2212 as a sign. -/
def IsLenient (cs : List Char) : Prop :=
  ∃ t : DateTime, t.Exists 60 readSigns ∧ t.text = cs ∧
    (t.second = 60 ∨ ∃ hour minute, t.zone = .offset '\u2212' hour minute)

/-! ## What the readers take -/

namespace Timestamp

private theorem number?_eq_some_iff {width n : Nat} {cs rest : List Char} :
    number? width cs = some (n, rest) ↔ n < 10 ^ width ∧ cs = padded width n ++ rest := by
  rw [number?]
  constructor
  · intro h
    split at h
    · next hdigits =>
      obtain ⟨rfl, rfl⟩ := Prod.mk.inj (Option.some.inj h)
      obtain ⟨hlt, hpadded⟩ := Text.padded_digitsValue (List.all_eq_true.mp hdigits.2)
      rw [hdigits.1] at hlt hpadded
      exact ⟨hlt, by rw [hpadded, List.take_append_drop]⟩
    · cases h
  · rintro ⟨hlt, rfl⟩
    have htake : (padded width n ++ rest).take width = padded width n := by
      rw [List.take_left' (Text.length_padded width n)]
    have hdrop : (padded width n ++ rest).drop width = rest := by
      rw [List.drop_left' (Text.length_padded width n)]
    rw [htake, hdrop, if_pos, Text.digitsValue_padded hlt]
    exact ⟨Text.length_padded width n, List.all_eq_true.mpr fun c => Text.isDigit_of_mem_padded⟩

private theorem skip?_eq_some_iff {c : Char} {cs rest : List Char} :
    skip? c cs = some rest ↔ cs = c :: rest := by
  cases cs with
  | nil => simp [skip?]
  | cons d cs => simp [skip?]

private theorem daysIn_le (year month : Nat) : daysIn year month ≤ 31 := by
  rw [daysIn]
  split_ifs <;> omega

/-- A date is read exactly from the text of a day that exists. -/
theorem date?_eq_some_iff {cs rest : List Char} :
    date? cs = some rest ↔ ∃ year month day, year ≤ 9999 ∧ (1 ≤ month ∧ month ≤ 12) ∧
      (1 ≤ day ∧ day ≤ daysIn year month) ∧
        cs = padded 4 year ++ '-' :: (padded 2 month ++ '-' :: (padded 2 day ++ rest)) := by
  simp only [date?, Option.bind_eq_bind, Option.bind_eq_some_iff, Prod.exists,
    number?_eq_some_iff, skip?_eq_some_iff, Option.ite_none_right_eq_some, Option.some.injEq]
  constructor
  · rintro ⟨year, _, ⟨hyear, rfl⟩, _, rfl, month, _, ⟨-, rfl⟩, _, rfl, day, _, ⟨-, rfl⟩, h, rfl⟩
    exact ⟨year, month, day, by omega, ⟨h.1, h.2.1⟩, h.2.2, rfl⟩
  · rintro ⟨year, month, day, hyear, hmonth, hday, rfl⟩
    have := daysIn_le year month
    exact ⟨year, _, ⟨by omega, rfl⟩, _, rfl, month, _, ⟨by omega, rfl⟩, _, rfl, day, _,
      ⟨by omega, rfl⟩, ⟨hmonth.1, hmonth.2, hday⟩, rfl⟩

private theorem fraction?_eq_some_iff {cs rest : List Char}
    (hrest : ∀ c ∈ rest.head?, c ≠ '.' ∧ Text.isDigit c = false) :
    fraction? cs = some rest ↔ ∃ digits, (∀ c ∈ digits, Text.isDigit c = true) ∧
      cs = fractionText digits ++ rest := by
  constructor
  · intro h
    rw [fraction?.eq_def] at h
    split at h
    · next after =>
      split at h
      · cases h
      · next hne =>
        obtain rfl := Option.some.inj h
        refine ⟨after.takeWhile Text.isDigit, fun c => List.mem_takeWhile_imp, ?_⟩
        rw [fractionText, if_neg hne, List.cons_append, List.takeWhile_append_dropWhile]
    · obtain rfl := Option.some.inj h
      exact ⟨[], fun c hc => (by cases hc), rfl⟩
  · rintro ⟨digits, hdigits, rfl⟩
    by_cases hnil : digits = []
    · rw [fractionText, if_pos hnil, List.nil_append, fraction?.eq_def]
      split
      · exact absurd rfl (hrest _ rfl).1
      · rfl
    · obtain ⟨htake, hdrop⟩ :=
        Text.cut_iff.mpr ⟨Eq.refl (digits ++ rest), hdigits, fun c hc => (hrest c hc).2⟩
      rw [fractionText, if_neg hnil, List.cons_append, fraction?, htake, hdrop, if_neg hnil]

/-- A time of day is read exactly from the text of one that exists, with a sixtieth second. -/
theorem time?_eq_some_iff {cs rest : List Char}
    (hrest : ∀ c ∈ rest.head?, c ≠ '.' ∧ Text.isDigit c = false) :
    time? cs = some rest ↔ ∃ hour minute second digits, hour ≤ 23 ∧ minute ≤ 59 ∧ second ≤ 60 ∧
      (∀ c ∈ digits, Text.isDigit c = true) ∧
        cs = padded 2 hour ++ ':' :: (padded 2 minute ++ ':' :: (padded 2 second ++
          (fractionText digits ++ rest))) := by
  simp only [time?, Option.bind_eq_bind, Option.bind_eq_some_iff, Prod.exists,
    number?_eq_some_iff, skip?_eq_some_iff, Option.ite_none_right_eq_some,
    fraction?_eq_some_iff hrest]
  constructor
  · rintro ⟨hour, _, ⟨-, rfl⟩, _, rfl, minute, _, ⟨-, rfl⟩, _, rfl, second, _, ⟨-, rfl⟩, h, digits,
      hdigits, rfl⟩
    exact ⟨hour, minute, second, digits, h.1, h.2.1, h.2.2, hdigits, rfl⟩
  · rintro ⟨hour, minute, second, digits, hhour, hminute, hsecond, hdigits, rfl⟩
    exact ⟨hour, _, ⟨by omega, rfl⟩, _, rfl, minute, _, ⟨by omega, rfl⟩, _, rfl, second, _,
      ⟨by omega, rfl⟩, ⟨hhour, hminute, hsecond⟩, digits, hdigits, rfl⟩

/-- An offset is read exactly from the text of one that exists. -/
theorem offset?_eq_some_iff {cs rest : List Char} :
    offset? cs = some rest ↔
      ∃ zone : Zone, zone.Exists readSigns ∧ cs = zone.text ++ rest := by
  constructor
  · intro h
    cases cs with
    | nil => cases h
    | cons c cs =>
      rw [offset?] at h
      split at h
      · next hc =>
        obtain rfl := Option.some.inj h
        exact ⟨.utc, trivial, by rw [hc]; rfl⟩
      · split at h
        · next hsign =>
          simp only [Option.bind_eq_bind, Option.bind_eq_some_iff, Prod.exists,
            number?_eq_some_iff, skip?_eq_some_iff, Option.ite_none_right_eq_some,
            Option.some.injEq] at h
          obtain ⟨hour, _, ⟨-, rfl⟩, _, rfl, minute, _, ⟨-, rfl⟩, hbounds, rfl⟩ := h
          refine ⟨.offset c hour minute, ⟨mem_readSigns_iff.mpr hsign, hbounds⟩, ?_⟩
          simp only [Zone.text, List.cons_append, List.append_assoc]
        · cases h
  · rintro ⟨zone, hzone, rfl⟩
    cases zone with
    | utc => rfl
    | offset sign hour minute =>
      obtain ⟨hsign, hhour, hminute⟩ := hzone
      have hletter : sign ≠ 'Z' := by
        rintro rfl
        exact absurd hsign (by decide)
      rw [Zone.text, List.cons_append, List.append_assoc, List.cons_append, offset?,
        if_neg hletter, if_pos (mem_readSigns_iff.mp hsign)]
      simp only [Option.bind_eq_bind, Option.bind_eq_some_iff, Prod.exists,
        number?_eq_some_iff, skip?_eq_some_iff, Option.ite_none_right_eq_some, Option.some.injEq]
      exact ⟨hour, _, ⟨by omega, rfl⟩, _, rfl, minute, _, ⟨by omega, rfl⟩, ⟨hhour, hminute⟩, rfl⟩

end Timestamp

/-! ## What a text tells -/

private theorem Zone.Exists.head?_text {zone : Zone} (h : zone.Exists readSigns) :
    ∀ c ∈ zone.text.head?, c ≠ '.' ∧ Text.isDigit c = false := by
  intro c hc
  cases zone with
  | utc =>
    obtain rfl := Option.some.inj hc
    decide
  | offset sign hour minute =>
    obtain rfl := Option.some.inj hc
    rcases mem_readSigns_iff.mp h.1 with rfl | rfl | rfl <;> decide

private theorem Zone.eq_of_text_eq {zone zone' : Zone} (h : zone.Exists readSigns)
    (h' : zone'.Exists readSigns) (htext : zone.text = zone'.text) : zone = zone' := by
  have hutc : ∀ sign hour minute, (Zone.offset sign hour minute).Exists readSigns →
      Zone.utc.text ≠ (Zone.offset sign hour minute).text := by
    intro sign hour minute hzone heq
    obtain rfl := (List.cons.inj heq).1
    exact absurd hzone.1 (by decide)
  cases zone with
  | utc =>
    cases zone' with
    | utc => rfl
    | offset sign hour minute => exact absurd htext (hutc _ _ _ h')
  | offset sign hour minute =>
    cases zone' with
    | utc => exact absurd htext.symm (hutc _ _ _ h)
    | offset sign' hour' minute' =>
      obtain ⟨esign, hrest⟩ := List.cons.inj htext
      obtain ⟨-, hhour, hminute⟩ := h
      obtain ⟨-, hhour', hminute'⟩ := h'
      obtain ⟨ehour, hrest⟩ := Text.padded_append_inj (by omega) (by omega) hrest
      have hlast : padded 2 minute ++ [] = padded 2 minute' ++ [] := by
        rw [(List.cons.inj hrest).2]
      obtain ⟨eminute, -⟩ := Text.padded_append_inj (by omega) (by omega) hlast
      rw [esign, ehour, eminute]

private theorem fractionText_injective {digits digits' : List Char}
    (h : fractionText digits = fractionText digits') : digits = digits' := by
  rw [fractionText, fractionText] at h
  split at h <;> split at h <;> simp_all

/-- Date-times that exist have one text only if they are the same. -/
theorem DateTime.eq_of_text_eq {t t' : DateTime} (h : t.Exists 60 readSigns)
    (h' : t'.Exists 60 readSigns) (htext : t.text = t'.text) : t = t' := by
  obtain ⟨year, month, day, hour, minute, second, fraction, zone⟩ := t
  obtain ⟨year', month', day', hour', minute', second', fraction', zone'⟩ := t'
  have hdays := h.day.2.trans (Timestamp.daysIn_le year month)
  have hdays' := h'.day.2.trans (Timestamp.daysIn_le year' month')
  obtain ⟨hyear, hmonth, -, hhour, hminute, hsecond, hfraction, hzone⟩ := h
  obtain ⟨hyear', hmonth', -, hhour', hminute', hsecond', hfraction', hzone'⟩ := h'
  dsimp only at hyear hmonth hdays hhour hminute hsecond hfraction hzone
  dsimp only at hyear' hmonth' hdays' hhour' hminute' hsecond' hfraction' hzone'
  dsimp only [text] at htext
  obtain ⟨eyear, htext⟩ := Text.padded_append_inj (by omega) (by omega) htext
  obtain ⟨emonth, htext⟩ := Text.padded_append_inj (by omega) (by omega) (List.cons.inj htext).2
  obtain ⟨eday, htext⟩ := Text.padded_append_inj (by omega) (by omega) (List.cons.inj htext).2
  obtain ⟨ehour, htext⟩ := Text.padded_append_inj (by omega) (by omega) (List.cons.inj htext).2
  obtain ⟨eminute, htext⟩ := Text.padded_append_inj (by omega) (by omega) (List.cons.inj htext).2
  obtain ⟨esecond, htext⟩ := Text.padded_append_inj (by omega) (by omega) (List.cons.inj htext).2
  -- The reader of fractions finds the offset behind either of the two fractions.
  have hread := (Timestamp.fraction?_eq_some_iff hzone.head?_text).mpr ⟨fraction, hfraction, rfl⟩
  have hread' :=
    (Timestamp.fraction?_eq_some_iff hzone'.head?_text).mpr ⟨fraction', hfraction', rfl⟩
  rw [htext, hread'] at hread
  have ezone := Zone.eq_of_text_eq hzone' hzone (Option.some.inj hread)
  rw [ezone] at htext
  have efraction := fractionText_injective (List.append_cancel_right htext)
  rw [eyear, emonth, eday, ehour, eminute, esecond, efraction, ezone]

/-! ## Which texts are timestamps -/

/-- A text is a timestamp exactly if it is that of a date-time that exists, with a sixtieth second
and U+2212 for a sign allowed. -/
theorem isTimestamp_eq_true_iff {cs : List Char} :
    isTimestamp cs = true ↔ ∃ t : DateTime, t.Exists 60 readSigns ∧ t.text = cs := by
  rw [isTimestamp, beq_iff_eq, Timestamp.read?]
  simp only [Option.bind_eq_bind, Option.bind_eq_some_iff, Timestamp.date?_eq_some_iff,
    Timestamp.skip?_eq_some_iff, Timestamp.offset?_eq_some_iff, List.append_nil]
  constructor
  · rintro ⟨_, ⟨year, month, day, hyear, hmonth, hday, rfl⟩, _, rfl, _, htime, zone, hzone, rfl⟩
    obtain ⟨hour, minute, second, fraction, hhour, hminute, hsecond, hfraction, rfl⟩ :=
      (Timestamp.time?_eq_some_iff hzone.head?_text).mp htime
    exact ⟨⟨year, month, day, hour, minute, second, fraction, zone⟩,
      ⟨hyear, hmonth, hday, hhour, hminute, hsecond, hfraction, hzone⟩, rfl⟩
  · rintro ⟨t, ht, rfl⟩
    refine ⟨_, ⟨t.year, t.month, t.day, ht.year, ht.month, ht.day, rfl⟩, _, rfl, _, ?_, t.zone,
      ht.zone, rfl⟩
    exact (Timestamp.time?_eq_some_iff ht.zone.head?_text).mpr ⟨t.hour, t.minute, t.second,
      t.fraction, ht.hour, ht.minute, ht.second, ht.fraction, rfl⟩

private theorem mem_offsetSigns_iff {sign : Char} :
    sign ∈ offsetSigns ↔ sign ∈ readSigns ∧ sign ≠ '\u2212' := by
  constructor
  · intro h
    simp only [offsetSigns, List.mem_cons, List.not_mem_nil, or_false] at h
    rcases h with rfl | rfl <;> decide
  · rintro ⟨h, hne⟩
    rcases mem_readSigns_iff.mp h with rfl | rfl | rfl
    · decide
    · decide
    · exact absurd rfl hne

private theorem Zone.exists_iff {zone : Zone} :
    zone.Exists offsetSigns ↔
      zone.Exists readSigns ∧ ¬ ∃ hour minute, zone = .offset '\u2212' hour minute := by
  cases zone with
  | utc => simp [Zone.Exists]
  | offset sign hour minute =>
    simp only [Zone.Exists, mem_offsetSigns_iff, Zone.offset.injEq, exists_and_left, exists_eq',
      and_true]
    tauto

private theorem DateTime.exists_iff {t : DateTime} :
    t.Exists 59 offsetSigns ↔ t.Exists 60 readSigns ∧
      ¬ (t.second = 60 ∨ ∃ hour minute, t.zone = .offset '\u2212' hour minute) := by
  constructor
  · rintro ⟨hyear, hmonth, hday, hhour, hminute, hsecond, hfraction, hoffset⟩
    obtain ⟨hread, hplain⟩ := t.zone.exists_iff.mp hoffset
    refine ⟨⟨hyear, hmonth, hday, hhour, hminute, by omega, hfraction, hread⟩, ?_⟩
    rintro (h | h)
    · omega
    · exact hplain h
  · rintro ⟨⟨hyear, hmonth, hday, hhour, hminute, hsecond, hfraction, hoffset⟩, hplain⟩
    rw [not_or] at hplain
    have hlast : t.second ≤ 59 := by
      have := hplain.1
      omega
    exact ⟨hyear, hmonth, hday, hhour, hminute, hlast, hfraction,
      t.zone.exists_iff.mpr ⟨hoffset, hplain.2⟩⟩

private theorem isRfc3339_iff {cs : List Char} :
    IsRfc3339 cs ↔ (∃ t : DateTime, t.Exists 60 readSigns ∧ t.text = cs) ∧ ¬ IsLenient cs := by
  constructor
  · rintro ⟨t, ht, rfl⟩
    obtain ⟨hread, hplain⟩ := DateTime.exists_iff.mp ht
    refine ⟨⟨t, hread, rfl⟩, ?_⟩
    rintro ⟨t', ht', htext, hlenient⟩
    rw [DateTime.eq_of_text_eq ht' hread htext] at hlenient
    exact hplain hlenient
  · rintro ⟨⟨t, ht, rfl⟩, hstrict⟩
    exact ⟨t, DateTime.exists_iff.mpr ⟨ht, fun h => hstrict ⟨t, ht, rfl, h⟩⟩, rfl⟩

/-- A text is taken for a timestamp exactly if it is that of a date-time that exists, where 60 is
allowed for the second and U+2212 for the sign of the offset.  The answer is that of RFC 3339 on
every text but those that are such date-times and have one of the two. -/
theorem isTimestamp_iff_and_agrees_iff (s : String) :
    (isTimestamp s.toList = true ↔
      ∃ t : DateTime, t.Exists 60 readSigns ∧ t.text = s.toList) ∧
    ((isTimestamp s.toList = true ↔ IsRfc3339 s.toList) ↔ ¬ IsLenient s.toList) := by
  refine ⟨isTimestamp_eq_true_iff, ?_⟩
  rw [isTimestamp_eq_true_iff, isRfc3339_iff]
  constructor
  · intro h hlenient
    obtain ⟨t, ht, htext, hboth⟩ := hlenient
    exact (h.mp ⟨t, ht, htext⟩).2 ⟨t, ht, htext, hboth⟩
  · intro h
    exact (and_iff_left h).symm

/-- A minute with a sixtieth second and an offset with U+2212 are taken for timestamps, and neither
is one of RFC 3339. -/
theorem isTimestamp_leapSecond :
    isTimestamp "2023-06-30T12:30:60Z".toList = true ∧
      ¬ IsRfc3339 "2023-06-30T12:30:60Z".toList ∧
      isTimestamp "2023-06-30T12:30:00\u221202:00".toList = true ∧
      ¬ IsRfc3339 "2023-06-30T12:30:00\u221202:00".toList := by
  have hleap : IsLenient "2023-06-30T12:30:60Z".toList :=
    ⟨⟨2023, 6, 30, 12, 30, 60, [], .utc⟩,
      ⟨by decide, by decide, by decide, by decide, by decide, by decide,
        fun c hc => (by cases hc), trivial⟩,
      by decide, .inl rfl⟩
  have hsign : IsLenient "2023-06-30T12:30:00\u221202:00".toList :=
    ⟨⟨2023, 6, 30, 12, 30, 0, [], .offset '\u2212' 2 0⟩,
      ⟨by decide, by decide, by decide, by decide, by decide, by decide,
        fun c hc => (by cases hc), by decide, by decide, by decide⟩,
      by decide, .inr ⟨2, 0, rfl⟩⟩
  refine ⟨by decide, fun h => ?_, by decide, fun h => ?_⟩
  · exact (isRfc3339_iff.mp h).2 hleap
  · exact (isRfc3339_iff.mp h).2 hsign

end Exemplar.Refinement
