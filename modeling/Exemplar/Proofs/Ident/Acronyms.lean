import Exemplar.Proofs.Ident.Words
import Mathlib.Data.List.Forall2
import Mathlib.Data.String.Basic

/-!
# Acronyms in identifiers

The acronyms of an identifier are put into capitals one after the other, and a capital that one of
them brings in can make another: `Urid` becomes `URId` and then `URID`.  The main statement: none of
them is left, nothing but the case of ASCII letters has changed, and the words of a key and the way
it begins are all that its identifier depends on.
-/

namespace Exemplar.Ident

/-! ## The scan for a pattern -/

private theorem replaceFrom_eq (pattern replacement : List Char) (pass : Nat) (cs : List Char) :
    replaceFrom pattern replacement pass cs = replaceAll pattern replacement (cs.drop pass) := by
  induction cs generalizing pass with
  | nil => cases pass <;> rfl
  | cons c cs ih =>
    cases pass with
    | zero => rfl
    | succ pass => rw [replaceFrom, ih, List.drop_succ_cons]

private theorem replaceAll_append {pattern : List Char} (hne : pattern ≠ [])
    (replacement rest : List Char) :
    replaceAll pattern replacement (pattern ++ rest) =
      replacement ++ replaceAll pattern replacement rest := by
  obtain ⟨p, ps, rfl⟩ := List.exists_cons_of_ne_nil hne
  have hstart : (p :: ps).isPrefixOf (p :: (ps ++ rest)) = true :=
    List.isPrefixOf_iff_prefix.mpr (List.prefix_append (p :: ps) rest)
  rw [List.cons_append, replaceAll, replaceFrom, if_pos hstart, replaceFrom_eq, List.length_cons,
    Nat.add_sub_cancel, List.drop_left]

private theorem replaceAll_cons {pattern : List Char} (replacement : List Char) {c : Char}
    {cs : List Char} (h : ¬ pattern <+: c :: cs) :
    replaceAll pattern replacement (c :: cs) = c :: replaceAll pattern replacement cs := by
  rw [replaceAll, replaceFrom, if_neg (fun hstart => h (List.isPrefixOf_iff_prefix.mp hstart))]
  rfl

private theorem scan_induction {pattern : List Char} (hne : pattern ≠ [])
    {motive : List Char → Prop}
    (nil : motive []) (found : ∀ rest, motive rest → motive (pattern ++ rest))
    (passed : ∀ c cs, ¬ pattern <+: c :: cs → motive cs → motive (c :: cs)) (cs : List Char) :
    motive cs := by
  induction hn : cs.length using Nat.strongRecOn generalizing cs with
  | ind n ih =>
    cases cs with
    | nil => exact nil
    | cons c cs =>
      by_cases hstart : pattern <+: c :: cs
      · obtain ⟨rest, hrest⟩ := hstart
        have hpositive : 0 < pattern.length := List.length_pos_iff.mpr hne
        have hlength : pattern.length + rest.length = n := by rw [← List.length_append, hrest, hn]
        rw [← hrest]
        exact found rest (ih rest.length (by omega) rest rfl)
      · rw [List.length_cons] at hn
        exact passed c cs hstart (ih cs.length (by omega) cs rfl)

private theorem forall₂_replaceAll {r : Char → Char → Prop} (hrefl : ∀ c, r c c)
    {pattern replacement : List Char} (hne : pattern ≠ [])
    (h : List.Forall₂ r pattern replacement) (cs : List Char) :
    List.Forall₂ r cs (replaceAll pattern replacement cs) := by
  induction cs using scan_induction hne with
  | nil => exact .nil
  | found rest ih =>
    rw [replaceAll_append hne]
    exact List.rel_append h ih
  | passed c cs hstart ih =>
    rw [replaceAll_cons replacement hstart]
    exact .cons (hrefl c) ih

private theorem forall₂_trans {r : Char → Char → Prop} (htrans : ∀ {b c d}, r b c → r c d → r b d)
    {bs cs ds : List Char} (hcs : List.Forall₂ r bs cs) (hds : List.Forall₂ r cs ds) :
    List.Forall₂ r bs ds := by
  induction hcs generalizing ds with
  | nil => exact hds
  | cons hc _ ih =>
    cases hds with
    | cons hd hds => exact .cons (htrans hc hd) (ih hds)

/-! ## Texts that hold a pattern -/

private theorem prefix_of_forall₂ {r : Char → Char → Prop} {cs ds : List Char}
    (h : List.Forall₂ r cs ds)
    {kept : List Char} (hkept : ∀ c, ∀ d ∈ kept, r c d → d = c) (hstart : kept <+: ds) :
    kept <+: cs := by
  induction h generalizing kept with
  | nil => exact hstart
  | @cons c d cs ds hcd _ ih =>
    cases kept with
    | nil => exact List.nil_prefix
    | cons k kept =>
      obtain ⟨rfl, hrest⟩ := List.cons_prefix_cons.mp hstart
      obtain rfl := hkept c k List.mem_cons_self hcd
      exact List.cons_prefix_cons.mpr
        ⟨rfl, ih (fun c d hd => hkept c d (List.mem_cons_of_mem k hd)) hrest⟩

private theorem infix_of_forall₂ {r : Char → Char → Prop} {cs ds : List Char}
    (h : List.Forall₂ r cs ds)
    {kept : List Char} (hkept : ∀ c, ∀ d ∈ kept, r c d → d = c) (hwithin : kept <:+: ds) :
    kept <:+: cs := by
  induction h with
  | nil => exact hwithin
  | cons hcd htail ih =>
    rcases List.infix_cons_iff.mp hwithin with hstart | hwithin
    · exact (prefix_of_forall₂ (.cons hcd htail) hkept hstart).isInfix
    · exact List.infix_cons_iff.mpr (.inr (ih hwithin))

private theorem infix_of_infix_append {first : Char} {plain front back : List Char}
    (hfront : first ∉ front) (h : first :: plain <:+: front ++ back) :
    first :: plain <:+: back := by
  induction front with
  | nil => exact h
  | cons c front ih =>
    rw [List.mem_cons, not_or] at hfront
    rcases List.infix_cons_iff.mp h with hstart | hwithin
    · exact absurd (List.cons_prefix_cons.mp hstart).1 hfront.1
    · exact ih hfront.2 hwithin

section Acronym

variable {first : Char} {plain capitals : List Char}

private theorem forall₂_mem_replaceAll (hlength : plain.length = capitals.length) (cs : List Char) :
    List.Forall₂ (fun c d => d = c ∨ d ∈ capitals) cs
      (replaceAll (first :: plain) (first :: capitals) cs) := by
  refine forall₂_replaceAll (fun c => .inl rfl) (List.cons_ne_nil first plain)
    (.cons (.inl rfl) ?_) cs
  exact List.forall₂_iff_zip.mpr ⟨hlength, fun h => .inr (List.of_mem_zip h).2⟩

private theorem infix_of_infix_replaceAll (hlength : plain.length = capitals.length)
    {kept cs : List Char} (hkept : ∀ d ∈ kept, d ∉ capitals)
    (h : kept <:+: replaceAll (first :: plain) (first :: capitals) cs) : kept <:+: cs :=
  infix_of_forall₂ (forall₂_mem_replaceAll hlength cs)
    (fun _ d hd hchange => hchange.resolve_right (hkept d hd)) h

private theorem not_infix_replaceAll (hlength : plain.length = capitals.length) (hne : plain ≠ [])
    (hkept : ∀ d ∈ first :: plain, d ∉ capitals) (cs : List Char) :
    ¬ first :: plain <:+: replaceAll (first :: plain) (first :: capitals) cs := by
  have hcons : first :: plain ≠ [] := List.cons_ne_nil first plain
  induction cs using scan_induction hcons with
  | nil => exact fun h => hcons (List.infix_nil.mp h)
  | found rest ih =>
    rw [replaceAll_append hcons, List.cons_append]
    intro h
    rcases List.infix_cons_iff.mp h with hstart | hwithin
    · -- the second character is one of the capitals
      obtain ⟨second, plain, rfl⟩ := List.exists_cons_of_ne_nil hne
      obtain ⟨capital, capitals, rfl⟩ : ∃ c cs, capitals = c :: cs :=
        List.exists_cons_of_length_pos (by rw [← hlength, List.length_cons]; omega)
      obtain rfl := (List.cons_prefix_cons.mp (List.cons_prefix_cons.mp hstart).2).1
      exact hkept second (List.mem_cons_of_mem first List.mem_cons_self) List.mem_cons_self
    · exact ih (infix_of_infix_append (hkept first List.mem_cons_self) hwithin)
  | passed c cs hstart ih =>
    intro h
    have hchanged := @forall₂_mem_replaceAll first plain capitals hlength (c :: cs)
    rw [replaceAll_cons _ hstart] at h hchanged
    rcases List.infix_cons_iff.mp h with hfound | hwithin
    · exact hstart (prefix_of_forall₂ hchanged
        (fun _ d hd hchange => hchange.resolve_right (hkept d hd)) hfound)
    · exact ih hwithin

end Acronym

/-! ## Acronyms in capitals -/

/-- Whether a character is another one, or its capital if that is a small letter of ASCII. -/
def IsCapitalOf (c d : Char) : Prop :=
  d = c ∨ ('a'.toNat ≤ c.toNat ∧ c.toNat ≤ 'z'.toNat) ∧ d.toNat + 32 = c.toNat

instance (c d : Char) : Decidable (IsCapitalOf c d) :=
  inferInstanceAs (Decidable (_ ∨ _))

private theorem IsCapitalOf.trans {b c d : Char} (hc : IsCapitalOf b c) (hd : IsCapitalOf c d) :
    IsCapitalOf b d := by
  rcases hd with rfl | ⟨hsmall, hcapital⟩
  · exact hc
  · rcases hc with rfl | ⟨hsmall', hcapital'⟩
    · exact .inr ⟨hsmall, hcapital⟩
    · have hfirst : 'a'.toNat = 97 := rfl
      have hlast : 'z'.toNat = 122 := rfl
      omega

private theorem forall₂_capitalizeAcronyms (cs : List Char) :
    List.Forall₂ IsCapitalOf cs (capitalizeAcronyms cs) := by
  have hacronyms : ∀ p ∈ acronyms, p.1 ≠ [] ∧ List.Forall₂ IsCapitalOf p.1 p.2 := by decide
  suffices hfold : ∀ ps : List (List Char × List Char),
      (∀ p ∈ ps, p.1 ≠ [] ∧ List.Forall₂ IsCapitalOf p.1 p.2) → ∀ ds,
        List.Forall₂ IsCapitalOf cs ds →
          List.Forall₂ IsCapitalOf cs (ps.foldl (fun ds p => replaceAll p.1 p.2 ds) ds) from
    hfold acronyms hacronyms cs (List.forall₂_same.mpr fun c _ => .inl rfl)
  intro ps hps ds hds
  induction ps generalizing ds with
  | nil => exact hds
  | cons p ps ih =>
    obtain ⟨⟨hne, hp⟩, hps⟩ := List.forall_mem_cons.mp hps
    exact ih hps _ (forall₂_trans .trans hds (forall₂_replaceAll (fun c => .inl rfl) hne hp ds))

private theorem not_infix_capitalizeAcronyms {plain : List Char} (h : plain ∈ acronyms.map Prod.fst)
    (cs : List Char) : ¬ plain <:+: capitalizeAcronyms cs := by
  simp only [acronyms, List.map_cons, List.map_nil, List.mem_cons, List.not_mem_nil, or_false] at h
  simp only [capitalizeAcronyms, acronyms, List.foldl_cons, List.foldl_nil]
  -- a later acronym has no capital but the first of an earlier one
  rcases h with rfl | rfl | rfl <;> intro h
  · refine not_infix_replaceAll (by decide) (by decide) (by simp) cs
      (infix_of_infix_replaceAll ?_ ?_ (infix_of_infix_replaceAll ?_ ?_ h)) <;> simp
  · refine not_infix_replaceAll (by decide) (by decide) (by simp) _
      (infix_of_infix_replaceAll ?_ ?_ h) <;> simp
  · exact not_infix_replaceAll (by decide) (by decide) (by simp) _ h

/-! ## Identifiers -/

/-- The characters of an identifier but for the capitals of its acronyms: the words of its key, each
with a capital at its start, behind an underscore unless the key begins as an identifier may. -/
def plainChars (cs : List Char) (words : List (List Char)) : List Char :=
  (if beginsWell cs then [] else ['_']) ++ words.flatMap Text.upperFirst

private theorem forall₂_ofKeyChars (cs : List Char) :
    List.Forall₂ IsCapitalOf (plainChars cs (words cs)) (ofKeyChars cs) := by
  have hjoined := forall₂_capitalizeAcronyms ((words cs).flatMap Text.upperFirst)
  rw [plainChars, ofKeyChars]
  split
  · exact hjoined
  · exact .cons (.inl rfl) hjoined

private theorem not_infix_ofKeyChars {plain : List Char} (h : plain ∈ acronyms.map Prod.fst)
    (cs : List Char) : ¬ plain <:+: ofKeyChars cs := by
  have hjoined := not_infix_capitalizeAcronyms h ((words cs).flatMap Text.upperFirst)
  rw [ofKeyChars]
  split
  · exact hjoined
  · -- no acronym begins with the underscore
    have hunderscore : ∀ p ∈ acronyms.map Prod.fst, ∃ c ps, p = c :: ps ∧ c ≠ '_' := by
      simp [acronyms]
    obtain ⟨c, ps, rfl, hne⟩ := hunderscore plain h
    intro hwithin
    have hnot : c ∉ ['_'] := fun hmem => hne (List.mem_singleton.mp hmem)
    exact hjoined (infix_of_infix_append hnot hwithin)

private theorem utf8ByteSize_eq_of_forall₂ {cs ds : List Char}
    (h : List.Forall₂ IsCapitalOf cs ds) :
    (String.ofList ds).utf8ByteSize = (String.ofList cs).utf8ByteSize := by
  simp only [String.utf8ByteSize_ofList]
  induction h with
  | nil => rfl
  | @cons c d cs ds hcd _ ih =>
    have hsize : d.utf8Size = c.utf8Size := by
      rcases hcd with rfl | ⟨⟨-, hlast⟩, hcapital⟩
      · rfl
      · have hone {e : Char} (he : e.toNat ≤ 'z'.toNat) : e.utf8Size = 1 :=
          Char.utf8Size_eq_one_iff.mpr (UInt32.le_iff_toNat_le.mpr (Nat.le_trans he (by decide)))
        rw [hone hlast, hone (by omega)]
    rw [String.utf8Len_cons, String.utf8Len_cons, ih, hsize]

/-- An identifier holds none of the acronyms.  It is as long as the words of its key with capitals
at their starts, and differs from them in that some ASCII letters are capitals.  It depends on the
words of the key and on whether the key begins as an identifier may, and on nothing else. -/
theorem ofKey_acronyms (key : String) :
    (∀ acronym ∈ ["Url", "Uri", "Id"], ¬ acronym.toList <:+: (ofKey key).toList) ∧
      (∃ runs, Runs key.toList runs ∧
        List.Forall₂ IsCapitalOf (plainChars key.toList runs) (ofKey key).toList ∧
        (ofKey key).length = (plainChars key.toList runs).length ∧
        (ofKey key).utf8ByteSize = (String.ofList (plainChars key.toList runs)).utf8ByteSize) ∧
      ∀ other runs, Runs key.toList runs → Runs other.toList runs →
        (beginsWell key.toList ↔ beginsWell other.toList) → ofKey key = ofKey other := by
  have hacronyms : acronyms.map Prod.fst = ["Url".toList, "Uri".toList, "Id".toList] := by
    decide +kernel
  have hchanged := forall₂_ofKeyChars key.toList
  refine ⟨fun acronym hacronym => ?_, ⟨words key.toList, runs_iff.mpr rfl, ?_, ?_, ?_⟩,
    fun other runs hkey hother hbegins => ?_⟩
  · rw [ofKey, String.toList_ofList]
    refine not_infix_ofKeyChars ?_ key.toList
    rw [hacronyms]
    exact List.mem_map_of_mem hacronym
  · rwa [ofKey, String.toList_ofList]
  · rw [ofKey, String.length_ofList, hchanged.length_eq]
  · exact utf8ByteSize_eq_of_forall₂ hchanged
  · rw [ofKey, ofKey, ofKeyChars, ofKeyChars, ← hkey.eq_words, ← hother.eq_words,
      Bool.eq_iff_iff.mpr hbegins]

/-- Two keys with the words `urid` and `list`: their identifier holds no acronym, although the
capitals of one make another. -/
theorem ofKey_acronyms_separators :
    Runs "urid_list".toList ["urid".toList, "list".toList] ∧
      Runs "urid - list!".toList ["urid".toList, "list".toList] ∧
      ofKey "urid_list" = ofKey "urid - list!" ∧ ofKey "urid_list" = "URIDList" := by
  have hkey : Runs "urid_list".toList ["urid".toList, "list".toList] :=
    runs_iff.mpr (by decide +kernel)
  have hother : Runs "urid - list!".toList ["urid".toList, "list".toList] :=
    runs_iff.mpr (by decide +kernel)
  exact ⟨hkey, hother, (ofKey_acronyms "urid_list").2.2 _ _ hkey hother (by decide +kernel),
    by decide +kernel⟩

end Exemplar.Ident
