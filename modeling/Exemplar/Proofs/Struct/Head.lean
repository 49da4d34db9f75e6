import Exemplar.Proofs.Struct.Rows

/-!
# The head of a file of structs

What the layout makes of the package clause and the imports.  The main statement: under a plain
package name the head of a file leads from no block back to none, so the declarations behind it
are read as if they stood alone.
-/

namespace Exemplar.Struct

/-- Whether a package, if there is one, has a name of ASCII letters, digits and underscores. -/
def isPlainPackage (package? : Option String) : Bool :=
  package?.all fun package => package.toList.all fun c => c.isAlphanum || c == '_'

/-- Whether a character quotes nothing, begins no comment, ends no line and is no bracket. -/
def isInert (c : Char) : Bool :=
  !(['/', '"', tick, '\n', '\x7b', '(', '\x7d', ')'].contains c)

private theorem isInert_of_isPlain {c : Char} (h : Text.isPlain c) : isInert c := by
  by_contra hc
  simp only [isInert, Bool.not_eq_true', Bool.not_eq_false, List.contains_iff_mem,
    List.mem_cons, List.not_mem_nil, or_false] at hc
  rcases hc with rfl | rfl | rfl | rfl | rfl | rfl | rfl | rfl <;> exact absurd h (by decide)

/-- Whether texts lead from one depth to another through some rows, and each is one line. -/
def Crosses (texts : List (List Char)) (depth depth' : Nat) : Prop :=
  (∃ rows, Leads texts depth rows depth') ∧ ∀ text ∈ texts, '\n' ∉ text

namespace Crosses

variable {texts texts' : List (List Char)} {d d' d'' : Nat}

private theorem nil : Crosses [] d d :=
  ⟨⟨[], .nil⟩, fun _ htext => by cases htext⟩

private theorem append (h : Crosses texts d d') (h' : Crosses texts' d' d'') :
    Crosses (texts ++ texts') d d'' := by
  obtain ⟨⟨rows, hrows⟩, hfeed⟩ := h
  obtain ⟨⟨rows', hrows'⟩, hfeed'⟩ := h'
  refine ⟨⟨rows ++ rows', hrows.append hrows'⟩, fun text htext => ?_⟩
  exact (List.mem_append.mp htext).elim (hfeed text) (hfeed' text)

private theorem blank : Crosses [[]] d d :=
  ⟨⟨[], .blank⟩, by simp⟩

private theorem line {text : List Char} (htext : Text.trim text ≠ []) (hfeed : '\n' ∉ text) :
    Crosses [text] (d + if closes (codePart (Text.trim text)) then 1 else 0)
      (d + if opens (codePart (Text.trim text)) then 1 else 0) := by
  refine ⟨⟨_, .line htext⟩, fun text' htext' => ?_⟩
  rwa [List.mem_singleton.mp htext']

end Crosses

private theorem Crosses.flat {text : List Char} {d : Nat} (htext : Text.trim text ≠ [])
    (h : ∀ c ∈ text, isInert c) : Crosses [text] d d := by
  simp only [isInert, Bool.not_eq_true', List.contains_eq_mem, decide_eq_false_iff_not,
    List.mem_cons, List.not_mem_nil, or_false, not_or] at h
  have htrim : ∀ c ∈ Text.trim text, _ := fun c hc => h c (Text.mem_of_mem_trim hc)
  have hcode : codePart (Text.trim text) = Text.trim text := by
    apply codePart_of_scans
    refine Scans.of_code fun c hc => ?_
    obtain ⟨hslash, hquote, htick, -⟩ := htrim c hc
    exact ⟨hslash, hquote, htick⟩
  have hcloses : closes (Text.trim text) = false := by
    unfold closes
    cases hfirst : (Text.trim text).head? with
    | none => rfl
    | some c =>
      have hc := htrim c (List.mem_of_head? hfirst)
      simp [hc]
  have hopens : opens (Text.trim text) = false := by
    unfold opens
    cases hlast : (Text.trim text).getLast? with
    | none => rfl
    | some c =>
      have hc := htrim c (List.mem_of_getLast? hlast)
      simp [hc]
  have hline := Crosses.line (d := d) htext fun hfeed => (h _ hfeed).2.2.2.1 rfl
  rw [hcode, hcloses, hopens] at hline
  exact hline

/-! ## Heads -/

private theorem crosses_package {package : String}
    (hpackage : ∀ c ∈ package.toList, c.isAlphanum ∨ c = '_') :
    Crosses ["package ".toList ++ package.toList] 0 0 := by
  have hkeyword : "package ".toList.all isInert = true := by decide +kernel
  refine .flat ?_ fun c hc => ?_
  · rw [Ne, Text.trim_eq_nil_iff]
    intro hblank
    exact absurd (hblank 'p' (List.mem_append_left _ (by decide))) (by decide)
  · rcases List.mem_append.mp hc with hc | hc
    · exact List.all_eq_true.mp hkeyword c hc
    · exact isInert_of_isPlain (Text.isPlain_of_isAlphanum (hpackage c hc))

/-- The packages of a file are those of addresses and of times. -/
theorem eq_of_mem_imports {root : List Field} {named : List NamedObject} {i : String}
    (h : i ∈ imports root named) : i = "net" ∨ i = "time" := by
  unfold imports at h
  rcases List.mem_append.mp h with h | h
  · split at h
    · exact .inl (List.mem_singleton.mp h)
    · cases h
  · split at h
    · exact .inr (List.mem_singleton.mp h)
    · cases h

private theorem crosses_imports {is : List String} (h : ∀ i ∈ is, i = "net" ∨ i = "time") :
    Crosses (is.map fun i => '\t' :: '"' :: (i.toList ++ ['"'])) 1 1 := by
  induction is with
  | nil => exact .nil
  | cons i is ih =>
    have hrest := ih fun j hj => h j (List.mem_cons_of_mem i hj)
    rcases h i List.mem_cons_self with rfl | rfl
    · exact Crosses.append (.line (d := 1) (by decide) (by decide)) hrest
    · exact Crosses.append (.line (d := 1) (by decide) (by decide)) hrest

/-- The head of a file with a plain package name crosses nothing. -/
theorem crosses_headTexts {package? : Option String} (hpackage : isPlainPackage package?)
    {is : List String} (his : ∀ i ∈ is, i = "net" ∨ i = "time") :
    Crosses (headTexts package? is) 0 0 := by
  unfold headTexts
  cases package? with
  | none => exact .nil
  | some package =>
    have hnote : Crosses ["// Code generated by configd. DO NOT EDIT.".toList] 0 0 :=
      .line (d := 0) (by decide) (by decide)
    have hopening : Crosses ["import (".toList] 0 1 := .line (d := 0) (by decide) (by decide)
    have hclosing : Crosses [[')']] 1 0 := .line (d := 0) (by decide) (by decide)
    have hclause : Crosses ["package ".toList ++ package.toList] 0 0 := by
      apply crosses_package
      simpa [isPlainPackage] using hpackage
    refine Crosses.append (hnote.append (.append .blank (hclause.append .blank))) ?_
    split
    · exact .nil
    · exact hopening.append ((crosses_imports his).append (hclosing.append .blank))

end Exemplar.Struct
