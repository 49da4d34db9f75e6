import Exemplar.Proofs.Struct.Tag
import Exemplar.Proofs.Text.Trim
import Exemplar.Struct.Emit

/-!
# Scanning lines for comments

What the search for a comment passes over: text without quotes and slashes, and literals, raw or
interpreted.  The main statement: a tag is passed over as a whole, whatever its key holds.
-/

namespace Exemplar.Struct

/-- Whether the search for a comment passes over a text, from one state of quotation to another. -/
def Scans (q : Option Char) (xs : List Char) (q' : Option Char) : Prop :=
  ∀ ys, beforeComment? q (xs ++ ys) = (beforeComment? q' ys).map (xs ++ ·)

namespace Scans

variable {q q' q'' : Option Char} {xs ys : List Char}

private theorem nil : Scans q [] q := by
  intro ys
  rw [List.nil_append]
  exact (Option.map_id_apply (x := beforeComment? q ys)).symm

/-- Texts that are passed over one after the other are passed over together. -/
theorem append (hx : Scans q xs q') (hy : Scans q' ys q'') : Scans q (xs ++ ys) q'' := by
  intro zs
  rw [List.append_assoc, hx, hy, Option.map_map]
  simp only [Function.comp_def, List.append_assoc]

/-- A character outside of quotes that is no slash is passed over. -/
theorem code {c : Char} (hslash : c ≠ '/') :
    Scans none [c] (if c = '"' ∨ c = tick then some c else none) := by
  intro ys
  rw [List.singleton_append, beforeComment?.eq_def none]
  dsimp only
  rw [if_neg fun h => hslash h.1]
  rfl

/-- A character inside of quotes that begins no escape is passed over. -/
theorem quoted {c d : Char} (hescape : ¬ (d = '\\' ∧ c = '"')) :
    Scans (some c) [d] (if d = c then none else some c) := by
  intro ys
  rw [List.singleton_append, beforeComment?.eq_def (some c)]
  dsimp only
  rw [if_neg hescape]
  rfl

/-- An escape is passed over. -/
theorem escaped (d : Char) : Scans (some '"') ['\\', d] (some '"') := by
  intro ys
  rw [List.cons_append, beforeComment?.eq_def (some '"')]
  dsimp only
  rw [if_pos ⟨rfl, rfl⟩]
  rfl

/-- Code without quotes and slashes is passed over. -/
theorem of_code (h : ∀ c ∈ xs, c ≠ '/' ∧ c ≠ '"' ∧ c ≠ tick) : Scans none xs none := by
  induction xs with
  | nil => exact nil
  | cons c xs ih =>
    obtain ⟨hslash, hquote, htick⟩ := h c List.mem_cons_self
    have hc := code hslash
    rw [if_neg fun h => h.elim hquote htick] at hc
    exact hc.append (ih fun d hd => h d (List.mem_cons_of_mem c hd))

/-- Quoted text without escapes and without the quote itself is passed over. -/
theorem of_quoted {c : Char} (h : ∀ d ∈ xs, d ≠ c ∧ ¬ (d = '\\' ∧ c = '"')) :
    Scans (some c) xs (some c) := by
  induction xs with
  | nil => exact nil
  | cons d xs ih =>
    obtain ⟨hquote, hescape⟩ := h d List.mem_cons_self
    have hd := quoted hescape
    rw [if_neg hquote] at hd
    exact hd.append (ih fun e he => h e (List.mem_cons_of_mem d he))

private theorem raw (h : tick ∉ xs) : Scans none (tick :: (xs ++ [tick])) none := by
  have hopen : Scans none [tick] (some tick) := code (c := tick) (by decide)
  have hclose : Scans (some tick) [tick] none := quoted (c := tick) (d := tick) (by decide)
  have hbody : Scans (some tick) xs (some tick) := by
    refine of_quoted fun d hd => ⟨?_, fun h' => absurd h'.2 (by decide)⟩
    rintro rfl
    exact h hd
  exact hopen.append (hbody.append hclose)

end Scans

/-! ## Literals -/

private theorem scans_escapeChar (c : Char) : Scans (some '"') (escapeChar c) (some '"') := by
  have hdigits : ∀ d < 16, Nat.digitChar d ≠ '"' ∧ Nat.digitChar d ≠ '\\' := by decide
  rcases escapeChar_cases c with ⟨-, d, -, heq⟩ | ⟨-, heq⟩ | ⟨hshort, -, heq⟩
  · rw [heq]
    exact .escaped d
  · rw [heq]
    refine (Scans.escaped 'u').append (.of_quoted fun d hd => ?_)
    obtain ⟨n, hn, rfl⟩ := Text.exists_digit_of_mem_hex4 hd
    exact ⟨(hdigits n hn).1, fun h => (hdigits n hn).2 h.1⟩
  · rw [heq]
    refine .of_quoted fun d hd => ?_
    obtain rfl := List.mem_singleton.mp hd
    constructor
    · rintro rfl
      exact hshort (by decide)
    · rintro ⟨rfl, -⟩
      exact hshort (by decide)

private theorem scans_escape (cs : List Char) : Scans (some '"') (escape cs) (some '"') := by
  induction cs with
  | nil => exact .nil
  | cons c cs ih =>
    rw [escape, List.flatMap_cons]
    exact (scans_escapeChar c).append ih

private theorem scans_literal (value : List Char) : Scans none (literal value) none := by
  rw [literal]
  split
  · have hopen : Scans none ['"'] (some '"') := .code (c := '"') (by decide)
    have hclose : Scans (some '"') ['"'] none := .quoted (c := '"') (d := '"') (by decide)
    exact hopen.append ((scans_escape value).append hclose)
  · next h =>
    rw [List.contains_iff_mem] at h
    exact .raw h

/-- A tag is passed over. -/
theorem scans_tag (key : List Char) (quoted : Bool) : Scans none (tag key quoted) none :=
  scans_literal (tagValue key quoted)

/-! ## Lines -/

/-- A line that is passed over is code as a whole. -/
theorem codePart_of_scans {xs : List Char} {q : Option Char} (h : Scans none xs q) :
    codePart xs = xs := by
  have hxs := h []
  rw [List.append_nil] at hxs
  have hnil : beforeComment? q [] = none := by cases q <;> rfl
  rw [codePart, hxs, hnil]
  rfl

/-- The code of a line that is passed over up to a comment is what stands before the comment. -/
theorem codePart_comment {xs : List Char} (h : Scans none xs none) (rest : List Char) :
    codePart (xs ++ '/' :: '/' :: rest) = Text.trimEnd xs := by
  rw [codePart, h, beforeComment?, if_pos ⟨rfl, rfl⟩]
  simp only [Option.map_some, List.append_nil]

end Exemplar.Struct
