import Exemplar.Json.Value
import Exemplar.Text.Split

/-!
# JSON pointers

A pointer names a value inside a document by the tokens on the way to it, each behind a slash.
In a token `~1` stands for a slash and `~0` for a tilde.  The main statement: a pointer written
from tokens is read as those tokens.
-/

namespace Exemplar.Json.Pointer

/-- Replaces each tilde that a given character follows, together with that character. -/
def replaceTilde (code plain : Char) : List Char → List Char
  | [] => []
  | '~' :: c :: cs =>
    if c = code then plain :: replaceTilde code plain cs
    else '~' :: replaceTilde code plain (c :: cs)
  | c :: cs => c :: replaceTilde code plain cs

/-- The token that an escaped token stands for: slashes first, then tildes. -/
def unescape (t : List Char) : List Char :=
  replaceTilde '0' '~' (replaceTilde '1' '/' t)

/-- The escaped form of a token. -/
def escape (t : List Char) : List Char :=
  t.flatMap fun c => if c = '~' then ['~', '0'] else if c = '/' then ['~', '1'] else [c]

/-- The position in an array that a token names: decimal digits without a leading zero. -/
def index? (t : List Char) : Option Nat :=
  if t ≠ [] ∧ t.all Text.isDigit ∧ (t.head? ≠ some '0' ∨ t.length = 1) then
    let n := Text.digitsValue t
    if n < Nat.pow 2 64 then some n else none
  else none

/-- One step from a value: into the member of an object or the item of an array. -/
def step? (token : List Char) : Value → Option Value
  | .object members => members.lookup (String.ofList token)
  | .array items => (index? token).bind (items[·]?)
  | _ => none

/-- The value that a list of tokens leads to. -/
def follow? : List (List Char) → Value → Option Value
  | [], v => some v
  | t :: ts, v => (step? t v).bind (follow? ts)

/-- The tokens of a pointer; a pointer that is not empty begins with a slash. -/
def tokens? : List Char → Option (List (List Char))
  | [] => some []
  | '/' :: cs => some ((Text.split '/' cs).map unescape)
  | _ => none

/-- The pointer that a list of tokens is written as. -/
def ofTokens (tokens : List (List Char)) : List Char :=
  tokens.flatMap fun t => '/' :: escape t

/-- The value that a pointer selects in a document. -/
def select? (pointer : String) (document : Value) : Option Value :=
  (tokens? pointer.toList).bind (follow? · document)

/-! ## Reading what was written -/

private theorem replaceTilde_cons {code plain c : Char} (h : c ≠ '~') (cs : List Char) :
    replaceTilde code plain (c :: cs) = c :: replaceTilde code plain cs := by
  rw [replaceTilde]
  intro _ _ hc _
  exact h hc

private theorem replaceTilde_hit (code plain : Char) (cs : List Char) :
    replaceTilde code plain ('~' :: code :: cs) = plain :: replaceTilde code plain cs := by
  rw [replaceTilde, if_pos rfl]

private theorem replaceTilde_miss {code plain c : Char} (h : c ≠ code) (cs : List Char) :
    replaceTilde code plain ('~' :: c :: cs) = '~' :: replaceTilde code plain (c :: cs) := by
  rw [replaceTilde, if_neg h]

/-- Undoing the escapes of a token gives the token back. -/
theorem unescape_escape (t : List Char) : unescape (escape t) = t := by
  suffices h : ∀ t, replaceTilde '1' '/' (escape t) =
      t.flatMap (fun c => if c = '~' then ['~', '0'] else [c]) by
    rw [unescape, h]
    induction t with
    | nil => rfl
    | cons c t ih =>
      rw [List.flatMap_cons]
      by_cases hc : c = '~'
      · subst hc
        exact (replaceTilde_hit '0' '~' _).trans (congrArg _ ih)
      · rw [if_neg hc]
        exact (replaceTilde_cons hc _).trans (congrArg _ ih)
  intro t
  induction t with
  | nil => rfl
  | cons c t ih =>
    rw [escape, List.flatMap_cons, List.flatMap_cons]
    change replaceTilde '1' '/' (_ ++ escape t) = _
    by_cases hc : c = '~'
    · subst hc
      rw [if_pos rfl, if_pos rfl]
      refine (replaceTilde_miss (by decide) _).trans ?_
      exact congrArg _ ((replaceTilde_cons (by decide) _).trans (congrArg _ ih))
    · rw [if_neg hc, if_neg hc]
      by_cases hs : c = '/'
      · subst hs
        rw [if_pos rfl]
        exact (replaceTilde_hit '1' '/' _).trans (congrArg _ ih)
      · rw [if_neg hs]
        exact (replaceTilde_cons hc _).trans (congrArg _ ih)

private theorem slash_notMem_escape (t : List Char) : '/' ∉ escape t := by
  intro h
  obtain ⟨c, -, hc⟩ := List.mem_flatMap.1 h
  by_cases h1 : c = '~'
  · simp [h1] at hc
  · by_cases h2 : c = '/'
    · simp [h2] at hc
    · simp [h1, h2] at hc
      exact h2 hc.symm

private theorem split_ofTokens (t : List Char) (ts : List (List Char)) :
    Text.split '/' (escape t ++ ofTokens ts) = escape t :: ts.map escape := by
  induction ts generalizing t with
  | nil =>
    rw [ofTokens, List.flatMap_nil, List.append_nil]
    exact Text.split_eq_self (slash_notMem_escape t)
  | cons u us ih =>
    rw [ofTokens, List.flatMap_cons, List.cons_append, Text.split_append (slash_notMem_escape t)]
    exact congrArg _ (ih u)

/-- The tokens of the pointer that tokens are written as are those tokens. -/
theorem tokens?_ofTokens (ts : List (List Char)) : tokens? (ofTokens ts) = some ts := by
  cases ts with
  | nil => rfl
  | cons t ts =>
    rw [ofTokens, List.flatMap_cons, List.cons_append, tokens?]
    change some (List.map unescape (Text.split '/' (escape t ++ ofTokens ts))) = _
    rw [split_ofTokens, List.map_cons, List.map_map, unescape_escape]
    congr 2
    exact (List.map_congr_left fun u _ => unescape_escape u).trans (List.map_id ts)

end Exemplar.Json.Pointer
