import Exemplar.Command.Arguments
import Exemplar.Proofs.Outcome
import Exemplar.Proofs.Text.Cut

/-!
# What arguments stand for

The ways to spell a parameter and its value on a command line, and what an invocation is for the
values that parameters have.  The main statement: a command line that is read as an invocation is a
verb and spelled parameters, each known to the verb, with a value that it takes and given once, and
the invocation is what these stand for.
-/

namespace Exemplar.Command

/-! ## Spelling -/

/-- Whether an argument can be the value of the parameter before it: one dash alone, or whatever
begins otherwise. -/
def IsWord (w : String) : Prop :=
  w = "-" ∨ w.toList.head? ≠ some '-'

/-- Whether arguments spell known parameters with their values, in their order.  A value stands
behind its parameter, or is attached to it: behind an equals sign, or right behind the letter. -/
inductive Spells (known : List Parameter) : List String → Bindings → Prop
  | nil : Spells known [] []
  | ending : Spells known [endOfParameters] []
  | flag {p : Parameter} {rest : List String} {bound : Bindings} (hp : p ∈ known)
      (hflag : p.takesValue = false) (hhelp : p ≠ .help) (hrest : Spells known rest bound) :
      Spells known (("--" ++ p.long) :: rest) ((p, "") :: bound)
  | long {p : Parameter} {value : String} {rest : List String} {bound : Bindings} (hp : p ∈ known)
      (hvalue : p.takesValue = true) (hword : IsWord value) (hrest : Spells known rest bound) :
      Spells known (("--" ++ p.long) :: value :: rest) ((p, value) :: bound)
  | longAttached {p : Parameter} {value : String} {rest : List String} {bound : Bindings}
      (hp : p ∈ known) (hvalue : p.takesValue = true) (hrest : Spells known rest bound) :
      Spells known (("--" ++ p.long ++ "=" ++ value) :: rest) ((p, value) :: bound)
  | short {p : Parameter} {letter : Char} {value : String} {rest : List String} {bound : Bindings}
      (hp : p ∈ known) (hvalue : p.takesValue = true) (hletter : p.short? = some letter)
      (hword : IsWord value) (hrest : Spells known rest bound) :
      Spells known (("-" ++ String.singleton letter) :: value :: rest) ((p, value) :: bound)
  | shortAttached {p : Parameter} {letter : Char} {value : String} {rest : List String}
      {bound : Bindings} (hp : p ∈ known) (hvalue : p.takesValue = true)
      (hletter : p.short? = some letter) (hne : value ≠ "")
      (hequals : value.toList.head? ≠ some '=') (hrest : Spells known rest bound) :
      Spells known (("-" ++ String.singleton letter ++ value) :: rest) ((p, value) :: bound)
  | shortEquals {p : Parameter} {letter : Char} {value : String} {rest : List String}
      {bound : Bindings} (hp : p ∈ known) (hvalue : p.takesValue = true)
      (hletter : p.short? = some letter) (hrest : Spells known rest bound) :
      Spells known (("-" ++ String.singleton letter ++ "=" ++ value) :: rest)
        ((p, value) :: bound)

/-- Only known parameters are spelled. -/
theorem Spells.mem_known {known : List Parameter} {args : List String} {bound : Bindings}
    (h : Spells known args bound) : ∀ b ∈ bound, b.1 ∈ known := by
  induction h with
  | nil => exact fun b hb => by cases hb
  | ending => exact fun b hb => by cases hb
  | flag hp _ _ _ ih => exact List.forall_mem_cons.mpr ⟨hp, ih⟩
  | long hp _ _ _ ih => exact List.forall_mem_cons.mpr ⟨hp, ih⟩
  | longAttached hp _ _ ih => exact List.forall_mem_cons.mpr ⟨hp, ih⟩
  | short hp _ _ _ _ ih => exact List.forall_mem_cons.mpr ⟨hp, ih⟩
  | shortAttached hp _ _ _ _ _ ih => exact List.forall_mem_cons.mpr ⟨hp, ih⟩
  | shortEquals hp _ _ _ ih => exact List.forall_mem_cons.mpr ⟨hp, ih⟩

/-! ## The form of arguments -/

namespace Argument

private theorem eq_of_ofString_long {s name : String} {value? : Option String}
    (h : ofString s = .long name value?) :
    s = "--" ++ name ++ value?.elim "" ("=" ++ ·) := by
  rw [ofString] at h
  split at h
  · next cs hcs =>
    obtain ⟨rfl, rfl⟩ := Argument.long.inj h
    apply String.toList_injective
    have hdashes : "--".toList = ['-', '-'] := rfl
    rw [hcs, String.toList_append, String.toList_append, hdashes, String.toList_ofList]
    cases hdrop : cs.dropWhile (· != '=') with
    | nil =>
      have hall := List.takeWhile_append_dropWhile (p := (· != '=')) (l := cs)
      rw [hdrop, List.append_nil] at hall
      rw [hall]
      simp
    | cons c value =>
      obtain ⟨hcut, -⟩ := Text.exists_append_of_dropWhile_ne hdrop
      conv_lhs => rw [hcut]
      simp
  · cases h
  · cases h

private theorem eq_of_ofString_short {s : String} {letter : Char} {attached : List Char}
    (h : ofString s = .short letter attached) :
    s = "-" ++ String.singleton letter ++ String.ofList attached := by
  rw [ofString] at h
  split at h
  · cases h
  · next letter' attached' hcs =>
    obtain ⟨rfl, rfl⟩ := Argument.short.inj h
    apply String.toList_injective
    have hdash : "-".toList = ['-'] := rfl
    rw [hcs, String.toList_append, String.toList_append, hdash, String.toList_ofList]
    simp
  · cases h

private theorem isWord_of_ofString {s w : String} (h : ofString s = .word w) :
    w = s ∧ IsWord w := by
  rw [ofString] at h
  split at h
  · cases h
  · cases h
  · next hlong hshort =>
    obtain rfl := Argument.word.inj h
    refine ⟨rfl, ?_⟩
    by_cases hhead : s.toList.head? = some '-'
    · obtain ⟨cs, hcs⟩ := List.head?_eq_some_iff.mp hhead
      cases cs with
      | nil =>
        left
        apply String.toList_injective
        exact hcs
      | cons c cs =>
        exact absurd hcs (hshort c cs)
    · exact .inr hhead

end Argument

private theorem eq_nil_of_attachedValue? {attached : List Char}
    (h : attachedValue? attached = none) :
    attached = [] := by
  rw [attachedValue?.eq_def] at h
  split at h
  · rfl
  · cases h
  · cases h

private theorem eq_of_attachedValue? {attached : List Char} {value : String}
    (h : attachedValue? attached = some value) :
    attached = '=' :: value.toList ∨
      (attached = value.toList ∧ value ≠ "" ∧ value.toList.head? ≠ some '=') := by
  rw [attachedValue?.eq_def] at h
  split at h
  · cases h
  · obtain rfl := Option.some.inj h
    exact .inl (by rw [String.toList_ofList])
  · next hne hequals =>
    obtain rfl := Option.some.inj h
    rw [String.toList_ofList]
    refine .inr ⟨rfl, ?_, ?_⟩
    · rw [Ne, String.ofList_eq_empty_iff]
      exact hne
    · intro hhead
      obtain ⟨cs, hcs⟩ := List.head?_eq_some_iff.mp hhead
      exact hequals cs hcs

private theorem Parameter.takesValue_of_short? {p : Parameter} {letter : Char}
    (h : p.short? = some letter) (hhelp : p ≠ .help) : p.takesValue = true := by
  cases p with
  | input | out => rfl
  | help => exact absurd rfl hhelp
  | _ => cases h

/-! ## Parameters in a row -/

/-- Whether parameters are bound once each, to values that they take. -/
structure IsBound (bound : Bindings) : Prop where
  nodup : (bound.map Prod.fst).Nodup
  accepts : ∀ b ∈ bound, b.1.accepts b.2 = true

private theorem bind_ok {p : Parameter} {value : String} {bound bound' : Bindings}
    (h : bind p value bound = .ok bound') :
    bound' = bound ++ [(p, value)] ∧ (IsBound bound → IsBound bound') := by
  rw [bind] at h
  split at h
  · cases h
  · next hnew =>
    split at h
    · next haccepts =>
      obtain rfl := Except.ok.inj h
      refine ⟨rfl, fun hbound => ⟨?_, ?_⟩⟩
      · rw [List.map_append, List.nodup_append]
        refine ⟨hbound.nodup, List.nodup_cons.mpr ⟨List.not_mem_nil, .nil⟩, fun q hq r hr => ?_⟩
        obtain ⟨b, hb, rfl⟩ := List.mem_map.mp hq
        rw [List.mem_singleton.mp hr]
        rintro rfl
        exact hnew (List.any_eq_true.mpr ⟨b, hb, beq_self_eq_true _⟩)
      · intro b hb
        rcases List.mem_append.mp hb with hb | hb
        · exact hbound.accepts b hb
        · rw [List.mem_singleton.mp hb]
          exact haccepts
    · cases h

/-- Whether arguments spell parameters behind one that may wait for its value, or to be bound. -/
def SpellsBehind (known : List Parameter) : Waiting → List String → Bindings → Prop
  | none, args, bound => Spells known args bound
  | some (p, some value), args, bound => ∃ rest, bound = (p, value) :: rest ∧ Spells known args rest
  | some (p, none), args, bound => ∃ value args' rest, args = value :: args' ∧ IsWord value ∧
      bound = (p, value) :: rest ∧ Spells known args' rest

section Row

variable {known : List Parameter} {waiting waiting' : Waiting} {bound bound' : Bindings}

private theorem settle_ok (known : List Parameter) (h : settle waiting bound = .ok bound') :
    ∃ own, bound' = bound ++ own ∧ (IsBound bound → IsBound bound') ∧
      ∀ args more, Spells known args more → SpellsBehind known waiting args (own ++ more) := by
  match waiting with
  | none =>
    obtain rfl := Except.ok.inj h
    exact ⟨[], (List.append_nil bound).symm, id, fun _ _ hmore => hmore⟩
  | some (p, none) => cases h
  | some (p, some value) =>
    obtain ⟨rfl, hbound⟩ := bind_ok h
    exact ⟨[(p, value)], rfl, hbound, fun _ more hmore => ⟨more, rfl, hmore⟩⟩

private theorem take_ok {p : Parameter} {value? : Option String} {s : String}
    (h : take waiting bound p value? = .ok (waiting', bound'))
    (hattached : ∀ value, value? = some value → p.takesValue = true → ∀ rest more,
      Spells known rest more → Spells known (s :: rest) ((p, value) :: more))
    (hbehind : value? = none → p.takesValue = true → ∀ value rest more, IsWord value →
      Spells known rest more → Spells known (s :: value :: rest) ((p, value) :: more))
    (hflag : p.takesValue = false → p ≠ .help → ∀ rest more,
      Spells known rest more → Spells known (s :: rest) ((p, "") :: more)) :
    ∃ own, bound' = bound ++ own ∧ (IsBound bound → IsBound bound') ∧
      ∀ rest more, SpellsBehind known waiting' rest more →
        SpellsBehind known waiting (s :: rest) (own ++ more) := by
  obtain ⟨settled, hsettle, h⟩ := bind_eq_ok_iff.mp h
  obtain ⟨own, rfl, hbound, hspells⟩ := settle_ok known hsettle
  split at h
  · cases h
  · next hhelp =>
    split at h
    · next htakes =>
      cases value? with
      | some value =>
        obtain ⟨bound'', hbind, heq⟩ := map_eq_ok_iff.mp h
        obtain ⟨rfl, rfl⟩ := Prod.mk.inj heq
        obtain ⟨rfl, hbound'⟩ := bind_ok hbind
        refine ⟨own ++ [(p, value)], List.append_assoc _ _ _, hbound' ∘ hbound,
          fun rest more hmore => ?_⟩
        rw [List.append_assoc]
        exact hspells _ _ (hattached value rfl htakes rest more hmore)
      | none =>
        obtain ⟨rfl, rfl⟩ := Prod.mk.inj (Except.ok.inj h)
        refine ⟨own, rfl, hbound, fun rest more hmore => ?_⟩
        obtain ⟨value, args', more', rfl, hword, rfl, hmore⟩ := hmore
        exact hspells _ _ (hbehind rfl htakes value args' more' hword hmore)
    · next htakes =>
      obtain ⟨bound'', hbind, heq⟩ := map_eq_ok_iff.mp h
      obtain ⟨rfl, rfl⟩ := Prod.mk.inj heq
      obtain ⟨rfl, hbound'⟩ := bind_ok hbind
      refine ⟨own ++ [(p, "")], List.append_assoc _ _ _, hbound' ∘ hbound,
        fun rest more hmore => ?_⟩
      rw [List.append_assoc]
      exact hspells _ _ (hflag (Bool.not_eq_true _ ▸ htakes) hhelp rest more hmore)

private theorem takeArgument_ok {s : String}
    (h : takeArgument known waiting bound (.ofString s) = .ok (waiting', bound')) :
    ∃ own, bound' = bound ++ own ∧ (IsBound bound → IsBound bound') ∧
      ∀ rest more, SpellsBehind known waiting' rest more →
        SpellsBehind known waiting (s :: rest) (own ++ more) := by
  cases hargument : Argument.ofString s with
  | long name value? =>
    have hs := Argument.eq_of_ofString_long hargument
    rw [hargument, takeArgument] at h
    split at h
    · cases h
    · next p hfind =>
      have hp := List.mem_of_find?_eq_some hfind
      have hname : p.long = name := by simpa using List.find?_some hfind
      split at h
      · cases h
      · next hvalue =>
        refine take_ok h ?_ ?_ ?_
        · rintro value rfl htakes rest more hmore
          rw [hs, ← hname, Option.elim_some, ← String.append_assoc]
          exact .longAttached hp htakes hmore
        · rintro rfl htakes value rest more hword hmore
          rw [hs, ← hname, Option.elim_none, String.append_empty]
          exact .long hp htakes hword hmore
        · intro hflag hhelp rest more hmore
          cases value? with
          | some value => exact absurd ⟨rfl, hflag⟩ hvalue
          | none =>
            rw [hs, ← hname, Option.elim_none, String.append_empty]
            exact .flag hp hflag hhelp hmore
  | short letter attached =>
    have hs := Argument.eq_of_ofString_short hargument
    rw [hargument, takeArgument] at h
    split at h
    · cases h
    · next p hfind =>
      have hp := List.mem_of_find?_eq_some hfind
      have hletter : p.short? = some letter := by simpa using List.find?_some hfind
      refine take_ok h ?_ ?_ ?_
      · intro value hvalue htakes rest more hmore
        rcases eq_of_attachedValue? hvalue with rfl | ⟨rfl, hne, hequals⟩
        · have hattached : String.ofList ('=' :: value.toList) = "=" ++ value := by
            apply String.toList_injective
            rw [String.toList_ofList, String.toList_append]
            rfl
          rw [hs, hattached, ← String.append_assoc]
          exact .shortEquals hp htakes hletter hmore
        · rw [hs, String.ofList_toList]
          exact .shortAttached hp htakes hletter hne hequals hmore
      · intro hvalue htakes value rest more hword hmore
        rw [hs, eq_nil_of_attachedValue? hvalue, String.ofList_nil, String.append_empty]
        exact .short hp htakes hletter hword hmore
      · intro hflag hhelp
        rw [Parameter.takesValue_of_short? hletter hhelp] at hflag
        cases hflag
  | word w =>
    obtain ⟨rfl, hword⟩ := Argument.isWord_of_ofString hargument
    rw [hargument] at h
    match waiting, h with
    | some (p, none), h =>
      obtain ⟨rfl, rfl⟩ := Prod.mk.inj (Except.ok.inj h)
      refine ⟨[], (List.append_nil bound).symm, id, fun rest more hmore => ?_⟩
      obtain ⟨more', rfl, hmore⟩ := hmore
      exact ⟨w, rest, more', rfl, hword, rfl, hmore⟩
    | none, h | some (p, some value), h => cases h

private theorem bindingsFrom_ok {args : List String}
    (h : bindingsFrom known waiting bound args = .ok bound') :
    ∃ own, bound' = bound ++ own ∧ (IsBound bound → IsBound bound') ∧
      SpellsBehind known waiting args own := by
  induction args generalizing waiting bound with
  | nil =>
    obtain ⟨own, rfl, hbound, hspells⟩ := settle_ok known h
    have hown := hspells [] [] .nil
    rw [List.append_nil] at hown
    exact ⟨own, rfl, hbound, hown⟩
  | cons s rest ih =>
    rw [bindingsFrom] at h
    split at h
    · next hs =>
      split at h
      · next hrest =>
        obtain ⟨own, rfl, hbound, hspells⟩ := settle_ok known h
        have hown := hspells [endOfParameters] [] .ending
        rw [List.append_nil] at hown
        exact ⟨own, rfl, hbound, hs ▸ hrest ▸ hown⟩
      · cases h
    · obtain ⟨⟨waiting', bound''⟩, htake, h⟩ := bind_eq_ok_iff.mp h
      obtain ⟨own, rfl, hbound, hspells⟩ := takeArgument_ok htake
      obtain ⟨own', rfl, hbound', hspells'⟩ := ih h
      exact ⟨own ++ own', List.append_assoc _ _ _, hbound' ∘ hbound, hspells _ _ hspells'⟩

end Row

/-! ## Invocations -/

/-- Whether an invocation is what parameters with their values stand for. -/
structure StandsFor (bound : Bindings) (i : Invocation) : Prop where
  input : i.input = (bound.lookup .input).getD stdinName
  rootName : i.options.rootName? = some ((bound.lookup .rootType).getD Ident.defaultRoot)
  pointer : i.options.pointer? = bound.lookup .pointer
  refineStrings : i.options.refineStrings = true ↔ ∀ value, (.noConvert, value) ∉ bound
  withExamples : i.options.withExamples = true ↔ ∀ value, (.noExamples, value) ∉ bound
  format : i.options.format = true ↔ ∀ value, (.noFormat, value) ∉ bound
  package : i.options.package? = if i.verb = .generate .go
    then some ((bound.lookup .package).getD defaultPackage) else none
  nesting : i.nesting = .named ↔ bound.lookup .nesting = some Nesting.named.name
  stdout : i.destination = .stdout ↔ bound.lookup .out = none ∧ bound.lookup .project = none
  file : ∀ path, i.destination = .file path ↔
    bound.lookup .out = some path ∧ bound.lookup .project = none
  project : ∀ directory, i.destination = .project directory ↔
    bound.lookup .out = none ∧ bound.lookup .project = some directory

private theorem isSome_lookup_eq_false_iff {bound : Bindings} {p : Parameter} :
    (!(bound.lookup p).isSome) = true ↔ ∀ value, (p, value) ∉ bound := by
  rw [Bool.not_eq_true', Option.isSome_eq_false_iff, Option.isNone_iff_eq_none,
    List.lookup_eq_none_iff]
  constructor
  · intro h value hvalue
    have hne := h _ hvalue
    simp at hne
  · rintro h ⟨q, value⟩ hb
    rw [bne_iff_ne]
    rintro rfl
    exact h value hb

private theorem standsFor_of_ofBindings {verb : Verb} {bound : Bindings} {i : Invocation}
    (h : Invocation.ofBindings verb bound = .ok i) : i.verb = verb ∧ StandsFor bound i := by
  have hnesting : (if (bound.lookup .nesting).getD "" = Nesting.named.name then Nesting.named
      else .inline) = .named ↔ bound.lookup .nesting = some Nesting.named.name := by
    have hempty : ("" : String) ≠ Nesting.named.name := by decide
    cases bound.lookup .nesting with
    | none => simp [hempty]
    | some value => simp
  rw [Invocation.ofBindings] at h
  dsimp only at h
  split at h
  · cases h
  all_goals
    next hout hproject =>
    obtain rfl := Except.ok.inj h
    refine ⟨rfl, rfl, rfl, rfl, isSome_lookup_eq_false_iff, isSome_lookup_eq_false_iff,
      isSome_lookup_eq_false_iff, rfl, hnesting, ?_, ?_, ?_⟩ <;>
    simp [hout, hproject, eq_comm]

/-- A command line that is read is a verb and parameters that are spelled behind it, each known to
the verb and bound once to a value that it takes, and the invocation is what they stand for. -/
structure IsReadFrom (args : List String) (i : Invocation) (bound : Bindings) : Prop where
  spells : ∃ word rest, args = word :: rest ∧ verb? word = some i.verb ∧
    Spells i.verb.parameters rest bound
  isBound : IsBound bound
  standsFor : StandsFor bound i

/-- An invocation is what the arguments that it is read from stand for. -/
theorem exists_isReadFrom_of_parse {args : List String} {i : Invocation}
    (h : parse args = .ok i) : ∃ bound, IsReadFrom args i bound := by
  cases args with
  | nil => cases h
  | cons s rest =>
    rw [parse] at h
    split at h
    · cases h
    · split at h
      · cases h
      · cases h
      · next w hargument =>
        obtain ⟨rfl, -⟩ := Argument.isWord_of_ofString hargument
        split at h
        · cases h
        · split at h
          · cases h
          · next verb hverb =>
            obtain ⟨bound, hbound, h⟩ := bind_eq_ok_iff.mp h
            obtain ⟨own, hown, hisBound, hspells⟩ := bindingsFrom_ok hbound
            obtain ⟨rfl, hstands⟩ := standsFor_of_ofBindings h
            have hempty : IsBound [] := ⟨.nil, fun b hb => by cases hb⟩
            rw [List.nil_append] at hown
            exact ⟨bound, ⟨w, rest, rfl, hverb, hown ▸ hspells⟩, hisBound hempty, hstands⟩

end Exemplar.Command
