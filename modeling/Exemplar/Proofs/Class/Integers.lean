import Exemplar.Proofs.Class.Rejection
import Exemplar.Proofs.Class.Syntax
import Exemplar.Proofs.Json.NumberText
import Exemplar.Proofs.Json.Quoting
import Exemplar.Proofs.Text.Digits

/-!
# Plain integers in Java

The integers without a suffix, a fraction or an exponent in the values that a file of Java classes
gives to its members: as initial values, and as arguments of setters.  The main statement: they are
the integers that are written for values of no definite kind, and nothing else.
-/

namespace Exemplar.Class

/-! ## Reading integers off a text -/

/-- The integer that a word spells: an optional sign and decimal digits, nothing else. -/
def plainInteger? (word : List Char) : Option Int :=
  let (negative, digits) := Text.splitSign word
  if digits ≠ [] ∧ digits.all Text.isDigit then
    some (if negative then -(Text.digitsValue digits : Int) else Text.digitsValue digits)
  else none

/-- Whether a character ends a word: a blank, a comma or a brace. -/
def isSeparator (c : Char) : Bool :=
  c == ' ' || c == ',' || c == '\x7b' || c == '\x7d'

/-- Where a reader stands in a text: behind what it has of a word, in a string, or behind a
backslash in a string. -/
inductive ReaderState
  | word (read : List Char)
  | quoted
  | escaped

/-- The integer that the word before a reader spells, if there is a word and it spells one. -/
def ReaderState.integers : ReaderState → List Int
  | word read => (plainInteger? read).toList
  | quoted | escaped => []

/-- The plain integers of a text from a state on. -/
def integersFrom : ReaderState → List Char → List Int
  | s, [] => s.integers
  | .word read, c :: cs =>
    if c = '"' then (plainInteger? read).toList ++ integersFrom .quoted cs
    else if isSeparator c then (plainInteger? read).toList ++ integersFrom (.word []) cs
    else integersFrom (.word (read ++ [c])) cs
  | .quoted, c :: cs =>
    integersFrom (if c = '\\' then .escaped else if c = '"' then .word [] else .quoted) cs
  | .escaped, _ :: cs => integersFrom .quoted cs

/-- The plain integers of a text: the words outside of its strings that are an integer. -/
def plainIntegers (text : String) : List Int :=
  integersFrom (.word []) text.toList

/-- Whether a reader gets from one state to another by a text, with the given integers. -/
def Reads (s : ReaderState) (xs : List Char) (s' : ReaderState) (ns : List Int) : Prop :=
  ∀ ys, integersFrom s (xs ++ ys) = ns ++ integersFrom s' ys

namespace Reads

variable {s s' s'' : ReaderState} {xs ys read : List Char} {ns ms : List Int}

private theorem nil : Reads s [] s [] :=
  fun _ => rfl

private theorem append (hx : Reads s xs s' ns) (hy : Reads s' ys s'' ms) :
    Reads s (xs ++ ys) s'' (ns ++ ms) := by
  intro zs
  rw [List.append_assoc, hx, hy, List.append_assoc]

private theorem wordChars (h : ∀ c ∈ xs, c ≠ '"' ∧ isSeparator c = false) :
    Reads (.word read) xs (.word (read ++ xs)) [] := by
  induction xs generalizing read with
  | nil =>
    rw [List.append_nil]
    exact nil
  | cons c xs ih =>
    obtain ⟨hquote, hseparator⟩ := h c List.mem_cons_self
    intro ys
    rw [List.cons_append, integersFrom, if_neg hquote, if_neg (by rw [hseparator]; decide),
      ih fun d hd => h d (List.mem_cons_of_mem c hd), List.append_assoc]
    rfl

private theorem separator {c : Char} (h : isSeparator c = true) :
    Reads (.word read) [c] (.word []) (plainInteger? read).toList := by
  intro ys
  have hquote : c ≠ '"' := by
    rintro rfl
    cases h
  rw [List.singleton_append, integersFrom, if_neg hquote, if_pos h]

private theorem quoted (h : Reads .quoted xs .quoted []) :
    Reads (.word []) ('"' :: (xs ++ ['"'])) (.word []) [] := by
  intro ys
  have hclose : integersFrom .quoted ('"' :: ys) = integersFrom (.word []) ys := rfl
  rw [List.cons_append, integersFrom, if_pos rfl, List.append_assoc, h, List.singleton_append,
    hclose]
  rfl

end Reads

private theorem reads_escape (d : Char) : Reads .quoted ['\\', d] .quoted [] :=
  fun _ => rfl

private theorem reads_stringChars {xs : List Char} (h : ∀ c ∈ xs, c ≠ '\\' ∧ c ≠ '"') :
    Reads .quoted xs .quoted [] := by
  induction xs with
  | nil => exact .nil
  | cons c xs ih =>
    obtain ⟨hescape, hquote⟩ := h c List.mem_cons_self
    intro ys
    rw [List.cons_append, integersFrom, if_neg hescape, if_neg hquote]
    exact ih (fun d hd => h d (List.mem_cons_of_mem c hd)) ys

private theorem reads_escapeChar (c : Char) : Reads .quoted (Json.escapeChar c) .quoted [] := by
  rcases Json.escapeChar_cases c with ⟨d, -, heq⟩ | heq | ⟨hbackslash, hquote, -, heq⟩ <;> rw [heq]
  · exact reads_escape d
  · exact (reads_escape 'u').append (reads_stringChars fun d hd => (Text.plain_of_mem_hex4 hd).2)
  · exact reads_stringChars fun d hd => List.mem_singleton.mp hd ▸ ⟨hbackslash, hquote⟩

private theorem reads_quote (t : String) : Reads (.word []) (Json.quote t) (.word []) [] := by
  refine Reads.quoted ?_
  induction t.toList with
  | nil => exact .nil
  | cons c cs ih =>
    rw [List.flatMap_cons]
    exact (reads_escapeChar c).append ih

/-! ## Texts of values -/

/-- Whether a text, taken as a whole, has the given plain integers wherever it stands before a
separator: the last of them may be a word that is still open. -/
def Holds (xs : List Char) (ns : List Int) : Prop :=
  ∃ before read, Reads (.word []) xs (.word read) before ∧
    ns = before ++ (plainInteger? read).toList

namespace Holds

variable {xs ys : List Char} {ns ms : List Int}

private theorem plainIntegers_eq {text : String} (h : Holds text.toList ns) :
    plainIntegers text = ns := by
  obtain ⟨before, read, hreads, rfl⟩ := h
  have hall := hreads []
  rw [List.append_nil] at hall
  rw [plainIntegers, hall]
  rfl

private theorem word (h : ∀ c ∈ xs, c ≠ '"' ∧ isSeparator c = false) :
    Holds xs (plainInteger? xs).toList :=
  ⟨[], xs, Reads.wordChars h, rfl⟩

private theorem closed (h : Reads (.word []) xs (.word []) ns) : Holds xs ns :=
  ⟨ns, [], h, (List.append_nil ns).symm⟩

private theorem reads_append (h : Holds xs ns) {c : Char} (hc : isSeparator c = true) :
    Reads (.word []) (xs ++ [c]) (.word []) ns := by
  obtain ⟨before, read, hreads, rfl⟩ := h
  exact hreads.append (.separator hc)

private theorem after (hx : Reads (.word []) xs (.word []) ns) (hy : Holds ys ms) :
    Holds (xs ++ ys) (ns ++ ms) := by
  obtain ⟨before, read, hreads, rfl⟩ := hy
  exact ⟨ns ++ before, read, hx.append hreads, (List.append_assoc _ _ _).symm⟩

end Holds

private theorem reads_separator {c : Char} (hc : isSeparator c = true) :
    Reads (.word []) [c] (.word []) [] :=
  .separator hc

private theorem holds_intercalate {items : List String} {integers : List (List Int)}
    (h : List.Forall₂ (fun item ns => Holds item.toList ns) items integers) :
    Holds (", ".toList.intercalate (items.map String.toList)) integers.flatten := by
  have hgap {xs : List Char} {ns : List Int} (hx : Holds xs ns) :
      Reads (.word []) (xs ++ ", ".toList) (.word []) ns := by
    have hread := (hx.reads_append (c := ',') rfl).append (reads_separator (c := ' ') rfl)
    rwa [List.append_assoc, List.append_nil] at hread
  induction h with
  | nil => exact .closed .nil
  | cons hx hrest ih =>
    cases hrest with
    | nil => simpa using hx
    | cons hy hrest =>
      rw [List.map_cons, List.map_cons, List.intercalate_cons_cons, List.flatten_cons]
      exact .after (hgap hx) ih

private theorem holds_arrayLiteral (package : String) {items : List String}
    {integers : List (List Int)}
    (h : List.Forall₂ (fun item ns => Holds item.toList ns) items integers) :
    Holds ((Dialect.java package).arrayLiteral items).toList integers.flatten := by
  have hopen := Holds.after (reads_separator (c := '\x7b') rfl) (holds_intercalate h)
  rw [Dialect.arrayLiteral, String.toList_append, String.toList_append,
    String.toList_intercalate]
  exact .closed (hopen.reads_append (c := '\x7d') rfl)

/-! ## Texts of numbers -/

private theorem wordChar_of_isNumeralChar {c : Char} (h : isNumeralChar c) :
    c ≠ '"' ∧ isSeparator c = false := by
  refine ⟨?_, eq_false_of_ne_true fun hseparator => ?_⟩
  · rintro rfl
    cases h
  · simp only [isSeparator, Bool.or_eq_true, beq_iff_eq] at hseparator
    rcases hseparator with ((rfl | rfl) | rfl) | rfl <;> cases h

private theorem plainInteger?_intDecimal (n : Int) :
    plainInteger? (Text.intDecimal n) = some n := by
  rw [plainInteger?, Text.splitSign_intDecimal]
  dsimp only
  rw [if_pos (Text.decimal_spells _), Text.signed_digitsValue_decimal]

private theorem plainInteger?_eq_none {word : List Char} {c : Char} (h : c ∈ word)
    (hc : (Text.isDigit c || c == '-' || c == '+') = false) : plainInteger? word = none := by
  simp only [Bool.or_eq_false_iff, beq_eq_false_iff_ne] at hc
  obtain ⟨⟨hdigit, hminus⟩, hplus⟩ := hc
  have hmem : c ∈ (Text.splitSign word).2 := by
    unfold Text.splitSign
    split
    · exact (List.mem_cons.mp h).resolve_left hminus
    · exact (List.mem_cons.mp h).resolve_left hplus
    · exact h
  refine if_neg ?_
  rintro ⟨-, hall⟩
  have hdigit' := List.all_eq_true.mp hall c hmem
  rw [hdigit] at hdigit'
  cases hdigit'

/-! ## Literals -/

/-- The plain integer of the literal for a value of a kind: only an integer of no definite kind is
written without a suffix. -/
def untypedInteger : ScalarKind → Json.Value → List Int
  | .any, .number (.integer n _) => [n]
  | _, _ => []

private theorem holds_word {word : List Char} (h : ∀ c ∈ word, c ≠ '"' ∧ isSeparator c = false)
    {c : Char} (hmem : c ∈ word) (hc : (Text.isDigit c || c == '-' || c == '+') = false) :
    Holds word [] := by
  have hword := Holds.word h
  rwa [plainInteger?_eq_none hmem hc] at hword

private theorem holds_word_of_all {word : List Char}
    (h : word.all (fun c => c != '"' && !isSeparator c) = true)
    (hc : word.any (fun c => !(Text.isDigit c || c == '-' || c == '+')) = true) :
    Holds word [] := by
  obtain ⟨c, hmem, hc⟩ := List.any_eq_true.mp hc
  refine holds_word (fun d hd => ?_) hmem (Bool.not_eq_true' _ ▸ hc)
  have hd := List.all_eq_true.mp h d hd
  rwa [Bool.and_eq_true, bne_iff_ne, Bool.not_eq_true'] at hd

private theorem holds_render (style : NumberStyle) (x : Binary64) : Holds (style.render x) [] := by
  have hchars : ∀ c ∈ style.render x, c ≠ '"' ∧ isSeparator c = false :=
    fun c hc => wordChar_of_isNumeralChar (NumberStyle.isNumeralChar_of_mem_render hc)
  rcases style.exists_mark_of_render x with h | h
  · exact holds_word hchars h rfl
  · exact holds_word hchars h rfl

private theorem holds_floatLiteral (n : Json.Number) : Holds (floatLiteral n).toList [] := by
  have hchars : ∀ c ∈ n.render, c ≠ '"' ∧ isSeparator c = false :=
    fun c hc => wordChar_of_isNumeralChar (Json.Number.isNumeralChar_of_mem_render hc)
  unfold floatLiteral
  extract_lets text
  split
  · next hmark =>
    obtain ⟨c, hc, hmark⟩ := List.any_eq_true.mp hmark
    rw [String.toList_ofList]
    simp only [Bool.or_eq_true, beq_iff_eq] at hmark
    rcases hmark with (rfl | rfl) | rfl <;> exact holds_word hchars hc rfl
  · rw [String.toList_ofList]
    refine holds_word (c := '.') (fun c hc => ?_) (List.mem_append_right _ List.mem_cons_self) rfl
    rcases List.mem_append.mp hc with hc | hc
    · exact hchars c hc
    · rcases List.mem_pair.mp hc with rfl | rfl <;> decide

private theorem holds_intLiteral (package : String) (n : Int) :
    Holds ((Dialect.java package).intLiteral n).toList [] := by
  rw [Dialect.intLiteral, String.toList_append, String.toList_ofList]
  refine holds_word (c := 'L') (fun c hc => ?_) (List.mem_append_right _ List.mem_cons_self) rfl
  rcases List.mem_append.mp hc with hc | hc
  · exact wordChar_of_isNumeralChar (Text.isNumeralChar_of_mem_intDecimal hc)
  · obtain rfl := List.mem_singleton.mp hc
    decide

private theorem holds_extendedLiteral (package : String) (x : Extended) :
    Holds (extendedLiteral (.java package) x).toList [] := by
  cases x with
  | finite x =>
    rw [extendedLiteral, String.toList_ofList]
    exact holds_render quotedFloatStyle x
  | infinite negative =>
    have hpositive : Holds "Double.POSITIVE_INFINITY".toList [] :=
      holds_word_of_all (by decide) (by decide)
    have hnegative : Holds "Double.NEGATIVE_INFINITY".toList [] :=
      holds_word_of_all (by decide) (by decide)
    cases negative
    · exact hpositive
    · exact hnegative
  | nan =>
    have hnan : Holds "Double.NaN".toList [] :=
      holds_word_of_all (by decide) (by decide)
    exact hnan

private theorem holds_boolLiteral (b : Bool) : Holds (boolLiteral b).toList [] := by
  cases b <;> exact holds_word_of_all (by decide) (by decide)

private theorem holds_null : Holds "null".toList [] :=
  holds_word_of_all (by decide) (by decide)

private theorem holds_string (t : String) : Holds (String.ofList (Json.quote t)).toList [] := by
  rw [String.toList_ofList]
  exact .closed (reads_quote t)

private theorem holds_literal {package : String} {quoted : Bool} {kind : ScalarKind}
    {v : Json.Value} {text : String} (h : literal? (.java package) quoted kind v = some text) :
    Holds text.toList (untypedInteger kind v) := by
  match kind, v with
  | .int64, .number n =>
    obtain ⟨i, -, rfl⟩ := Option.map_eq_some_iff.mp h
    exact holds_intLiteral package i
  | .int64, .string s =>
    obtain ⟨i, rfl⟩ := exists_of_quoted h
    exact holds_intLiteral package i
  | .float64, .number n =>
    obtain rfl := Option.some.inj h
    exact holds_floatLiteral n
  | .float64, .string s =>
    obtain ⟨x, rfl⟩ := exists_of_quoted h
    exact holds_extendedLiteral package x
  | .bool, .bool b | .any, .bool b =>
    obtain rfl := Option.some.inj h
    exact holds_boolLiteral b
  | .bool, .string s =>
    obtain ⟨b, rfl⟩ := exists_of_quoted h
    exact holds_boolLiteral b
  | .string, .null | .timestamp, .null | .ipAddress, .null | .any, .null =>
    obtain rfl := Option.some.inj h
    exact holds_null
  | .string, .string s | .timestamp, .string s | .ipAddress, .string s | .any, .string s =>
    obtain rfl := Option.some.inj h
    exact holds_string s
  | .any, .number (.integer n range) =>
    obtain rfl := Option.some.inj h
    have hword := Holds.word fun c hc =>
      wordChar_of_isNumeralChar (Text.isNumeralChar_of_mem_intDecimal (n := n) hc)
    rw [plainInteger?_intDecimal] at hword
    rwa [String.toList_ofList]
  | .any, .number (.double x) =>
    obtain rfl := Option.some.inj h
    rw [String.toList_ofList]
    exact holds_render Json.numberStyle x
  | .int64, .null | .int64, .bool _ | .int64, .array _ | .int64, .object _
  | .float64, .null | .float64, .bool _ | .float64, .array _ | .float64, .object _
  | .bool, .null | .bool, .number _ | .bool, .array _ | .bool, .object _
  | .string, .bool _ | .string, .number _ | .string, .array _ | .string, .object _
  | .timestamp, .bool _ | .timestamp, .number _ | .timestamp, .array _ | .timestamp, .object _
  | .ipAddress, .bool _ | .ipAddress, .number _ | .ipAddress, .array _ | .ipAddress, .object _
  | .any, .array _ | .any, .object _ => cases h

/-! ## Files -/

/-- The value that a statement gives to a member, if it gives one. -/
def Statement.value? : Statement → Option String
  | set _ value => some value
  | placeholder => none

/-- The values that a member of a Java class is given: its initial value where that is a literal,
and in the objects of its generator the arguments of the setters. -/
def Initial.values : Initial → List String
  | literal text => [text]
  | object _ => []
  | generated _ blocks => blocks.flatMap fun b => b.statements.filterMap Statement.value?

/-- The plain integers in the values of a file. -/
def FileSyntax.plainIntegers (file : FileSyntax) : List Int :=
  file.classes.flatMap fun c => c.members.flatMap fun m =>
    m.initial.values.flatMap Class.plainIntegers

/-- The plain integer for a member of an item under the key of a field. -/
def memberIntegers (members : List (String × Json.Value)) (f : Field) : List Int :=
  match members.lookup f.key, f.node with
  | some v, .scalar kind => untypedInteger kind v
  | _, _ => []

/-- The plain integers for an item of an array of objects. -/
def itemIntegers (fields : List Field) : Json.Value → List Int
  | .object members => fields.flatMap (memberIntegers members)
  | _ => []

/-- The integers of no definite kind in the value of a field. -/
def untypedIntegers (f : Field) : List Int :=
  match f.node with
  | .scalar kind => untypedInteger kind (f.example?.getD .null)
  | .array (.scalar kind) => (rawItems f).flatMap (untypedInteger kind)
  | .array (.object (some _) fields) => (rawItems f).flatMap (itemIntegers fields)
  | _ => []

variable {package : String}

private theorem untypedInteger_of_isNull (kind : ScalarKind) {v : Json.Value}
    (h : v.isNull = true) :
    untypedInteger kind v = [] := by
  cases v with
  | null => cases kind <;> rfl
  | bool _ | number _ | string _ | array _ | object _ => cases h

private theorem holds_of_literal {kind : ScalarKind} {v : Json.Value} {key text : String}
    {quoted : Bool} (h : literal (.java package) kind v key quoted = .ok text) :
    Holds text.toList (untypedInteger kind v) :=
  holds_literal (literal_eq_ok_iff.mp h)

private theorem integers_memberStatements {members : List (String × Json.Value)} {f : Field}
    {statements : List Statement}
    (h : memberStatements (.java package) members f = .ok statements) :
    (statements.filterMap Statement.value?).flatMap plainIntegers = memberIntegers members f := by
  unfold memberStatements at h
  unfold memberIntegers
  cases hv : members.lookup f.key with
  | none =>
    rw [hv] at h
    obtain rfl := Except.ok.inj h
    rfl
  | some v =>
    rw [hv] at h
    cases hnode : f.node with
    | scalar kind =>
      simp only [hnode] at h ⊢
      split at h
      · next hnull =>
        obtain rfl := Except.ok.inj h
        exact (untypedInteger_of_isNull kind hnull.1).symm
      · obtain ⟨text, htext, rfl⟩ := map_eq_ok_iff.mp h
        exact (List.append_nil _).trans (holds_of_literal htext).plainIntegers_eq
    | array element | object name? fields =>
      rw [hnode] at h
      obtain rfl := Except.ok.inj h
      rfl

private theorem integers_itemBlock {typeName key : String} {fields : List Field} {v : Json.Value}
    {b : Block} (h : itemBlock (.java package) typeName key fields v = .ok b) :
    (b.statements.filterMap Statement.value?).flatMap plainIntegers = itemIntegers fields v := by
  obtain ⟨-, members, statements, rfl, hstatements, hflatten⟩ := itemBlock_ok h
  have hfields := flatMap_of_mapM
    (g := fun l => (l.filterMap Statement.value?).flatMap plainIntegers)
    (fun _ _ => integers_memberStatements) hstatements
  rw [itemIntegers, ← hfields, hflatten, List.filterMap_flatten, ← List.flatMap_def,
    List.flatMap_assoc]

private theorem integers_memberSyntax {f : Field} {m : Member}
    (h : memberSyntax (.java package) f = .ok m) :
    m.initial.values.flatMap plainIntegers = untypedIntegers f := by
  obtain ⟨key, node, found?, quoted⟩ := f
  match node with
  | .scalar kind =>
    obtain ⟨value, hvalue, rfl⟩ := map_eq_ok_iff.mp h
    exact (List.append_nil _).trans (holds_of_literal hvalue).plainIntegers_eq
  | .array (.scalar kind) =>
    obtain ⟨values, hvalues, rfl⟩ := map_eq_ok_iff.mp h
    have hitems := (mapM_eq_ok_iff.mp hvalues).imp fun _ _ => holds_of_literal
    have harray := holds_arrayLiteral package
      (List.forall₂_map_right_iff.mpr hitems.flip)
    rw [← List.flatMap_def] at harray
    exact (List.append_nil _).trans harray.plainIntegers_eq
  | .array (.object (some typeName) fields) =>
    obtain ⟨blocks, hblocks, rfl⟩ := map_eq_ok_iff.mp h
    have hitems := flatMap_of_mapM
      (g := fun (b : Block) => (b.statements.filterMap Statement.value?).flatMap plainIntegers)
      (fun _ _ => integers_itemBlock) hblocks
    exact (List.flatMap_assoc ..).trans hitems
  | .object (some typeName) fields =>
    obtain rfl := Except.ok.inj h
    rfl
  | .array (.object none _) | .array (.array _) | .object none _ => cases h

/-- A file has the integers of no definite kind in the values of its model as its plain integers,
and no others. -/
theorem plainIntegers_fileSyntax {model : Model} {rootName : String} {file : FileSyntax}
    (h : fileSyntax (.java package) model rootName = .ok file) :
    file.plainIntegers = model.declared.flatMap untypedIntegers := by
  obtain ⟨root, hroot, -, hfirst, hothers⟩ := fileSyntax_ok h
  have hclass {name : String} {fields : List Field} {c : ClassSyntax}
      (hc : classSyntax (.java package) name fields = .ok c) :
      (c.members.flatMap fun m => m.initial.values.flatMap plainIntegers) =
        fields.flatMap untypedIntegers :=
    flatMap_of_mapM (fun _ _ => integers_memberSyntax) (classSyntax_ok hc).2
  have hnamed := flatMap_of_mapM
    (g := fun (c : ClassSyntax) => c.members.flatMap fun m =>
      m.initial.values.flatMap plainIntegers)
    (fun (o : NamedObject) _ ho => hclass ho) hothers
  rw [declared_of_rootFields hroot, List.flatMap_append, List.flatMap_assoc, ← hnamed,
    ← hclass hfirst]
  rfl

end Exemplar.Class
