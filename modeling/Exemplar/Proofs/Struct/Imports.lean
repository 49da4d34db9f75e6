import Exemplar.Proofs.Struct.References

/-!
# The imports of files of structs

The packages that a file imports against the types that stand on its lines.  The main statement: for
every model that can be declared, the file imports `time` and `net` exactly if the type of a time or
of an address stands on one of its lines, and it has no import block if neither does.  A type that
is the name of an object of the model belongs to no package, whatever that name is.
-/

namespace Exemplar

/-- The kind of the scalars that a node holds directly or in arrays. -/
def Node.scalarKind? : Node → Option ScalarKind
  | .scalar kind => some kind
  | .array element => element.scalarKind?
  | .object _ _ => none
termination_by structural node => node

namespace Struct

/-! ## Types -/

private theorem head?_scalarType (kind : ScalarKind) :
    (scalarType kind).toList.head? ≠ some '[' := by
  cases kind <;> decide

/-- Each kind of scalars has a type of its own. -/
theorem scalarType_injective {kind kind' : ScalarKind}
    (h : (scalarType kind).toList = (scalarType kind').toList) : kind = kind' := by
  cases kind <;> cases kind' <;> first | rfl | exact absurd h (by decide)

private theorem eq_of_eq_slices_append {cs ds : List Char} (hds : ds.head? ≠ some '[') {n : Nat}
    (h : ds = (List.replicate n ['[', ']']).flatten ++ cs) : ds = cs := by
  cases n with
  | zero => exact h
  | succ n => exact absurd (congrArg List.head? h) hds

private theorem scalarKind?_eq_some_iff (node : Node) (kind : ScalarKind) :
    node.scalarKind? = some kind ↔ node.referred? = none ∧
      ∃ n, typeOpening node =
        (List.replicate n ['[', ']']).flatten ++ (scalarType kind).toList := by
  cases node with
  | scalar kind' =>
    rw [typeOpening_scalar, Node.scalarKind?, Option.some.injEq]
    constructor
    · rintro rfl
      exact ⟨rfl, 0, rfl⟩
    · rintro ⟨-, n, hn⟩
      exact scalarType_injective (eq_of_eq_slices_append (head?_scalarType kind') hn)
  | array element =>
    rw [Node.scalarKind?, scalarKind?_eq_some_iff element, Node.referred?, typeOpening_array]
    refine and_congr_right fun _ => ⟨?_, ?_⟩
    · rintro ⟨n, hn⟩
      exact ⟨n + 1, by rw [hn, List.replicate_succ]; rfl⟩
    · rintro ⟨n, hn⟩
      cases n with
      | zero => exact absurd (congrArg List.head? hn).symm (head?_scalarType kind)
      | succ n => exact ⟨n, (List.cons.inj (List.cons.inj hn).2).2⟩
  | object name? fields =>
    refine iff_of_false (fun h => by cases h) ?_
    rintro ⟨hreferred, n, hn⟩
    cases name? with
    | some name => cases hreferred
    | none =>
      rw [typeOpening_block] at hn
      have hstruct := eq_of_eq_slices_append (by decide) hn
      cases kind <;> exact absurd hstruct (by decide)
termination_by structural node

private theorem typeLines?_eq_none_of_scalarKind (depth : Nat) (node : Node) {kind : ScalarKind}
    (h : node.scalarKind? = some kind) : typeLines? depth node = none := by
  match node with
  | .scalar _ => rfl
  | .array element => exact typeLines?_eq_none_of_scalarKind depth element h
  | .object _ _ => cases h
termination_by structural node

/-! ## Lines -/

/-- Whether a line holds a field and has its identifier and its type for code, where that is the
given type behind the brackets of slices, and not the name of an object. -/
def Line.WritesType (type : String) (l : Line) : Prop :=
  ∃ f n, l.field? = some f ∧ f.node.referred? = none ∧
    l.code = (Ident.ofKey f.key).toList ++
      ' ' :: ((List.replicate n ['[', ']']).flatten ++ type.toList)

private theorem not_writesType_of_none {type : String} {l : Line} (h : l.field? = none) :
    ¬ l.WritesType type := by
  rintro ⟨f, n, hf, -⟩
  rw [h] at hf
  cases hf

private theorem not_writesType_brace (type : String) (depth : Nat) (f : Field) :
    ¬ Line.WritesType type { depth, code := ['\x7d'], field? := some f } := by
  rintro ⟨g, n, -, -, hcode⟩
  change ['\x7d'] = _ at hcode
  have hblank : ' ' ∈ ['\x7d'] := by
    rw [hcode]
    exact List.mem_append_right _ List.mem_cons_self
  exact absurd hblank (by decide)

private theorem writesType_iff (kind : ScalarKind) (depth : Nat) (f : Field) :
    Line.WritesType (scalarType kind)
        { depth, code := (Ident.ofKey f.key).toList ++ ' ' :: typeOpening f.node,
          field? := some f } ↔ f.node.scalarKind? = some kind := by
  rw [scalarKind?_eq_some_iff]
  constructor
  · rintro ⟨g, n, ⟨⟩, hreferred, hcode⟩
    exact ⟨hreferred, n, (List.cons.inj (List.append_cancel_left hcode)).2⟩
  · rintro ⟨hreferred, n, hn⟩
    exact ⟨f, n, rfl, hreferred, by rw [hn]⟩

private theorem exists_writesType_linesOfField_iff (kind : ScalarKind) (depth : Nat) (f : Field) :
    (∃ l ∈ linesOfField depth f (typeOpening f.node) (typeLines? (depth + 1) f.node),
        l.WritesType (scalarType kind)) ↔
      f.node.scalarKind? = some kind ∨ ∃ body, typeLines? (depth + 1) f.node = some body ∧
        ∃ l ∈ body, l.WritesType (scalarType kind) := by
  unfold linesOfField
  cases hlines : typeLines? (depth + 1) f.node with
  | none =>
    simp only [List.mem_singleton, exists_eq_left, writesType_iff, reduceCtorEq, false_and,
      exists_false, or_false]
  | some body =>
    have hkind : f.node.scalarKind? ≠ some kind := by
      intro h
      rw [typeLines?_eq_none_of_scalarKind (depth + 1) f.node h] at hlines
      cases hlines
    simp only [hkind, false_or, Option.some.injEq, exists_eq_left']
    constructor
    · rintro ⟨l, hl, hwrites⟩
      simp only [List.mem_cons, List.mem_append, List.not_mem_nil, or_false] at hl
      rcases hl with rfl | hl | rfl
      · exact absurd hwrites (not_writesType_of_none rfl)
      · exact ⟨l, hl, hwrites⟩
      · exact absurd hwrites (not_writesType_brace _ _ f)
    · rintro ⟨l, hl, hwrites⟩
      exact ⟨l, List.mem_cons_of_mem _ (List.mem_append_left _ hl), hwrites⟩

mutual

private theorem mentions_iff (kind : ScalarKind) (depth : Nat) (node : Node) :
    mentions kind node = true ↔ node.scalarKind? = some kind ∨
      ∃ body, typeLines? depth node = some body ∧ ∃ l ∈ body, l.WritesType (scalarType kind) := by
  cases node with
  | scalar kind' => simp [mentions, Node.scalarKind?, typeLines?]
  | array element => exact mentions_iff kind depth element
  | object name? fields =>
    have hfields := fieldsMention_iff kind depth fields
    cases name? with
    | some name => simp [mentions, Node.scalarKind?, typeLines?]
    | none => simpa [mentions, Node.scalarKind?, typeLines?] using hfields
termination_by structural node

private theorem fieldsMention_iff (kind : ScalarKind) (depth : Nat) (fs : List Field) :
    fieldsMention kind fs = true ↔
      ∃ l ∈ linesOfFields depth fs, l.WritesType (scalarType kind) := by
  match fs with
  | [] => simp [fieldsMention, linesOfFields]
  | ⟨key, node, example?, quoted⟩ :: fs =>
    have hfield := exists_writesType_linesOfField_iff kind depth ⟨key, node, example?, quoted⟩
    rw [fieldsMention, linesOfFields, Bool.or_eq_true, mentions_iff kind (depth + 1) node,
      fieldsMention_iff kind depth fs, ← hfield]
    simp only [List.mem_append, or_and_right, exists_or]
termination_by structural fs

end

/-! ## Files -/

private theorem exists_writesType_declarationLines_iff (type : String) (name : String)
    (isArray : Bool) (fields : List Field) :
    (∃ l ∈ declarationLines name isArray fields, l.WritesType type) ↔
      ∃ l ∈ linesOfFields 1 fields, l.WritesType type := by
  constructor
  · rintro ⟨l, hl, hwrites⟩
    simp only [declarationLines, List.mem_cons, List.mem_append, List.not_mem_nil, or_false] at hl
    rcases hl with rfl | hl | rfl
    · exact absurd hwrites (not_writesType_of_none rfl)
    · exact ⟨l, hl, hwrites⟩
    · exact absurd hwrites (not_writesType_of_none rfl)
  · rintro ⟨l, hl, hwrites⟩
    exact ⟨l, List.mem_cons_of_mem _ (List.mem_append_left _ hl), hwrites⟩

private theorem exists_writesType_fileLines_iff (kind : ScalarKind) (root : RootFields)
    (named : List NamedObject) (rootName : String) :
    (∃ l ∈ fileLines root named rootName, l.WritesType (scalarType kind)) ↔
      (fieldsMention kind root.fields ||
        named.any fun o => fieldsMention kind o.fields) = true := by
  have hdeclaration : ∀ name isArray fields,
      (∃ l ∈ declarationLines name isArray fields, l.WritesType (scalarType kind)) ↔
        fieldsMention kind fields = true := by
    intro name isArray fields
    rw [exists_writesType_declarationLines_iff, fieldsMention_iff kind 1]
  rw [Bool.or_eq_true, List.any_eq_true, ← hdeclaration rootName root.isArray]
  simp only [fileLines, List.mem_append, List.mem_flatMap, or_and_right, exists_or]
  refine or_congr .rfl ⟨?_, ?_⟩
  · rintro ⟨l, ⟨o, ho, hl⟩, hwrites⟩
    exact ⟨o, ho, (hdeclaration o.typeName false o.fields).mp ⟨l, hl, hwrites⟩⟩
  · rintro ⟨o, ho, hfields⟩
    obtain ⟨l, hl, hwrites⟩ := (hdeclaration o.typeName false o.fields).mpr hfields
    exact ⟨l, ⟨o, ho, hl⟩, hwrites⟩

/-- The text of the import block of a file, if it has one. -/
def importBlock (is : List String) : List Char :=
  if is = [] then []
  else "import (\n".toList ++ is.flatMap (fun i => "\t\"".toList ++ i.toList ++ "\"\n".toList) ++
    ")\n\n".toList

/-- Whether imports are the packages of the types on lines: that of times and that of addresses,
each exactly if its type is written, that of addresses first and none twice. -/
structure ImportsFor (ls : List Line) (is : List String) : Prop where
  sublist : is.Sublist ["net", "time"]
  time_mem_iff : "time" ∈ is ↔ ∃ l ∈ ls, l.WritesType "time.Time"
  net_mem_iff : "net" ∈ is ↔ ∃ l ∈ ls, l.WritesType "net.IP"
  block_eq_nil_iff : importBlock is = [] ↔
    ∀ l ∈ ls, ¬ l.WritesType "time.Time" ∧ ¬ l.WritesType "net.IP"

private theorem importBlock_eq_nil_iff (is : List String) : importBlock is = [] ↔ is = [] := by
  constructor
  · intro h
    by_contra hne
    rw [importBlock, if_neg hne] at h
    cases h
  · rintro rfl
    rfl

private theorem importsFor_fileLines (root : RootFields) (named : List NamedObject)
    (rootName : String) :
    ImportsFor (fileLines root named rootName) (imports root.fields named) := by
  have htime : (∃ l ∈ fileLines root named rootName, l.WritesType "time.Time") ↔ _ :=
    exists_writesType_fileLines_iff .timestamp root named rootName
  have hnet : (∃ l ∈ fileLines root named rootName, l.WritesType "net.IP") ↔ _ :=
    exists_writesType_fileLines_iff .ipAddress root named rootName
  have hblock : importBlock (imports root.fields named) = [] ↔
      ¬ (∃ l ∈ fileLines root named rootName, l.WritesType "time.Time") ∧
        ¬ ∃ l ∈ fileLines root named rootName, l.WritesType "net.IP" := by
    rw [importBlock_eq_nil_iff, htime, hnet, imports]
    split <;> split <;> simp_all
  refine ⟨?sublist, ?time, ?net, hblock.trans ?block⟩
  case sublist =>
    rw [imports]
    split <;> split <;> decide
  case time =>
    rw [htime, imports]
    split <;> split <;> simp_all
  case net =>
    rw [hnet, imports]
    split <;> split <;> simp_all
  case block =>
    constructor
    · rintro ⟨hno, hno'⟩ l hl
      exact ⟨fun h => hno ⟨l, hl, h⟩, fun h => hno' ⟨l, hl, h⟩⟩
    · intro hall
      exact ⟨fun ⟨l, hl, h⟩ => (hall l hl).1 h, fun ⟨l, hl, h⟩ => (hall l hl).2 h⟩

private theorem unlines_headTexts (package : String) (is : List String) :
    Text.unlines (headTexts (some package) is) =
      "// Code generated by configd. DO NOT EDIT.\n\npackage ".toList ++ package.toList ++
        "\n\n".toList ++ importBlock is := by
  by_cases his : is = []
  · simp [headTexts, importBlock, his, Text.unlines]
  · simp [headTexts, importBlock, his, Text.unlines, List.flatMap_map]

/-- A file with a package clause is made of that, of the block of the imports that its lines need,
and of its lines, whatever its model is.  Laid out, its lines keep their characters. -/
theorem emit_imports {style : Style} {package : String} {model : Model} {rootName out : String}
    (h : emit { style with package? := some package } model rootName = .ok out) :
    ∃ root is text, model.root.rootFields = .ok root ∧
      ImportsFor (fileLines root model.named rootName) is ∧
      source { style with package? := some package } model rootName = .ok (String.ofList text) ∧
      text = "// Code generated by configd. DO NOT EDIT.\n\npackage ".toList ++ package.toList ++
        "\n\n".toList ++ importBlock is ++
        Text.unlines (fileTexts style.withExamples root model.named rootName) ∧
      (inkLines out.toList).map Text.ink = (inkLines text).map Text.ink ∧
      (style.format = false → out = String.ofList text) := by
  obtain ⟨_, hsource', -⟩ := bind_eq_ok_iff.mp h
  obtain ⟨root, hroot, -⟩ := bind_eq_ok_iff.mp hsource'
  have hsource := source_eq_unlines { style with package? := some package } hroot rootName
  rw [unlines_append, unlines_headTexts] at hsource
  refine ⟨root, imports root.fields model.named, _, hroot, importsFor_fileLines root _ rootName,
    hsource, rfl, ink_inkLines_emit hsource h, fun hformat => ?_⟩
  have hemit := @emit_eq_source { style with package? := some package } hformat model rootName
  rw [hemit, hsource] at h
  exact (Except.ok.inj h).symm

/-- A model with addresses in a struct without a name, and with a time in an object that has a name
but no declaration. -/
def undeclaredModel : Model where
  root := .object none [
    ⟨"at", .array (.object (some "Moment") [⟨"time", .scalar .timestamp, none, false⟩]), none,
      false⟩,
    ⟨"ip", .object none [⟨"v4", .array (.scalar .ipAddress), none, false⟩], none, false⟩]
  named := []

/-- The file of a model with a time in an object without a declaration imports the package of
addresses alone. -/
theorem emit_imports_undeclared :
    ∃ out, emit { package? := some "config", format := false } undeclaredModel "Config" =
        .ok (String.ofList out) ∧
      ("// Code generated by configd. DO NOT EDIT.\n\npackage config\n\n".toList ++
        "import (\n\t\"net\"\n)\n\n".toList) <+: out := by
  obtain ⟨out, hemit⟩ : ∃ out,
      emit { package? := some "config", format := false } undeclaredModel "Config" = .ok out := by
    rw [emit, source_eq_unlines _ rfl "Config"]
    exact ⟨_, rfl⟩
  obtain ⟨root, is, text, hroot, his, -, htext, -, hout⟩ :=
    @emit_imports { format := false } "config" undeclaredModel "Config" out hemit
  obtain rfl := Except.ok.inj hroot
  have htime : "time" ∉ is := by
    rw [his.time_mem_iff]
    exact mt (exists_writesType_fileLines_iff .timestamp _ _ _).mp (by decide)
  have hnet : "net" ∈ is := by
    rw [his.net_mem_iff]
    exact (exists_writesType_fileLines_iff .ipAddress _ _ _).mpr (by decide)
  have his' : is = ["net"] := by
    cases his.sublist with
    | cons _ hrest => exact absurd (hrest.subset hnet) (by decide)
    | cons_cons _ hrest =>
      cases hrest with
      | cons _ hrest => rw [List.sublist_nil.mp hrest]
      | cons_cons _ hrest => exact absurd (List.mem_cons_of_mem _ List.mem_cons_self) htime
  have hhead : "// Code generated by configd. DO NOT EDIT.\n\npackage ".toList ++
      "config".toList ++ "\n\n".toList ++ importBlock ["net"] =
        "// Code generated by configd. DO NOT EDIT.\n\npackage config\n\n".toList ++
          "import (\n\t\"net\"\n)\n\n".toList := by
    decide +kernel
  refine ⟨text, hemit.trans (congrArg _ (hout rfl)), ?_⟩
  rw [htext, his', hhead]
  exact List.prefix_append _ _

end Struct

end Exemplar
