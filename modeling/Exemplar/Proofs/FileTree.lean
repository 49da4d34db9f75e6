import Exemplar.FileTree
import Exemplar.Proofs.Outcome

/-!
# What writing does to a file tree

Making directories changes nothing that is there, and a file that is written stands at one place.
The main statement: after a write the path leads to one location, which holds the content that was
written, and at every other location stands what stood there.
-/

namespace Exemplar

/-! ## Paths -/

namespace Path

/-- The pieces of a path with a slash inside are those before and those behind it. -/
theorem pieces_append_slash (a b : String) :
    pieces (a ++ "/" ++ b) = pieces a ++ pieces b := by
  have hslash : "/".toList = ['/'] := rfl
  rw [pieces, pieces, pieces, String.toList_append, String.toList_append, hslash,
    List.append_assoc, List.singleton_append, Text.split_append_separator, List.filter_append,
    List.map_append]

private theorem pieces_join (directory path : String) :
    pieces (join directory path) = pieces directory ++ pieces path := by
  rw [join]
  split
  · next hslash =>
    rw [endsInSlash, beq_iff_eq, List.getLast?_eq_some_iff] at hslash
    obtain ⟨cs, hcs⟩ := hslash
    have hdirectory : directory = String.ofList cs ++ "/" ++ "" := by
      apply String.toList_injective
      rw [hcs]
      simp
    rw [hdirectory, pieces_append_slash, String.append_empty, pieces_append_slash]
    have hempty : pieces "" = [] := rfl
    rw [hempty, List.append_nil]
  · exact pieces_append_slash directory path

private theorem isAbsolute_join {directory : String} (h : directory ≠ "") (path : String) :
    isAbsolute (join directory path) = isAbsolute directory := by
  obtain ⟨c, cs, hcs⟩ : ∃ c cs, directory.toList = c :: cs := by
    apply List.exists_cons_of_ne_nil
    rwa [Ne, String.toList_eq_nil_iff]
  rw [isAbsolute, isAbsolute, join, hcs]
  split <;> simp [hcs]

end Path

namespace FileTree

variable {t t' t'' : FileTree} {location other : Location} {content : List UInt8}

/-! ## Places -/

private theorem leadsOn_iff :
    t.leadsOn location = true ↔ location <+: t.workingDirectory ∨
      (∃ d ∈ t.directories, location <+: d) ∨ ∃ l ∈ t.files.map Prod.fst, location <+: l := by
  simp only [leadsOn, Bool.or_eq_true, List.any_eq_true, List.isPrefixOf_iff_prefix, or_assoc,
    List.mem_map, exists_exists_and_eq_and]

private theorem place_eq_file_iff :
    t.place location = .file content ↔ t.files.lookup location = some content := by
  rw [place]
  cases t.files.lookup location with
  | some content' => simp
  | none => cases t.leadsOn location <;> simp

private theorem requireDirectory_eq_ok_iff :
    t.requireDirectory location = .ok () ↔ t.place location = .directory := by
  rw [requireDirectory]
  cases t.place location <;> simp

/-! ## Following paths -/

/-- Where a path leads. -/
def locate (t : FileTree) (path : String) : Except FileError Location :=
  t.walk (t.start path) (Path.pieces path)

private theorem walk_append (location : Location) (ps qs : List String) :
    t.walk location (ps ++ qs) = t.walk location ps >>= fun next => t.walk next qs := by
  induction ps generalizing location with
  | nil => rfl
  | cons p ps ih =>
    rw [List.cons_append, walk, walk]
    cases t.requireDirectory location with
    | error e => rfl
    | ok _ =>
      cases step location p with
      | error e => rfl
      | ok next => exact ih next

private theorem walk_of_directories
    (hdirectories : ∀ l, t.place l = .directory → t'.place l = .directory)
    {ps : List String} (h : t.walk location ps = .ok other) : t'.walk location ps = .ok other := by
  induction ps generalizing location with
  | nil => exact h
  | cons p ps ih =>
    rw [walk] at h ⊢
    obtain ⟨_, hrequire, h⟩ := bind_eq_ok_iff.mp h
    obtain ⟨next, hstep, h⟩ := bind_eq_ok_iff.mp h
    have hplace := hdirectories location (requireDirectory_eq_ok_iff.mp hrequire)
    exact bind_eq_ok_iff.mpr ⟨(), requireDirectory_eq_ok_iff.mpr hplace,
      bind_eq_ok_iff.mpr ⟨next, hstep, ih h⟩⟩

private theorem eq_append_of_walk {ps : List String} (hnames : ∀ p ∈ ps, p ≠ "." ∧ p ≠ "..")
    (h : t.walk location ps = .ok other) : other = location ++ ps := by
  induction ps generalizing location with
  | nil => rw [List.append_nil, Except.ok.inj h]
  | cons p ps ih =>
    obtain ⟨hpoint, hpoints⟩ := hnames p List.mem_cons_self
    rw [walk] at h
    obtain ⟨-, -, h⟩ := bind_eq_ok_iff.mp h
    obtain ⟨next, hstep, h⟩ := bind_eq_ok_iff.mp h
    rw [step, if_neg hpoint, if_neg hpoints] at hstep
    split at hstep
    · cases hstep
    · obtain rfl := Except.ok.inj hstep
      rw [ih (fun q hq => hnames q (List.mem_cons_of_mem p hq)) h, List.append_assoc,
        List.singleton_append]

/-- A path that is joined to a directory leads, if its pieces are names, to these names in the
directory. -/
theorem locate_join {directory path : String} (hne : directory ≠ "")
    (hnames : ∀ p ∈ Path.pieces path, p ≠ "." ∧ p ≠ "..")
    (h : t.locate (Path.join directory path) = .ok location) :
    ∃ d, t.locate directory = .ok d ∧ location = d ++ Path.pieces path := by
  rw [locate, start, Path.isAbsolute_join hne, Path.pieces_join, walk_append] at h
  obtain ⟨d, hd, h⟩ := bind_eq_ok_iff.mp h
  exact ⟨d, hd, eq_append_of_walk hnames h⟩

/-! ## Making directories -/

/-- Whether a tree is another one with more directories at most. -/
structure Furnishes (t t' : FileTree) : Prop where
  files_eq : t'.files = t.files
  workingDirectory_eq : t'.workingDirectory = t.workingDirectory
  place : ∀ l, t'.place l = t.place l ∨ (t.place l = .nothing ∧ t'.place l = .directory)

private theorem place_trans {l : Location}
    (h : t'.place l = t.place l ∨ (t.place l = .nothing ∧ t'.place l = .directory))
    (h' : t''.place l = t'.place l ∨ (t'.place l = .nothing ∧ t''.place l = .directory)) :
    t''.place l = t.place l ∨ (t.place l = .nothing ∧ t''.place l = .directory) := by
  rcases h' with hsame | ⟨hnothing, hdirectory⟩
  · rw [hsame]
    exact h
  · rcases h with hsame | ⟨-, hdirectory'⟩
    · exact .inr ⟨hsame.symm.trans hnothing, hdirectory⟩
    · rw [hdirectory'] at hnothing
      cases hnothing

namespace Furnishes

/-- A tree has no more directories than itself. -/
theorem refl (t : FileTree) : Furnishes t t :=
  ⟨rfl, rfl, fun _ => .inl rfl⟩

/-- More directories may be made in two steps. -/
theorem trans (h : Furnishes t t') (h' : Furnishes t' t'') : Furnishes t t'' where
  files_eq := h'.files_eq.trans h.files_eq
  workingDirectory_eq := h'.workingDirectory_eq.trans h.workingDirectory_eq
  place := fun l => place_trans (h.place l) (h'.place l)

end Furnishes

private theorem furnishes_addDirectory (t : FileTree) (location : Location) :
    Furnishes t (t.addDirectory location) where
  files_eq := rfl
  workingDirectory_eq := rfl
  place := by
    intro l
    have hleads : t.leadsOn l = true → (t.addDirectory location).leadsOn l = true := by
      rw [leadsOn_iff, leadsOn_iff]
      rintro (h | ⟨d, hd, h⟩ | h)
      · exact .inl h
      · exact .inr (.inl ⟨d, List.mem_append_left _ hd, h⟩)
      · exact .inr (.inr h)
    have hfiles : (t.addDirectory location).files = t.files := rfl
    rw [FileTree.place, FileTree.place, hfiles]
    cases t.files.lookup l with
    | some c => exact .inl rfl
    | none =>
      cases hl : t.leadsOn l with
      | true =>
        rw [hleads hl]
        exact .inl rfl
      | false => cases (t.addDirectory location).leadsOn l <;> simp

private theorem furnishes_makeFrom (t : FileTree) (location : Location) (made : Bool)
    (pieces : List String) : Furnishes t (t.makeFrom location made pieces).1 := by
  fun_induction makeFrom t location made pieces with
  | case1 t => exact .refl t
  | case2 t => exact .refl t
  | case3 t location made piece pieces next hstep hplace ih => exact ih
  | case4 t location made piece pieces next hstep hplace ih =>
    exact (furnishes_addDirectory t next).trans ih
  | case5 t => exact .refl t

/-- Making directories changes nothing that is there. -/
theorem furnishes_makeDirectories (t : FileTree) (path : String) :
    Furnishes t (t.makeDirectories path).1 := by
  rw [makeDirectories]
  split
  · exact .refl t
  · exact furnishes_makeFrom t _ false _

/-! ## Writing -/

private theorem isSome_lookup_iff {files : List (Location × List UInt8)} {l : Location} :
    (files.lookup l).isSome ↔ l ∈ files.map Prod.fst := by
  rw [← not_iff_not, Bool.not_eq_true, Option.isSome_eq_false_iff, Option.isNone_iff_eq_none,
    List.lookup_eq_none_iff, List.mem_map]
  simp only [bne_iff_ne, not_exists, not_and]
  exact forall₂_congr fun f _ => ne_comm

private theorem lookup_replace (location : Location) (content : List UInt8)
    (files : List (Location × List UInt8)) (l : Location) :
    (files.map fun f => if f.1 = location then (location, content) else f).lookup l =
      (files.lookup l).map fun c => if l = location then content else c := by
  induction files with
  | nil => rfl
  | cons f files ih =>
    obtain ⟨k, c⟩ := f
    by_cases hl : l = k
    · subst hl
      rw [List.map_cons, List.lookup_cons_self, Option.map_some]
      by_cases hk : l = location
      · rw [if_pos hk, if_pos hk, hk, List.lookup_cons_self]
      · rw [if_neg hk, if_neg hk, List.lookup_cons_self]
    · have hne : (l == k) = false := beq_eq_false_iff_ne.mpr hl
      have hkey : (l == (if k = location then (location, content) else (k, c)).1) = false := by
        split
        · next hk => rwa [← hk]
        · exact hne
      rw [List.map_cons, List.lookup_cons, List.lookup_cons]
      dsimp only at hkey ⊢
      rw [hkey, hne]
      exact ih

private theorem any_location_iff {files : List (Location × List UInt8)} :
    files.any (·.1 == location) = true ↔ location ∈ files.map Prod.fst := by
  simp only [List.any_eq_true, beq_iff_eq, List.mem_map]

/-- A file that is put at a location is found there, and all others as before. -/
theorem lookup_put (t : FileTree) (location : Location) (content : List UInt8) (l : Location) :
    (t.put location content).files.lookup l =
      if l = location then some content else t.files.lookup l := by
  rw [put]
  dsimp only
  by_cases hany : t.files.any (·.1 == location) = true
  · rw [if_pos hany, lookup_replace]
    split
    · next hl =>
      have hfound := isSome_lookup_iff.mpr (any_location_iff.mp hany)
      obtain ⟨c, hc⟩ := Option.isSome_iff_exists.mp hfound
      rw [hl, hc]
      rfl
    · exact Option.map_id'
  · rw [if_neg hany, List.lookup_append]
    split
    · next hl =>
      have hnone : t.files.lookup l = none := by
        rw [any_location_iff, ← isSome_lookup_iff, Bool.not_eq_true, Option.isSome_eq_false_iff,
          Option.isNone_iff_eq_none] at hany
        rwa [hl]
      rw [hnone, hl, List.lookup_cons_self]
      rfl
    · next hl =>
      have hne : (l == location) = false := beq_eq_false_iff_ne.mpr hl
      rw [List.lookup_cons, hne]
      exact Option.or_none

/-- The locations of files after one was put somewhere are those before, and its own. -/
theorem mem_keys_put {l : Location} :
    l ∈ (t.put location content).files.map Prod.fst ↔
      l ∈ t.files.map Prod.fst ∨ l = location := by
  rw [← isSome_lookup_iff, ← isSome_lookup_iff, lookup_put]
  split
  · next hl => simp [hl]
  · next hl => simp [hl]

private theorem leadsOn_put {l : Location} :
    (t.put location content).leadsOn l = true ↔ t.leadsOn l = true ∨ l <+: location := by
  simp only [leadsOn_iff, mem_keys_put]
  constructor
  · rintro (h | h | ⟨k, hk | rfl, h⟩)
    · exact .inl (.inl h)
    · exact .inl (.inr (.inl h))
    · exact .inl (.inr (.inr ⟨k, hk, h⟩))
    · exact .inr h
  · rintro ((h | h | ⟨k, hk, h⟩) | h)
    · exact .inl h
    · exact .inr (.inl h)
    · exact .inr (.inr ⟨k, .inl hk, h⟩)
    · exact .inr (.inr ⟨location, .inr rfl, h⟩)

/-- A file stands where it was put. -/
theorem place_put_self (t : FileTree) (location : Location) (content : List UInt8) :
    (t.put location content).place location = .file content := by
  rw [place_eq_file_iff, lookup_put, if_pos rfl]

/-- Where a file is put in a directory, the other places stay as they are. -/
theorem place_put_of_ne {name : String} (hdirectory : t.place location = .directory)
    (hne : other ≠ location ++ [name]) :
    (t.put (location ++ [name]) content).place other = t.place other := by
  have hleads : t.leadsOn location = true := by
    rw [place] at hdirectory
    split at hdirectory
    · cases hdirectory
    · split at hdirectory
      · assumption
      · cases hdirectory
  have hsame : (t.put (location ++ [name]) content).leadsOn other = t.leadsOn other := by
    rw [Bool.eq_iff_iff, leadsOn_put, or_iff_left_iff_imp, List.prefix_concat_iff]
    rintro (rfl | hprefix)
    · exact absurd rfl hne
    · rw [leadsOn_iff] at hleads ⊢
      exact hleads.imp hprefix.trans
        (.imp (.imp fun d => .imp_right hprefix.trans) (.imp fun l => .imp_right hprefix.trans))
  rw [place, place, lookup_put, if_neg hne, hsame]

/-- Whether the content of the file at a path was written and nothing else was: the path leads to
one location, the content stands there and is what is read at the path, and at every other location
stands what stood there, or a directory that was made where nothing stood. -/
structure WritesAt (t t' : FileTree) (path : String) (location : Location)
    (content : List UInt8) : Prop where
  locate : t'.locate path = .ok location
  place : t'.place location = .file content
  read : t'.read path = .ok content
  others : ∀ l, l ≠ location →
    t'.place l = t.place l ∨ (t.place l = .nothing ∧ t'.place l = .directory)

/-- Directories that are made before a write are no files. -/
theorem WritesAt.of_furnishes {path : String} (h : Furnishes t t')
    (hwrites : WritesAt t' t'' path location content) : WritesAt t t'' path location content where
  locate := hwrites.locate
  place := hwrites.place
  read := hwrites.read
  others := fun l hl => place_trans (h.place l) (hwrites.others l hl)

private theorem fileLocation_ok {directory : Location} {path name : String}
    (h : t.fileLocation directory path name = .ok location) :
    t.place directory = .directory ∧ Path.endsInSlash path = false ∧
      step directory name = .ok location ∧ location = directory ++ [name] ∧
      t.place location ≠ .directory := by
  obtain ⟨_, hrequire, h⟩ := bind_eq_ok_iff.mp h
  split at h
  · cases h
  · next hname =>
    obtain ⟨next, hstep, h⟩ := bind_eq_ok_iff.mp h
    split at h
    · cases h
    · next hplace =>
      obtain rfl := Except.ok.inj h
      simp only [not_or, Bool.not_eq_true] at hname
      refine ⟨requireDirectory_eq_ok_iff.mp hrequire, hname.2.2, hstep, ?_, hplace⟩
      rw [step, if_neg hname.1, if_neg hname.2.1] at hstep
      split at hstep
      · cases hstep
      · exact (Except.ok.inj hstep).symm

/-- A write puts the content at one place. -/
theorem exists_writesAt_of_write {path : String} (h : t.write path content = .ok t') :
    ∃ location, WritesAt t t' path location content := by
  obtain ⟨_, hcheck, h⟩ := bind_eq_ok_iff.mp h
  split at h
  · cases h
  · next name hname =>
    obtain ⟨directory, hwalk, h⟩ := bind_eq_ok_iff.mp h
    obtain ⟨location, hlocation, h⟩ := bind_eq_ok_iff.mp h
    obtain rfl := Except.ok.inj h
    obtain ⟨hdirectory, hslash, hstep, rfl, hfree⟩ := fileLocation_ok hlocation
    have hothers : ∀ l, l ≠ directory ++ [name] →
        (t.put (directory ++ [name]) content).place l = t.place l := fun l hl =>
      place_put_of_ne hdirectory hl
    have hself := place_put_self t (directory ++ [name]) content
    have hpieces : Path.pieces path = (Path.pieces path).dropLast ++ [name] :=
      (List.dropLast_append_getLast? name hname).symm
    have hleads : t.locate path = .ok (directory ++ [name]) := by
      rw [FileTree.locate, hpieces, walk_append]
      refine bind_eq_ok_iff.mpr ⟨directory, hwalk, ?_⟩
      exact bind_eq_ok_iff.mpr ⟨(), requireDirectory_eq_ok_iff.mpr hdirectory,
        bind_eq_ok_iff.mpr ⟨_, hstep, rfl⟩⟩
    have hlocate : (t.put (directory ++ [name]) content).locate path =
        .ok (directory ++ [name]) := by
      refine walk_of_directories (fun l hl => ?_) hleads
      rw [hothers l (fun hl' => hfree (hl' ▸ hl)), hl]
    refine ⟨directory ++ [name], hlocate, hself, ?_, fun l hl => .inl (hothers l hl)⟩
    refine bind_eq_ok_iff.mpr ⟨(), hcheck, bind_eq_ok_iff.mpr ⟨_, hlocate, ?_⟩⟩
    rw [hself, hslash]
    rfl

end FileTree

end Exemplar
