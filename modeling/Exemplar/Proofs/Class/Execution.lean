import Exemplar.Proofs.Class.Syntax
import Exemplar.Proofs.Text.Digits

/-!
# Running generators

What the statements of a generator do when they are run: a variable holds an object, setters are
called on it, and it is stored in the array.  The main statement: the statements for blocks, one
for each place of the array, run to their end and fill it, each place with the object of its block.
-/

namespace Exemplar.Class

/-! ## Commands -/

/-- A statement of a generator: the declaration of a variable as a fresh object, what is done to
the object of a variable, or the store of a variable in the array. -/
inductive Command
  | create (typeName var : String)
  | perform (var : String) (statement : Statement)
  | store (var : String) (index : Nat)

/-- The text of a command. -/
def Command.text (d : Dialect) : Command → String
  | create typeName var => d.newObject typeName var
  | perform var statement => statement.text var
  | store var index => d.store var index

/-- The commands of the block for the item at an index. -/
def Block.commands (index : Nat) (b : Block) : List Command :=
  .create b.typeName (itemVar index) ::
    (b.statements.map (.perform (itemVar index)) ++ [.store (itemVar index) index])

/-- The commands of blocks, the first of which is for the item at an index. -/
def commandsFrom : (index : Nat) → List Block → List Command
  | _, [] => []
  | index, b :: bs => b.commands index ++ commandsFrom (index + 1) bs

/-- The texts of the commands of blocks are those of the blocks. -/
theorem map_text_commandsFrom (d : Dialect) (index : Nat) (bs : List Block) :
    (commandsFrom index bs).map (Command.text d) = blockTexts d index bs := by
  induction bs generalizing index with
  | nil => rfl
  | cons b bs ih =>
    rw [commandsFrom, blockTexts, List.map_append, ih, Block.commands, Block.texts, List.map_cons,
      List.map_append, List.map_map]
    rfl

/-! ## Running them -/

/-- An object: its class and the calls of its setters, each with the argument. -/
structure Instance where
  typeName : String
  calls : List (String × String)

/-- The state of a generator: the object of each variable, and for each place of the array the
variable stored there, if there is one. -/
structure Memory where
  objects : List (String × Instance)
  array : List (Option String)

/-- The array that a generator begins with: one of a fixed length whose places are empty, or one
without places. -/
def Dialect.emptyArray : Dialect → (length : Nat) → List (Option String)
  | java _, length => List.replicate length none
  | typescript, _ => []

/-- An array with one more variable in it: at the index, which must be one of its places, or at a
new last place. -/
def Dialect.storeIn : Dialect → (var : String) → (index : Nat) → List (Option String) →
    Option (List (Option String))
  | java _, var, index, array =>
    if index < array.length then some (array.set index (some var)) else none
  | typescript, var, _, array => some (array ++ [some var])

/-- An object on which one more setter was called. -/
def Instance.call (name value : String) (o : Instance) : Instance :=
  { o with calls := o.calls ++ [(name, value)] }

/-- Runs a command.  It fails where a variable is declared twice or used without a declaration, and
where an index is outside of the array. -/
def Command.run (d : Dialect) : Command → Memory → Option Memory
  | create typeName var, m =>
    if (m.objects.lookup var).isSome then none
    else some { m with objects := m.objects ++ [(var, { typeName, calls := [] })] }
  | perform _ .placeholder, m => some m
  | perform var (.set name value), m =>
    if (m.objects.lookup var).isSome then
      some { m with
        objects := m.objects.map fun o => if o.1 = var then (o.1, o.2.call name value) else o }
    else none
  | store var index, m =>
    if (m.objects.lookup var).isSome then
      (d.storeIn var index m.array).map fun array => { m with array }
    else none

/-- Runs commands one after the other. -/
def runAll (d : Dialect) : List Command → Memory → Option Memory
  | [], m => some m
  | c :: cs, m => (c.run d m).bind (runAll d cs)

/-- The objects in the array, place by place. -/
def Memory.contents (m : Memory) : List (Option Instance) :=
  m.array.map fun var? => var?.bind fun var => m.objects.lookup var

/-- The calls that statements make. -/
def calls (statements : List Statement) : List (String × String) :=
  statements.filterMap fun
    | .set name value => some (name, value)
    | .placeholder => none

/-- The object that a block makes. -/
def Block.made (b : Block) : Instance where
  typeName := b.typeName
  calls := calls b.statements

/-! ## One block -/

variable {d : Dialect}

private theorem runAll_append (cs cs' : List Command) (m : Memory) :
    runAll d (cs ++ cs') m = (runAll d cs m).bind (runAll d cs') := by
  induction cs generalizing m with
  | nil => rfl
  | cons c cs ih =>
    rw [List.cons_append, runAll, runAll, Option.bind_assoc]
    exact congrArg _ (funext ih)

private theorem lookup_concat {var : String} {objects : List (String × Instance)}
    (hvar : objects.lookup var = none) (o : Instance) :
    (objects ++ [(var, o)]).lookup var = some o := by
  rw [List.lookup_append, hvar, Option.none_or, List.lookup_cons_self]

private theorem map_concat {var : String} {objects : List (String × Instance)}
    (hvar : objects.lookup var = none) (o : Instance) (f : Instance → Instance) :
    (objects ++ [(var, o)]).map (fun p => if p.1 = var then (p.1, f p.2) else p) =
      objects ++ [(var, f o)] := by
  have hothers : objects.map (fun p => if p.1 = var then (p.1, f p.2) else p) = objects := by
    refine (List.map_congr_left fun p hp => if_neg ?_).trans (List.map_id objects)
    have hne := List.lookup_eq_none_iff.mp hvar p hp
    exact fun h => (bne_iff_ne.mp hne) h.symm
  rw [List.map_append, hothers, List.map_singleton, if_pos rfl]

private theorem runAll_perform {var : String} {objects : List (String × Instance)}
    (hvar : objects.lookup var = none) (statements : List Statement) (o : Instance)
    (array : List (Option String)) :
    runAll d (statements.map (.perform var)) { objects := objects ++ [(var, o)], array } =
      some { objects := objects ++ [(var, { o with calls := o.calls ++ calls statements })],
             array } := by
  induction statements generalizing o with
  | nil =>
    rw [calls, List.filterMap_nil, List.append_nil]
    rfl
  | cons s ss ih =>
    rw [List.map_cons, runAll]
    cases s with
    | placeholder => exact ih o
    | set name value =>
      have hdeclared : ((objects ++ [(var, o)]).lookup var).isSome := by
        rw [lookup_concat hvar]
        rfl
      rw [Command.run, if_pos hdeclared, map_concat hvar, Option.bind_some, ih, Instance.call,
        List.append_assoc]
      rfl

private theorem runAll_block {index : Nat} {objects : List (String × Instance)}
    (hvar : objects.lookup (itemVar index) = none) {array array' : List (Option String)}
    (hstore : d.storeIn (itemVar index) index array = some array') (b : Block) :
    runAll d (b.commands index) { objects, array } =
      some { objects := objects ++ [(itemVar index, b.made)], array := array' } := by
  have hcreate : (Command.create b.typeName (itemVar index)).run d { objects, array } =
      some { objects := objects ++ [(itemVar index, { typeName := b.typeName, calls := [] })],
             array } := by
    rw [Command.run, hvar]
    rfl
  have hdeclared : ((objects ++ [(itemVar index, b.made)]).lookup (itemVar index)).isSome := by
    rw [lookup_concat hvar]
    rfl
  rw [Block.commands, runAll, hcreate, Option.bind_some, runAll_append, runAll_perform hvar,
    Option.bind_some, List.nil_append]
  change ((Command.store (itemVar index) index).run d
    { objects := objects ++ [(itemVar index, b.made)], array }).bind (runAll d []) = _
  rw [Command.run, if_pos hdeclared, hstore]
  rfl

/-! ## All blocks -/

private theorem itemVar_injective {i j : Nat} (h : itemVar i = itemVar j) : i = j := by
  rw [itemVar, itemVar, String.append_right_inj, String.ofList_inj] at h
  exact Text.decimal_injective h

private theorem itemVar_beq_false {i j : Nat} (h : i ≠ j) : (itemVar i == itemVar j) = false :=
  beq_eq_false_iff_ne.mpr fun hvar => h (itemVar_injective hvar)

/-- The variables of blocks with the objects that they make, the first of them at an index. -/
def namedFrom : (index : Nat) → List Block → List (String × Instance)
  | _, [] => []
  | index, b :: bs => (itemVar index, b.made) :: namedFrom (index + 1) bs

private theorem lookup_namedFrom (index : Nat) (bs : List Block) (i : Nat) :
    (namedFrom index bs).lookup (itemVar (index + i)) = bs[i]?.map Block.made := by
  induction bs generalizing index i with
  | nil => rfl
  | cons b bs ih =>
    cases i with
    | zero => exact List.lookup_cons_self
    | succ i =>
      rw [← Nat.succ_add_eq_add_succ, namedFrom, List.lookup_cons, itemVar_beq_false (by omega),
        List.getElem?_cons_succ]
      exact ih (index + 1) i

/-- An array in which the first places hold the variables of their items and the others are
empty. -/
def Dialect.filled (d : Dialect) (count empty : Nat) : List (Option String) :=
  (List.range count).map (fun i => some (itemVar i)) ++ d.emptyArray empty

private theorem Dialect.storeIn_filled (d : Dialect) (count empty : Nat) :
    d.storeIn (itemVar count) count (d.filled count (empty + 1)) =
      some (d.filled (count + 1) empty) := by
  cases d with
  | java package =>
    simp [storeIn, filled, emptyArray, List.range_succ, List.replicate_succ]
  | typescript => simp [storeIn, filled, emptyArray, List.range_succ]

private theorem runAll_commandsFrom {index : Nat} {objects : List (String × Instance)}
    (hvars : ∀ i, objects.lookup (itemVar (index + i)) = none) (bs : List Block) :
    runAll d (commandsFrom index bs) { objects, array := d.filled index bs.length } =
      some { objects := objects ++ namedFrom index bs,
             array := d.filled (index + bs.length) 0 } := by
  induction bs generalizing index objects with
  | nil =>
    rw [namedFrom, List.append_nil]
    rfl
  | cons b bs ih =>
    have hvars' : ∀ i, (objects ++ [(itemVar index, b.made)]).lookup (itemVar (index + 1 + i)) =
        none := by
      intro i
      have hbefore := hvars (1 + i)
      rw [← Nat.add_assoc] at hbefore
      rw [List.lookup_append, hbefore, Option.none_or, List.lookup_cons,
        itemVar_beq_false (by omega)]
      rfl
    have hvar : objects.lookup (itemVar index) = none := hvars 0
    have hblock := runAll_block hvar (d.storeIn_filled index bs.length) b
    rw [commandsFrom, runAll_append, List.length_cons, hblock, Option.bind_some, ih hvars',
      namedFrom, List.append_assoc, List.singleton_append, Nat.add_right_comm, Nat.add_assoc]

/-- The blocks of an array, run on the array that the generator begins with, succeed and leave in
each place the object of the block there. -/
theorem exists_runAll (d : Dialect) (bs : List Block) :
    ∃ m, runAll d (commandsFrom 0 bs) { objects := [], array := d.emptyArray bs.length } =
        some m ∧ m.contents = bs.map fun b => some b.made := by
  refine ⟨_, runAll_commandsFrom (fun _ => rfl) bs, ?_⟩
  have hnone : d.emptyArray 0 = [] := by cases d <;> rfl
  rw [Memory.contents, Dialect.filled, hnone, List.append_nil, Nat.zero_add, List.map_map]
  refine List.ext_getElem (by simp) fun i hi hi' => ?_
  have hlookup := lookup_namedFrom 0 bs i
  rw [Nat.zero_add] at hlookup
  simp only [List.length_map] at hi'
  simp [hlookup, hi']

end Exemplar.Class
