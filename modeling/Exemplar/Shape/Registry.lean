import Exemplar.Shape.Basic

/-!
# The registry of named objects

The objects that are declared on their own, each in a slot.  A slot is reserved when its object is
met and filled when the members of the object are known, so an object stands before those inside it.
Entries are never moved, merged or dropped.  Source: the module `schema`.
-/

namespace Exemplar

/-- The objects that are declared on their own, in the order in which their slots were reserved.
Source: `NamedObjectRegistry`. -/
abbrev Registry := List NamedObject

namespace Registry

/-- Reserves the next slot under a name, without fields yet, and gives its number.  Source:
`reserve` of `NamedObjectRegistry`. -/
def reserve (typeName : String) (r : Registry) : Nat × Registry :=
  (r.length, r ++ [{ typeName, fields := [] }])

/-- Gives the object in a slot its fields.  Source: `fill` of `NamedObjectRegistry`. -/
def fill (slot : Nat) (fields : List Field) (r : Registry) : Registry :=
  r.modify slot fun o => { o with fields }

/-- A slot reserved on a registry is the one behind its entries: filling it, whatever was
registered in between, leaves all other entries as they are. -/
theorem fill_reserved (r inner : Registry) (typeName : String) (fields : List Field) :
    fill r.length fields (r ++ { typeName, fields := [] } :: inner) =
      r ++ { typeName, fields } :: inner := by
  rw [fill, List.modify_eq_take_drop, List.take_left, List.drop_left, List.modifyHead_cons]

end Registry

end Exemplar
