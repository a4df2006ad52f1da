import TypeRecovery.Arena.Basic
import TypeRecovery.Ascending

/-!
# Closing the classes under their evidence

Pointers of one class point into one class, and accesses to the same part of one class see values of
one class. Rounds over all classes merge what that forces to be merged, until a round finds nothing
to merge. Every merge removes a class, so there are no more rounds than classes and one.
-/

namespace TypeRecovery

namespace FieldAccess

/-- The part of the aggregate that is accessed. -/
def key (access : FieldAccess) : Int64 × UInt8 :=
  (access.offset, access.width)

/-- Parts are ordered by offset, then by width. -/
def keyLt (a b : Int64 × UInt8) : Bool :=
  decide (a.1 < b.1) || (a.1 == b.1 && decide (a.2 < b.2))

end FieldAccess

namespace ElementAccess

/-- The part of the aggregate that is accessed. -/
def key (access : ElementAccess) : Int64 × UInt32 × UInt8 :=
  (access.offset, access.stride, access.width)

/-- Parts are ordered by offset, then by stride, then by width. -/
def keyLt (a b : Int64 × UInt32 × UInt8) : Bool :=
  decide (a.1 < b.1) || (a.1 == b.1 &&
    (decide (a.2.1 < b.2.1) || (a.2.1 == b.2.1 && decide (a.2.2 < b.2.2))))

end ElementAccess

namespace Fact

/-- The access to a field. -/
def field? : Fact → Option FieldAccess
  | .field access => some access
  | _ => none

/-- The access to an element. -/
def element? : Fact → Option ElementAccess
  | .element access => some access
  | _ => none

end Fact

namespace ClassRecord

/-- What the members of a class point into. -/
def targets (c : ClassRecord) : List VarId :=
  c.constraints.filterMap fun constraint => constraint.fact.target?

/-- The accesses to fields of a class. -/
def fields (c : ClassRecord) : List FieldAccess :=
  c.constraints.filterMap fun constraint => constraint.fact.field?

/-- The accesses to elements of a class. -/
def elements (c : ClassRecord) : List ElementAccess :=
  c.constraints.filterMap fun constraint => constraint.fact.element?

/-- The values of the accesses to each field, fields in order. -/
def fieldGroups (c : ClassRecord) : List (List VarId) :=
  (Ascending.ofList FieldAccess.keyLt (c.fields.map FieldAccess.key)).map fun key =>
    (c.fields.filter fun access => access.key = key).map (·.value)

/-- The values of the accesses to each row of elements, rows in order. -/
def elementGroups (c : ClassRecord) : List (List VarId) :=
  (Ascending.ofList ElementAccess.keyLt (c.elements.map ElementAccess.key)).map fun key =>
    (c.elements.filter fun access => access.key = key).map (·.value)

/-- The variables that the evidence of a class forces into one class, group by group. -/
def congruentGroups (c : ClassRecord) : List (List VarId) :=
  c.targets :: (c.fieldGroups ++ c.elementGroups)

end ClassRecord

namespace ArenaM

/-- Merge the classes of two variables; the answer is 1 if they were different and 0 if not. -/
def mergeIfApart (x y : VarId) : ArenaM Nat := do
  let cx ← classOf x
  let cy ← classOf y
  if cx = cy then return 0
  let _ ← unify x y
  return 1

/-- Merge the classes of all variables of a group with the class of its first one, and count the
merges. -/
def mergeGroup : List VarId → ArenaM Nat
  | [] => return 0
  | first :: others => others.foldlM (fun merged v => return merged + (← mergeIfApart first v)) 0

/-- Merge what the evidence of a class forces together, if it is live, and count the merges. -/
def closeClass (c : ClassId) : ArenaM Nat := do
  match (← get).class? c with
  | some record =>
    if record.isLive then
      record.congruentGroups.foldlM (fun merged group => return merged + (← mergeGroup group)) 0
    else return 0
  | none => return 0

/-- One round over all live classes, with the number of merges. -/
def closeRound : ArenaM Nat := do
  (← get).liveIds.foldlM (fun merged c => return merged + (← closeClass c)) 0

/-- At most `rounds` rounds, ending with the first one that merges nothing. -/
def closeWithin : (rounds : Nat) → ArenaM Nat
  | 0 => return 0
  | rounds + 1 => do
    let merged ← closeRound
    if merged = 0 then return 0
    return merged + (← closeWithin rounds)

/-- Merge until nothing is left to be merged, and count the merges. -/
def close : ArenaM Nat := do
  closeWithin ((← get).liveIds.length + 1)

end ArenaM

end TypeRecovery
