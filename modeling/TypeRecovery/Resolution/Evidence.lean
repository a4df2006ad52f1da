import TypeRecovery.Arena.Congruence

/-!
# The evidence of a class

What the constraints of a class say, sorted by what it is evidence for.
-/

namespace TypeRecovery

/-- When a piece of evidence was added, and where in the trace it comes from. -/
structure Sighting where
  seq : Nat
  position : Nat
  deriving DecidableEq, Repr, Inhabited

/-- Everything that the constraints of a class say. -/
structure Evidence where
  callSites : List CallSite
  fields : List FieldAccess
  elements : List ElementAccess
  /-- The largest size of the whole. -/
  extent : Option UInt64
  /-- The first use as a pointer, and what it points into. -/
  pointer : Option (Sighting × VarId)
  /-- The first use that rules out a pointer. -/
  strongScalar : Option Sighting
  /-- The largest width. -/
  width : Option UInt8
  /-- Whether a use takes the value for a signed number. -/
  signed : Bool
  /-- Whether a use takes the value for an unsigned number. -/
  unsigned : Bool
  boolean : Bool
  counter : Bool
  steps : List Int64
  deriving DecidableEq, Repr, Inhabited

namespace Fact

/-- The call. -/
def callSite? : Fact → Option CallSite
  | .callSite site => some site
  | _ => none

/-- The size of the whole. -/
def extent? : Fact → Option UInt64
  | .extent n => some n
  | _ => none

/-- The step. -/
def step? : Fact → Option Int64
  | .step n => some n
  | _ => none

/-- Whether the fact takes its subject for a signed number. -/
def votesSigned : Fact → Bool
  | .ordered signed => signed
  | _ => false

/-- Whether the fact takes its subject for an unsigned number. -/
def votesUnsigned : Fact → Bool
  | .ordered signed => !signed
  | .bitwise _ => true
  | _ => false

end Fact

/-- When and where a constraint was added. -/
def Constraint.sighting (c : Constraint) : Sighting :=
  ⟨c.seq, c.position⟩

namespace Evidence

/-- What a list of constraints says. -/
def gather (constraints : List Constraint) : Evidence :=
  let facts := constraints.map (·.fact)
  { callSites := facts.filterMap Fact.callSite?
    fields := facts.filterMap Fact.field?
    elements := facts.filterMap Fact.element?
    extent := (facts.filterMap Fact.extent?).max?
    pointer := constraints.findSome? fun c => c.fact.target?.map fun target => (c.sighting, target)
    strongScalar := (constraints.find? fun c => c.fact.isStrongScalar).map Constraint.sighting
    width := (facts.filterMap Fact.scalarWidth?).max?
    signed := facts.any Fact.votesSigned
    unsigned := facts.any Fact.votesUnsigned
    boolean := facts.contains .boolean
    counter := facts.contains .counter
    steps := facts.filterMap Fact.step? }

/-- Whether parts of the class were accessed. -/
def isAggregate (e : Evidence) : Bool :=
  !e.fields.isEmpty || !e.elements.isEmpty

/-- The sign that all uses agree on. -/
def sign (e : Evidence) : Signedness :=
  match e.signed, e.unsigned with
  | true, false => .signed
  | false, true => .unsigned
  | _, _ => .unknown

/-- Whether there is no evidence for any type; the size of the whole alone is none. -/
def isEmpty (e : Evidence) : Bool :=
  e.callSites.isEmpty && !e.isAggregate && e.pointer.isNone && e.width.isNone && !e.boolean &&
    !e.counter && e.steps.isEmpty && !e.signed && !e.unsigned

end Evidence

/-- Whether the record of a class holds no evidence. -/
def Arena.hasNoEvidence (a : Arena) (c : ClassId) : Bool :=
  match a.class? c with
  | some record => (Evidence.gather record.constraints).isEmpty
  | none => true

end TypeRecovery
