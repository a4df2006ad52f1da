import TypeRecovery.AnalysisError
import TypeRecovery.Arena.Forest
import TypeRecovery.Constraint
import TypeRecovery.Variable

/-!
# The arena

All variables and classes of one analysis. A variable starts in a class of its own, under its own
number; classes only grow by merging, and the class with the lower number survives a merge. The
survivor takes over the members and the constraints of the other class, each kept in order, so that
the outcome does not depend on the order of the merges.

An operation that fails leaves every class as it was.
-/

namespace TypeRecovery

/-- How far the analysis of a class has come. -/
inductive ClassState where
  /-- Nothing is known. -/
  | unresolved
  /-- There is evidence, but no verdict. -/
  | constrained
  /-- There is a verdict, which a later merge can void. -/
  | resolved
  /-- The verdict is final, and the class does not change any more. -/
  | finalized
  deriving DecidableEq, Repr, Inhabited

namespace ClassState

/-- The name of a state. -/
def name : ClassState → String
  | .unresolved => "unresolved"
  | .constrained => "constrained"
  | .resolved => "resolved"
  | .finalized => "finalized"

/-- Every state. -/
def all : List ClassState :=
  [.unresolved, .constrained, .resolved, .finalized]

def toJson (s : ClassState) : Json :=
  .string s.name

def decoder : Decoder ClassState :=
  .oneOf (all.map fun s => (s.name, s))

end ClassState

/-- A set of variables that share one representation. -/
structure ClassRecord where
  id : ClassId
  /-- In the order of their numbers. -/
  members : List VarId
  /-- In the order in which they were added. -/
  constraints : List Constraint
  state : ClassState
  dataType : Option DataType
  /-- The class that this one was merged into. -/
  absorbedInto : Option ClassId
  deriving DecidableEq, Repr, Inhabited

namespace ClassRecord

/-- The class of one new variable. -/
def singleton (index : Nat) : ClassRecord where
  id := ⟨index⟩
  members := [⟨index⟩]
  constraints := []
  state := .unresolved
  dataType := none
  absorbedInto := none

/-- Whether the class was not merged into another one. -/
def isLive (c : ClassRecord) : Bool :=
  c.absorbedInto.isNone

/-- What the members point into, by the first constraint that says so. -/
def target? (c : ClassRecord) : Option VarId :=
  c.constraints.findSome? fun constraint => constraint.fact.target?

/-- What is left of a class that was merged into `survivor`. -/
def handOver (c : ClassRecord) (survivor : ClassId) : ClassRecord :=
  { c with members := [], constraints := [], dataType := none, absorbedInto := some survivor }

/-- The class after it took over the members and constraints of `other`. Its verdict is void. -/
def takeOver (c other : ClassRecord) : ClassRecord :=
  let constraints := c.constraints.merge other.constraints fun x y => decide (x.seq ≤ y.seq)
  { c with
    members := c.members.merge other.members fun x y => decide (x.index ≤ y.index)
    constraints
    dataType := none
    state := if constraints.isEmpty then .unresolved else .constrained }

/-- The class with one more constraint. -/
def addConstraint (c : ClassRecord) (constraint : Constraint) : ClassRecord :=
  { c with constraints := c.constraints ++ [constraint], state := .constrained }

/-- The class with a verdict. -/
def setType (c : ClassRecord) (t : DataType) : ClassRecord :=
  { c with dataType := some t, state := .resolved }

/-- The class, frozen. -/
def finalize (c : ClassRecord) : ClassRecord :=
  { c with state := .finalized }

end ClassRecord

/-- All variables and classes of one analysis. -/
structure Arena where
  store : VariableStore
  forest : Forest
  /-- The record of every class that ever was, by number. -/
  classes : Array ClassRecord
  /-- The sequence number of the next constraint. -/
  nextSeq : Nat
  deriving Repr, Inhabited

/-- An operation on the arena, which may fail. -/
abbrev ArenaM := EStateM AnalysisError Arena

namespace Arena

/-- No variables. -/
def empty : Arena :=
  ⟨.empty, .empty, #[], 0⟩

/-! ## Views -/

/-- How many variables there are. -/
def size (a : Arena) : Nat :=
  a.store.size

/-- The variable with a number. -/
def var? (a : Arena) (v : VarId) : Option Variable :=
  a.store.get? v

/-- The record of a class, whether it is live or not. -/
def class? (a : Arena) (c : ClassId) : Option ClassRecord :=
  a.classes[c.index]?

/-- The live class that a class was merged into. -/
def representative? (a : Arena) (c : ClassId) : Option ClassId :=
  if c.index < a.forest.size then some ⟨a.forest.leaderOf c.index⟩ else none

/-- The class that holds a variable. -/
def classOf? (a : Arena) (v : VarId) : Option ClassId :=
  a.representative? ⟨v.index⟩

/-- The record of the class that holds a variable. -/
def classFor? (a : Arena) (v : VarId) : Option ClassRecord :=
  (a.classOf? v).bind a.class?

/-- The live classes, in the order of their numbers. -/
def liveClasses (a : Arena) : List ClassRecord :=
  a.classes.toList.filter (·.isLive)

/-- The numbers of the live classes. -/
def liveIds (a : Arena) : List ClassId :=
  a.liveClasses.map (·.id)

/-- Whether a class is finalized. -/
def isFinalized (a : Arena) (c : ClassId) : Bool :=
  match a.class? c with
  | some record => record.state == .finalized
  | none => false

/-! ## Changes -/

/-- Add a variable for a use, in a class of its own. -/
def addVariable (a : Arena) (site : UseSite) : Arena :=
  { a with
    store := a.store.push site
    forest := a.forest.push
    classes := a.classes.push (.singleton a.size) }

/-- Change the record of a class. -/
def modifyClass (a : Arena) (c : ClassId) (f : ClassRecord → ClassRecord) : Arena :=
  { a with classes := a.classes.modify c.index f }

/-- Merge the trees of two roots and the records of their classes. -/
def mergeRoots (a : Arena) (x y : Nat) : Arena :=
  let survivor := min (a.forest.leader x) (a.forest.leader y)
  let absorbed := max (a.forest.leader x) (a.forest.leader y)
  let linked := { a with forest := a.forest.link x y survivor }
  match a.class? ⟨absorbed⟩ with
  | some gone =>
    (linked.modifyClass ⟨absorbed⟩ (·.handOver ⟨survivor⟩)).modifyClass ⟨survivor⟩ (·.takeOver gone)
  | none => linked

/-- Freeze every live class. -/
def finalizeAll (a : Arena) : Arena :=
  { a with classes := a.classes.map fun c => if c.isLive then c.finalize else c }

/-- The type that a fact directly implies for its subject. -/
def directEvidence (a : Arena) : Fact → Except AnalysisError (Option DataType)
  | .size width | .constant width | .discriminant width => .ok (some (.word width))
  | .bitwise width => .ok (some (.integer width .unsigned))
  | .boolean => .ok (some .boolean)
  | .pointsTo target =>
    match a.classOf? target with
    | some c => .ok (some (.pointer c))
    | none => .error (.unallocated target)
  | _ => .ok none

end Arena

namespace ArenaM

/-- Fail unless the class exists. -/
def requireClass (c : ClassId) : ArenaM Unit := do
  if c.index < (← get).forest.size then return () else throw (.unknownClass c)

/-- Fail unless the variable exists. -/
def requireVariable (v : VarId) : ArenaM Unit := do
  if v.index < (← get).size then return () else throw (.unknownVariable v)

/-- Make a variable for a use. -/
def newVariable (site : UseSite) : ArenaM VarId := do
  let a ← get
  set (a.addVariable site)
  return a.store.next

/-- The root of a class's tree, with the path to it compressed. -/
def root (c : ClassId) : ArenaM Nat := do
  let a ← get
  set { a with forest := a.forest.compress c.index }
  return a.forest.root c.index

/-- The live class that a class was merged into. -/
def find (c : ClassId) : ArenaM ClassId := do
  requireClass c
  let r ← root c
  return ⟨(← get).forest.leader r⟩

/-- The class that holds a variable, which has to exist. -/
def classOf (v : VarId) : ArenaM ClassId := do
  match (← get).classOf? v with
  | some c => return c
  | none => throw (.unallocated v)

/-- The record of the class that holds a variable, which has to exist. -/
def classFor (v : VarId) : ArenaM ClassRecord := do
  match (← get).classFor? v with
  | some record => return record
  | none => throw (.unallocated v)

/-- Merge two classes into the one with the lower number. A finalized class cannot be merged. -/
def union (x y : ClassId) : ArenaM ClassId := do
  requireClass x
  requireClass y
  let rx ← root x
  let ry ← root y
  let a ← get
  let lx : ClassId := ⟨a.forest.leader rx⟩
  let ly : ClassId := ⟨a.forest.leader ry⟩
  if rx = ry then return lx
  if a.isFinalized lx || a.isFinalized ly then throw (.finalizedMerge lx ly)
  set (a.mergeRoots rx ry)
  return ⟨min lx.index ly.index⟩

/-- Merge the classes of two variables. -/
def unify (x y : VarId) : ArenaM ClassId := do
  requireVariable x
  requireVariable y
  union ⟨x.index⟩ ⟨y.index⟩

/-- Add a constraint to the class of its subject. -/
def constrain (subject : VarId) (position : Nat) (fact : Fact) : ArenaM Unit := do
  requireVariable subject
  let c ← classOf subject
  let a ← get
  if a.isFinalized c then throw (.finalizedClass c)
  let evidence ← MonadExcept.ofExcept (a.directEvidence fact)
  let store := match evidence with
    | some t => a.store.recordFirst subject t
    | none => a.store
  let constraint : Constraint := ⟨position, a.nextSeq, subject, fact⟩
  set ({ a with store, nextSeq := a.nextSeq + 1 }.modifyClass c (·.addConstraint constraint))

/-- Give a class a type. -/
def setType (c : ClassId) (t : DataType) : ArenaM Unit := do
  let c ← find c
  let a ← get
  if a.isFinalized c then throw (.finalizedClass c)
  set (a.modifyClass c (·.setType t))

/-- Freeze a class. -/
def finalize (c : ClassId) : ArenaM Unit := do
  let c ← find c
  modify fun a => a.modifyClass c (·.finalize)

/-- Freeze every live class. -/
def finalizeAll : ArenaM Unit :=
  modify Arena.finalizeAll

/-- Drop everything; numbers start from zero again. -/
def reset : ArenaM Unit :=
  set Arena.empty

end ArenaM

end TypeRecovery
