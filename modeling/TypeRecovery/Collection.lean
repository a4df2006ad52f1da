import TypeRecovery.Arena.Basic
import TypeRecovery.MemoryMap

/-!
# Collecting constraints

A trace is walked once, in order. Every use gets a type variable, and what an operation does to its
operands becomes evidence about their classes.

- A literal other than zero is a constant; zero only has a width.
- A load or store gives its value a width, makes its base a pointer, and accesses a field of what
  the base points into; an indexed load accesses an element, and counts with its index.
- Moving a value keeps its class, and gives it a step and a width.
- A comparison gives a boolean, and tells of its operands how they are ordered and which literals
  they are compared with.
- A bitwise operation tells of its result and its operands that they are bit patterns.
- A call makes its target a pointer to code that is called.

An access through a fixed address belongs to the memory segment that holds the address: the segment
has one pointer variable, and what that points into collects the accesses as fields, at offsets from
the start of the segment.
-/

namespace TypeRecovery

/-- What was collected so far. -/
structure Collection where
  arena : Arena
  /-- The variable of each named storage, in the order of first use. -/
  storage : List (String × VarId)
  /-- The variable of each fixed address that is used as a value. -/
  addresses : List (UInt64 × VarId)
  /-- The variable of the pointer to each memory segment, in the order of first use. -/
  segments : List (String × VarId)
  /-- The variables that were made for what pointers point into. -/
  pointees : List VarId
  /-- The variable of each operation's result, by position. -/
  results : Array (Option VarId)
  deriving Repr, Inhabited

/-- A step of the collection, which may fail. -/
abbrev CollectM := EStateM AnalysisError Collection

namespace Collection

/-- Nothing was collected yet into an arena. -/
def start (arena : Arena) : Collection :=
  ⟨arena, [], [], [], [], #[]⟩

end Collection

namespace CollectM

/-- An operation on the arena. -/
def onArena {α : Type} (x : ArenaM α) : CollectM α :=
  fun s =>
    match x s.arena with
    | .ok a arena => .ok a { s with arena }
    | .error e arena => .error e { s with arena }

/-- Make a variable for a use. -/
def newVariable (site : UseSite) : CollectM VarId :=
  onArena (ArenaM.newVariable site)

/-- Add evidence about a variable. -/
def constrain (v : VarId) (position : Nat) (fact : Fact) : CollectM Unit :=
  onArena (ArenaM.constrain v position fact)

/-- Give two variables one class. -/
def unify (x y : VarId) : CollectM Unit := do
  let _ ← onArena (ArenaM.unify x y)

/-- The variable for the result of an operation. -/
def expression (op : Operation) : CollectM VarId :=
  newVariable (.expression op.position op.action.text)

/-- The variable of named storage. -/
def storage (name : String) : CollectM VarId := do
  match (← get).storage.lookup name with
  | some v => return v
  | none =>
    let v ← newVariable (.storage name)
    modify fun s => { s with storage := s.storage ++ [(name, v)] }
    return v

/-- The variable of a fixed address that is used as a value. -/
def address (place : UInt64) : CollectM VarId := do
  match (← get).addresses.lookup place with
  | some v => return v
  | none =>
    let v ← newVariable (.address place)
    modify fun s => { s with addresses := s.addresses ++ [(place, v)] }
    return v

/-- The variable of the pointer to a memory segment, and whether this is its first use. -/
def segment (name : String) : CollectM (VarId × Bool) := do
  match (← get).segments.lookup name with
  | some v => return (v, false)
  | none =>
    let v ← newVariable (.segment name)
    modify fun s => { s with segments := s.segments ++ [(name, v)] }
    return (v, true)

/-- A new variable for an occurrence of a literal. -/
def literal (position : Nat) (value : Int64) (width : UInt8) : CollectM VarId := do
  let v ← newVariable (.literal position value)
  constrain v position (if value = 0 then .size width else .constant width)
  return v

/-- The variable of an operand. -/
def operand (position : Nat) : Operand → CollectM VarId
  | .storage name => storage name
  | .literal value width => literal position value width
  | .address place => address place
  | .result target => do
    match (← get).results[target.toNat]? with
    | some (some v) => return v
    | _ => throw (.trace (.flawed ⟨position, .unknownOperand target⟩))

/-- What a pointer points into. A variable for that is made when the class of the pointer is
dereferenced for the first time. -/
def pointee (pointer : VarId) (position : Nat) : CollectM VarId := do
  let record ← onArena (ArenaM.classFor pointer)
  let target ← match record.target? with
    | some target => pure target
    | none => do
      let v ← newVariable (.pointee pointer)
      modify fun s => { s with pointees := s.pointees ++ [v] }
      pure v
  constrain pointer position (.pointsTo target)
  return target

/-- What an access at a fixed address goes to: the pointee of the segment that holds the address,
and the offset from the start of the segment. -/
def fixedBase (memory : MemoryMap) (position : Nat) (place : UInt64) (offset : Int64) :
    CollectM (VarId × Int64) := do
  let address := place + offset.toUInt64
  let location := memory.locate address
  if Int64.maxValue.toInt < location.offset.toNat then throw (.addressOutOfRange position address)
  let (pointer, fresh) ← segment location.segment
  let target ← pointee pointer position
  match fresh, location.size with
  | true, some size => constrain target position (.extent size)
  | _, _ => pure ()
  return (target, location.offset.toInt64)

/-- What an access goes to: a variable, and the offset from its start. -/
def accessBase (memory : MemoryMap) (position : Nat) (base : Operand) (offset : Int64) :
    CollectM (VarId × Int64) :=
  match base with
  | .address place => fixedBase memory position place offset
  | base => do
    let pointer ← operand position base
    return (← pointee pointer position, offset)

/-- What a comparison tells of one of its operands. Nothing is told of literals. -/
def comparedOperand (position : Nat) (operator : Comparison) (v : VarId) (this other : Operand) :
    CollectM Unit := do
  if this.isLiteral then return ()
  match other with
  | .literal _ width => constrain v position (.discriminant width)
  | _ => pure ()
  match operator.signed? with
  | some signed => constrain v position (.ordered signed)
  | none => pure ()

/-- Collect the evidence of an action; the answer is the variable of its result. -/
def action (memory : MemoryMap) (op : Operation) : CollectM (Option VarId) := do
  let position := op.position
  match op.action with
  | .literal value width => return some (← literal position value width)
  | .copy source =>
    let source ← operand position source
    let result ← expression op
    unify result source
    return some result
  | .load base offset width =>
    let (target, offset) ← accessBase memory position base offset
    let result ← expression op
    constrain result position (.size width)
    constrain target position (.field ⟨offset, width, result⟩)
    return some result
  | .store base offset width value =>
    let value ← operand position value
    constrain value position (.size width)
    let (target, offset) ← accessBase memory position base offset
    constrain target position (.field ⟨offset, width, value⟩)
    return none
  | .index base subscript offset stride width =>
    let subscript ← operand position subscript
    constrain subscript position .counter
    let (target, offset) ← accessBase memory position base offset
    let result ← expression op
    constrain result position (.size width)
    constrain target position (.element ⟨offset, stride, width, result⟩)
    return some result
  | .advance direction moved step width =>
    let moved ← operand position moved
    let result ← expression op
    unify result moved
    constrain result position (.step (match direction with | .add => step | .sub => -step))
    constrain result position (.size width)
    return some result
  | .compare operator lhs rhs =>
    let left ← operand position lhs
    let right ← operand position rhs
    let result ← expression op
    constrain result position .boolean
    comparedOperand position operator left lhs rhs
    comparedOperand position operator right rhs lhs
    return some result
  | .bitwise _ lhs rhs width =>
    let left ← operand position lhs
    let right ← operand position rhs
    let result ← expression op
    constrain result position (.bitwise width)
    unless lhs.isLiteral do constrain left position (.bitwise width)
    unless rhs.isLiteral do constrain right position (.bitwise width)
    return some result
  | .call target args resultUsed =>
    let target ← operand position target
    let code ← pointee target position
    let args ← args.mapM (operand position)
    let result ← expression op
    constrain code position (.callSite ⟨args, if resultUsed then some result else none⟩)
    return some result

/-- Collect the evidence of an operation. Its result has the class of the storage it goes to. -/
def operation (memory : MemoryMap) (op : Operation) : CollectM Unit := do
  let result ← action memory op
  match op.destination, result with
  | some name, some result => unify (← storage name) result
  | _, _ => pure ()
  modify fun s => { s with results := s.results.push result }

/-- Collect the evidence of a trace. -/
def trace (memory : MemoryMap) (t : Trace) : CollectM Unit :=
  t.operations.forM (operation memory)

end CollectM

/-- What an arena's pointer to a memory segment points into, if the segment was accessed. -/
def ArenaM.pointeeClass (pointer : VarId) : ArenaM (Option ClassId) := do
  match (← classFor pointer).target? with
  | some target => return some (← classOf target)
  | none => return none

end TypeRecovery
