import Mathlib.Data.List.Basic
import TypeRecovery.Constraint
import TypeRecovery.MemoryMap
import TypeRecovery.Trace.Operation

/-!
# What a trace observes

The evidence of a trace without the variables that collect it. Values are named by where they come
from, and `Operation.observations` lists what an operation tells of them: which ones it uses, what it
tells of one, which ones it makes equal, and which part of what a pointer points into holds which
value. `Joined` is what follows from a list of observations on its own, in whatever order they were
made. Moving operations to other positions moves their observations along (`observations_move`).
-/

namespace TypeRecovery

/-- Where a value comes from. -/
inductive Value where
  | storage (name : String)
  | address (place : UInt64)
  /-- The pointer to a memory segment. -/
  | segment (name : String)
  /-- A literal that the operation at a position reads, by the order in which it reads. -/
  | literal (position slot : Nat)
  | result (position : Nat)
  deriving DecidableEq

/-- Whether a value is the pointer to a memory segment. -/
def Value.isSegment : Value → Bool
  | .segment _ => true
  | _ => false

/-- A part of what a pointer points into. -/
inductive Part where
  | field (offset : Int64) (width : UInt8)
  | element (offset : Int64) (stride : UInt32) (width : UInt8)
  deriving DecidableEq

/-- The fact that a part holds a value. -/
def Part.fact : Part → VarId → Fact
  | .field offset width, v => .field ⟨offset, width, v⟩
  | .element offset stride width, v => .element ⟨offset, stride, width, v⟩

/-- The fact that a part holds a value tells which part and which value. -/
lemma Part.fact_inj {part other : Part} {v w : VarId} (e : part.fact v = other.fact w) :
    part = other ∧ v = w := by
  cases part <;> cases other <;> cases e <;> exact ⟨rfl, rfl⟩

/-- What an operation tells. -/
inductive Observation where
  | uses (v : Value)
  | tells (v : Value) (fact : Fact)
  | equates (v w : Value)
  | dereferences (pointer : Value)
  /-- A part of what the pointer points into holds a value. -/
  | accesses (pointer : Value) (part : Part) (v : Value)
  deriving DecidableEq

/-! ## Operations -/

namespace Operand

/-- The value that an operand reads. -/
def value (position slot : Nat) : Operand → Value
  | .storage name => .storage name
  | .literal _ _ => .literal position slot
  | .address place => .address place
  | .result target => .result target.toNat

/-- No operand reads the pointer to a segment. -/
@[simp] lemma isSegment_value {position slot : Nat} {operand : Operand} :
    (operand.value position slot).isSegment = false := by
  cases operand <;> rfl

/-- What a literal is known to be. -/
def literalFact (value : Int64) (width : UInt8) : Fact :=
  if value = 0 then .size width else .constant width

/-- What reading an operand observes. A result was observed when it was made. -/
def observations (position slot : Nat) : Operand → List Observation
  | .literal value width =>
    [.uses (.literal position slot), .tells (.literal position slot) (literalFact value width)]
  | .result _ => []
  | operand => [.uses (operand.value position slot)]

/-- What reading operands one after the other observes. -/
def observationsFrom (position : Nat) : (slot : Nat) → List Operand → List Observation
  | _, [] => []
  | slot, operand :: operands =>
    operand.observations position slot ++ observationsFrom position (slot + 1) operands

/-- The pointer that an access goes through. -/
def pointer (memory : MemoryMap) (position slot : Nat) (offset : Int64) : Operand → Value
  | .address place => .segment (memory.locate (place + offset.toUInt64)).segment
  | base => base.value position slot

/-- The offset of an access from what its pointer points to. -/
def place (memory : MemoryMap) (offset : Int64) : Operand → Int64
  | .address place => (memory.locate (place + offset.toUInt64)).offset.toInt64
  | _ => offset

/-- What an access observes before it gets to its part. -/
def baseObservations (memory : MemoryMap) (position slot : Nat) (offset : Int64) (base : Operand) :
    List Observation :=
  let pointer := base.pointer memory position slot offset
  match base with
  | .address _ => [.uses pointer, .dereferences pointer]
  | base => base.observations position slot ++ [.dereferences pointer]

/-- What a comparison tells of an operand. -/
def comparedFacts (operator : Comparison) (this other : Operand) : List Fact :=
  if this.isLiteral then []
  else
    (match other with
      | .literal _ width => [.discriminant width]
      | _ => []) ++ (operator.signed?.map Fact.ordered).toList

end Operand

/-- How far a value is moved. -/
def Direction.displacement (step : Int64) : Direction → Int64
  | .add => step
  | .sub => -step

namespace Action

/-- What an action at a position observes, in order. -/
def observations (memory : MemoryMap) (position : Nat) : Action → List Observation
  | .literal value width =>
    [.uses (.result position), .tells (.result position) (Operand.literalFact value width)]
  | .copy source =>
    source.observations position 0 ++
      [.uses (.result position), .equates (.result position) (source.value position 0)]
  | .load base offset width =>
    let pointer := base.pointer memory position 0 offset
    base.baseObservations memory position 0 offset ++
      [.uses (.result position), .tells (.result position) (.size width),
        .accesses pointer (.field (base.place memory offset) width) (.result position)]
  | .store base offset width value =>
    let pointer := base.pointer memory position 1 offset
    value.observations position 0 ++ [.tells (value.value position 0) (.size width)] ++
      base.baseObservations memory position 1 offset ++
      [.accesses pointer (.field (base.place memory offset) width) (value.value position 0)]
  | .index base subscript offset stride width =>
    let pointer := base.pointer memory position 1 offset
    subscript.observations position 0 ++ [.tells (subscript.value position 0) .counter] ++
      base.baseObservations memory position 1 offset ++
      [.uses (.result position), .tells (.result position) (.size width),
        .accesses pointer (.element (base.place memory offset) stride width) (.result position)]
  | .advance direction moved step width =>
    moved.observations position 0 ++
      [.uses (.result position), .equates (.result position) (moved.value position 0),
        .tells (.result position) (.step (direction.displacement step)),
        .tells (.result position) (.size width)]
  | .compare operator lhs rhs =>
    lhs.observations position 0 ++ rhs.observations position 1 ++
      [.uses (.result position), .tells (.result position) .boolean] ++
      (Operand.comparedFacts operator lhs rhs).map (.tells (lhs.value position 0)) ++
      (Operand.comparedFacts operator rhs lhs).map (.tells (rhs.value position 1))
  | .bitwise _ lhs rhs width =>
    lhs.observations position 0 ++ rhs.observations position 1 ++
      [.uses (.result position), .tells (.result position) (.bitwise width)] ++
      (if lhs.isLiteral then [] else [.tells (lhs.value position 0) (.bitwise width)]) ++
      (if rhs.isLiteral then [] else [.tells (rhs.value position 1) (.bitwise width)])
  | .call target args _ =>
    target.observations position 0 ++ [.dereferences (target.value position 0)] ++
      Operand.observationsFrom position 1 args ++ [.uses (.result position)]

end Action

namespace Operation

/-- What an operation observes, in order. -/
def observations (memory : MemoryMap) (op : Operation) : List Observation :=
  op.action.observations memory op.position ++
    match op.destination, op.action.hasResult with
    | some name, true =>
      [.uses (.storage name), .equates (.storage name) (.result op.position)]
    | _, _ => []

end Operation

/-- What a trace observes. -/
def Trace.observations (memory : MemoryMap) (t : Trace) : List Observation :=
  t.operations.flatMap (·.observations memory)

/-! ## What follows from observations -/

/-- Values that observations force to be of one type: they are made equal, or they are held by the
same part of what such pointers point into. -/
inductive Joined (obs : List Observation) : Value → Value → Prop
  | used {v} : .uses v ∈ obs → Joined obs v v
  | symm {v w} : Joined obs v w → Joined obs w v
  | trans {u v w} : Joined obs u v → Joined obs v w → Joined obs u w
  | equal {v w} : .equates v w ∈ obs → Joined obs v w
  | part {p q part v w} : Joined obs p q → .accesses p part v ∈ obs → .accesses q part w ∈ obs →
    Joined obs v w

/-! ## Moving operations -/

/-- The value after operations were moved. -/
def Value.move (f : Nat → Nat) : Value → Value
  | .literal position slot => .literal (f position) slot
  | .result position => .result (f position)
  | v => v

/-- The observation after operations were moved. -/
def Observation.move (f : Nat → Nat) : Observation → Observation
  | .uses v => .uses (v.move f)
  | .tells v fact => .tells (v.move f) fact
  | .equates v w => .equates (v.move f) (w.move f)
  | .dereferences v => .dereferences (v.move f)
  | .accesses p part v => .accesses (p.move f) part (v.move f)

section
variable (f : Nat → Nat)

/-- A storage location has no position that could be moved. -/
@[simp] lemma Value.move_storage (name : String) : (storage name).move f = storage name := rfl

/-- A result is moved with its operation. -/
@[simp] lemma Value.move_result (position : Nat) :
    (result position).move f = result (f position) := rfl

/-- A use is moved with its value. -/
@[simp] lemma Observation.move_uses (v : Value) : (uses v).move f = uses (v.move f) := rfl

/-- A fact is moved with its value. -/
@[simp] lemma Observation.move_tells (v : Value) (fact : Fact) :
    (tells v fact).move f = tells (v.move f) fact := rfl

/-- An equation is moved with both values. -/
@[simp] lemma Observation.move_equates (v w : Value) :
    (equates v w).move f = equates (v.move f) (w.move f) := rfl

/-- A dereference is moved with its pointer. -/
@[simp] lemma Observation.move_dereferences (v : Value) :
    (dereferences v).move f = dereferences (v.move f) := rfl

/-- An access is moved with its pointer and its value. -/
@[simp] lemma Observation.move_accesses (p : Value) (part : Part) (v : Value) :
    (accesses p part v).move f = accesses (p.move f) part (v.move f) := rfl

end

/-- Values that are joined are still joined after a move. -/
lemma Joined.move {f : Nat → Nat} {obs more : List Observation} {v w : Value} (jo : Joined obs v w)
    (each : ∀ o ∈ obs, o.move f ∈ more) : Joined more (v.move f) (w.move f) := by
  induction jo with
  | used mem => exact .used (each _ mem)
  | symm _ ih => exact ih.symm
  | trans _ _ ih ih' => exact ih.trans ih'
  | equal mem => exact .equal (each _ mem)
  | part _ here there ih => exact .part ih (each _ here) (each _ there)

namespace Operand

/-- Whether an operand refers to another operation. -/
def isResult : Operand → Bool
  | .result _ => true
  | _ => false

section
variable {f : Nat → Nat} {position slot : Nat} {operand : Operand}

/-- An operand that refers to no other operation reads a value that is moved along. -/
lemma value_move (own : operand.isResult = false) :
    (operand.value position slot).move f = operand.value (f position) slot := by
  cases operand with
  | result target => cases own
  | _ => rfl

/-- An operand that refers to no other operation is observed alike wherever it is read. -/
lemma observations_move (own : operand.isResult = false) :
    (operand.observations position slot).map (·.move f) =
      operand.observations (f position) slot := by
  cases operand with
  | result target => cases own
  | _ => rfl

/-- Operands that refer to no other operation are observed alike wherever they are read. -/
lemma observationsFrom_move {operands : List Operand}
    (own : ∀ operand ∈ operands, operand.isResult = false) :
    (observationsFrom position slot operands).map (·.move f) =
      observationsFrom (f position) slot operands := by
  induction operands generalizing slot with
  | nil => rfl
  | cons operand operands ih =>
    rw [observationsFrom, observationsFrom, List.map_append,
      observations_move (own operand List.mem_cons_self),
      ih fun other mem => own other (List.mem_cons_of_mem _ mem)]

/-- An access through an operand that refers to no other operation has a pointer that is moved
along. -/
lemma pointer_move {memory : MemoryMap} {offset : Int64} (own : operand.isResult = false) :
    (operand.pointer memory position slot offset).move f =
      operand.pointer memory (f position) slot offset := by
  cases operand with
  | result target => cases own
  | _ => rfl

/-- An access through an operand that refers to no other operation is observed alike wherever it is
made. -/
lemma baseObservations_move {memory : MemoryMap} {offset : Int64}
    (own : operand.isResult = false) :
    (operand.baseObservations memory position slot offset).map (·.move f) =
      operand.baseObservations memory (f position) slot offset := by
  cases operand with
  | result target => cases own
  | _ => rfl

end

end Operand

/-- An action that refers to no other operation observes the same wherever it stands. -/
lemma Action.observations_move {f : Nat → Nat} {memory : MemoryMap} {position : Nat}
    {action : Action} (own : ∀ operand ∈ action.reads, operand.isResult = false) :
    (action.observations memory position).map (·.move f) =
      action.observations memory (f position) := by
  cases action with
  | literal value width => rfl
  | copy source =>
    have source := own source (by simp [reads])
    simp [observations, Operand.observations_move source, Operand.value_move source]
  | load base offset width =>
    have base := own base (by simp [reads])
    simp [observations, Operand.baseObservations_move base, Operand.pointer_move base]
  | store base offset width value =>
    have base := own base (by simp [reads])
    have value := own value (by simp [reads])
    simp [observations, Operand.baseObservations_move base, Operand.pointer_move base,
      Operand.observations_move value, Operand.value_move value]
  | index base subscript offset stride width =>
    have base := own base (by simp [reads])
    have subscript := own subscript (by simp [reads])
    simp [observations, Operand.baseObservations_move base, Operand.pointer_move base,
      Operand.observations_move subscript,
      Operand.value_move subscript]
  | advance direction moved step width =>
    have moved := own moved (by simp [reads])
    simp [observations, Operand.observations_move moved, Operand.value_move moved]
  | compare operator lhs rhs =>
    have lhs := own lhs (by simp [reads])
    have rhs := own rhs (by simp [reads])
    simp [observations, Function.comp_def, Operand.observations_move lhs,
      Operand.observations_move rhs, Operand.value_move lhs, Operand.value_move rhs]
  | bitwise operator lhs rhs width =>
    have left := own lhs (by simp [reads])
    have right := own rhs (by simp [reads])
    have told : ∀ (literal : Bool) (v : Value),
        (if literal then [] else [Observation.tells v (.bitwise width)]).map (·.move f) =
          if literal then [] else [Observation.tells (v.move f) (.bitwise width)] := by
      intro literal v
      cases literal <;> rfl
    simp only [observations, List.map_append, told, Operand.observations_move left,
      Operand.observations_move right, Operand.value_move left, Operand.value_move right]
    rfl
  | call target args resultUsed =>
    have target := own target (by simp [reads])
    have args : ∀ operand ∈ args, operand.isResult = false :=
      fun operand mem => own operand (List.mem_cons_of_mem _ mem)
    simp [observations, Operand.observations_move target, Operand.value_move target,
      Operand.observationsFrom_move args]

end TypeRecovery
