import TypeRecovery.Trace.Operation

/-!
# Trace records

A trace arrives as loose records in which any field may be missing. `Trace.ingest` checks them one
after the other and turns them into operations; the first flaw ends it.
-/

namespace TypeRecovery

/-- The kind of a record. -/
inductive RecordKind where
  | literal | copy | load | store | index | add | sub | compare | bitwise | call
  deriving DecidableEq, Repr, Inhabited

/-- An operation as it arrives, unchecked. -/
structure TraceRecord where
  address : UInt64 := 0
  kind : Option RecordKind := none
  operands : List Operand := []
  offset : Option Int64 := none
  width : Option UInt8 := none
  stride : Option UInt32 := none
  step : Option Int64 := none
  value : Option Int64 := none
  comparison : Option Comparison := none
  bitOperator : Option BitOperator := none
  argCount : Option Int64 := none
  resultUsed : Bool := false
  destination : Option Operand := none
  deriving DecidableEq, Repr, Inhabited

/-- The fields that a record of some kind has to have. -/
inductive RecordField where
  | kind | value | width | stride | step | comparison | bitOperator | argCount
  deriving DecidableEq, Repr

/-- The name of a field in a record. -/
def RecordField.name : RecordField → String
  | .kind => "kind"
  | .value => "value"
  | .width => "width"
  | .stride => "stride"
  | .step => "step"
  | .comparison => "cmp"
  | .bitOperator => "bit"
  | .argCount => "arg_count"

/-- What can be wrong with a record. -/
inductive Flaw where
  | missing (field : RecordField)
  | zeroWidth
  | zeroStride
  /-- A literal operand of no width. -/
  | zeroLiteral
  /-- The wrong number of operands. -/
  | arity (expected found : Nat)
  | negativeArgCount (count : Int64)
  /-- A destination for an operation without a result. -/
  | noResult
  /-- A destination that is not storage. -/
  | notStorage (destination : Operand)
  /-- An operand that refers to no earlier result. -/
  | unknownOperand (target : UInt64)
  deriving DecidableEq, Repr

/-- A flaw and the position of the record that has it. -/
structure TraceError where
  position : Nat
  flaw : Flaw
  deriving DecidableEq, Repr

namespace TraceError

/-- How an unusable field is reported. -/
def invalidText (field reason : String) : String :=
  "invalid field `" ++ field ++ "`: " ++ reason

/-- What the report says, after the position. -/
def flawText : Flaw → String
  | .missing field => "missing field `" ++ field.name ++ "`"
  | .zeroWidth => invalidText "width" "must be non-zero"
  | .zeroStride => invalidText "stride" "must be non-zero"
  | .zeroLiteral => invalidText "operands" "literal width must be non-zero"
  | .arity expected found =>
    invalidText "operands" ("expected " ++ Nat.repr expected ++ " operand(s), found " ++
      Nat.repr found)
  | .negativeArgCount count =>
    invalidText "arg_count" ("negative argument count -" ++ Nat.repr count.toInt.natAbs)
  | .noResult => invalidText "dst" "operation produces no result"
  | .notStorage destination =>
    invalidText "dst" ("`" ++ destination.text ++ "` is not a storage location")
  | .unknownOperand target =>
    "unknown operand, operation #" ++ Nat.repr target.toNat ++ " has no result in scope"

/-- The report of a flaw. -/
def message (e : TraceError) : String :=
  "operation #" ++ Nat.repr e.position ++ ": " ++ flawText e.flaw

end TraceError

namespace TraceRecord

/-- A field that has to be there. -/
def require {α : Type} (field : RecordField) : Option α → Except Flaw α
  | some x => .ok x
  | none => .error (.missing field)

/-- The width, which is there and not zero. -/
def requireWidth (r : TraceRecord) : Except Flaw UInt8 :=
  match r.width with
  | none => .error (.missing .width)
  | some w => if w = 0 then .error .zeroWidth else .ok w

/-- The stride, which is there and not zero. -/
def requireStride (r : TraceRecord) : Except Flaw UInt32 :=
  match r.stride with
  | none => .error (.missing .stride)
  | some s => if s = 0 then .error .zeroStride else .ok s

/-- No operands. -/
def noOperands (r : TraceRecord) : Except Flaw Unit :=
  match r.operands with
  | [] => .ok ()
  | operands => .error (.arity 0 operands.length)

/-- The only operand. -/
def oneOperand (r : TraceRecord) : Except Flaw Operand :=
  match r.operands with
  | [a] => .ok a
  | operands => .error (.arity 1 operands.length)

/-- The two operands. -/
def twoOperands (r : TraceRecord) : Except Flaw (Operand × Operand) :=
  match r.operands with
  | [a, b] => .ok (a, b)
  | operands => .error (.arity 2 operands.length)

/-- The target of a call and its arguments, which are as many as the record says. -/
def callOperands (r : TraceRecord) : Except Flaw (Operand × List Operand) := do
  let count ← require .argCount r.argCount
  if count < 0 then throw (.negativeArgCount count)
  let expected := count.toInt.toNat + 1
  match r.operands with
  | [] => throw (.arity expected 0)
  | target :: args =>
    if args.length + 1 = expected then return (target, args)
    else throw (.arity expected (args.length + 1))

/-- A missing displacement is zero. -/
def displacement (r : TraceRecord) : Int64 :=
  r.offset.getD 0

/-- What a record of the given kind does. -/
def action (r : TraceRecord) : RecordKind → Except Flaw Action
  | .literal => do
    r.noOperands
    let value ← require .value r.value
    return .literal value (← r.requireWidth)
  | .copy => do
    return .copy (← r.oneOperand)
  | .load => do
    let base ← r.oneOperand
    return .load base r.displacement (← r.requireWidth)
  | .store => do
    let (base, value) ← r.twoOperands
    return .store base r.displacement (← r.requireWidth) value
  | .index => do
    let (base, subscript) ← r.twoOperands
    let stride ← r.requireStride
    return .index base subscript r.displacement stride (← r.requireWidth)
  | .add => do
    let operand ← r.oneOperand
    let step ← require .step r.step
    return .advance .add operand step (← r.requireWidth)
  | .sub => do
    let operand ← r.oneOperand
    let step ← require .step r.step
    return .advance .sub operand step (← r.requireWidth)
  | .compare => do
    let (lhs, rhs) ← r.twoOperands
    return .compare (← require .comparison r.comparison) lhs rhs
  | .bitwise => do
    let (lhs, rhs) ← r.twoOperands
    let operator ← require .bitOperator r.bitOperator
    return .bitwise operator lhs rhs (← r.requireWidth)
  | .call => do
    let (target, args) ← r.callOperands
    return .call target args r.resultUsed

/-- Refuse a literal of width zero and a reference to a result that is missing. -/
def checkOperand (hasResult : Nat → Bool) : Operand → Except Flaw Unit
  | .result target =>
    if hasResult target.toNat then .ok () else .error (.unknownOperand target)
  | .literal _ width => if width = 0 then .error .zeroLiteral else .ok ()
  | _ => .ok ()

/-- The name of the storage that receives the result of an action. -/
def destinationName (r : TraceRecord) (action : Action) : Except Flaw (Option String) :=
  match r.destination with
  | none => .ok none
  | some operand =>
    if !action.hasResult then .error .noResult
    else match operand with
      | .storage name => .ok (some name)
      | other => .error (.notStorage other)

/-- The operation that a record stands for at a position, given which positions have results. -/
def check (r : TraceRecord) (position : Nat) (hasResult : Nat → Bool) : Except Flaw Operation := do
  let kind ← require .kind r.kind
  r.operands.forM (checkOperand hasResult)
  let action ← r.action kind
  let destination ← r.destinationName action
  return ⟨position, r.address, action, destination⟩

end TraceRecord

namespace Trace

/-- Whether the operation at a position of `earlier` has a result. -/
def producesAt (earlier : Array Operation) (position : Nat) : Bool :=
  match earlier[position]? with
  | some operation => operation.action.hasResult
  | none => false

/-- Check one more record after the operations that stand before it. -/
def append (earlier : Array Operation) (r : TraceRecord) : Except TraceError (Array Operation) :=
  match r.check earlier.size (producesAt earlier) with
  | .ok operation => .ok (earlier.push operation)
  | .error flaw => .error ⟨earlier.size, flaw⟩

/-- Check a list of records. -/
def ingest (records : List TraceRecord) : Except TraceError Trace :=
  (records.foldlM append #[]).map fun operations => ⟨operations.toList⟩

end Trace

end TypeRecovery
