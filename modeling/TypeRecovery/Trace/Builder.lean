import TypeRecovery.Trace.Record

/-!
# Building traces

A builder writes records for a sequence of actions, so that a trace can be put down the way the code
reads. Each record gets the next address unless one is set.
-/

namespace TypeRecovery

/-- The record that stands for an action at an address. -/
def Action.toRecord (address : UInt64) : Action → TraceRecord
  | .literal value width =>
    { address, kind := some .literal, value := some value, width := some width }
  | .copy source => { address, kind := some .copy, operands := [source] }
  | .load base offset width =>
    { address, kind := some .load, operands := [base], offset := some offset, width := some width }
  | .store base offset width value =>
    { address, kind := some .store, operands := [base, value], offset := some offset,
      width := some width }
  | .index base subscript offset stride width =>
    { address, kind := some .index, operands := [base, subscript], offset := some offset,
      stride := some stride, width := some width }
  | .advance .add operand step width =>
    { address, kind := some .add, operands := [operand], step := some step, width := some width }
  | .advance .sub operand step width =>
    { address, kind := some .sub, operands := [operand], step := some step, width := some width }
  | .compare operator lhs rhs =>
    { address, kind := some .compare, operands := [lhs, rhs], comparison := some operator }
  | .bitwise operator lhs rhs width =>
    { address, kind := some .bitwise, operands := [lhs, rhs], bitOperator := some operator,
      width := some width }
  | .call target args resultUsed =>
    { address, kind := some .call, operands := target :: args,
      argCount := some (Int64.ofNat args.length), resultUsed }

/-- The records written so far, and the address of the next one. -/
structure TraceBuilder where
  records : Array TraceRecord := #[]
  nextAddress : UInt64 := 0
  deriving Repr, Inhabited

namespace TraceBuilder

/-- Nothing is written. -/
def empty : TraceBuilder :=
  {}

/-- Set the address of the next record. -/
def setAddress (b : TraceBuilder) (address : UInt64) : TraceBuilder :=
  { b with nextAddress := address }

/-- Write a record; one without an address gets the next one. -/
def push (b : TraceBuilder) (r : TraceRecord) : TraceBuilder :=
  let address := if r.address = 0 then b.nextAddress else r.address
  { records := b.records.push { r with address }, nextAddress := address + 1 }

/-- The operand for the result of the last record. -/
def lastResult (b : TraceBuilder) : Operand :=
  .result (UInt64.ofNat (b.records.size - 1))

/-- Write an action. -/
def emit (b : TraceBuilder) (a : Action) : TraceBuilder :=
  b.push (a.toRecord b.nextAddress)

/-- Let the last record's result go to named storage. -/
def assign (b : TraceBuilder) (name : String) : TraceBuilder :=
  { b with
    records := b.records.modify (b.records.size - 1) fun r =>
      { r with destination := some (.storage name) } }

/-- Check what was written. -/
def build (b : TraceBuilder) : Except TraceError Trace :=
  Trace.ingest b.records.toList

end TraceBuilder

end TypeRecovery
