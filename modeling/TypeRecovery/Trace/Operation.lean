import TypeRecovery.Trace.Operand

/-!
# Operations

The low-level operations that make up a trace. The position of an operation in its trace doubles as
its time stamp.
-/

namespace TypeRecovery

/-- What an operation does. -/
inductive Action where
  /-- Produce a constant. -/
  | literal (value : Int64) (width : UInt8)
  /-- Copy a value. -/
  | copy (source : Operand)
  /-- Read `width` bytes at `base + offset`. -/
  | load (base : Operand) (offset : Int64) (width : UInt8)
  /-- Write the `width` bytes of `value` to `base + offset`. -/
  | store (base : Operand) (offset : Int64) (width : UInt8) (value : Operand)
  /-- Read `width` bytes at `base + offset + subscript * stride`. -/
  | index (base subscript : Operand) (offset : Int64) (stride : UInt32) (width : UInt8)
  /-- Move `operand` by `step`. -/
  | advance (direction : Direction) (operand : Operand) (step : Int64) (width : UInt8)
  /-- Compare two values, which gives a boolean. -/
  | compare (operator : Comparison) (lhs rhs : Operand)
  /-- Combine two values bit by bit. -/
  | bitwise (operator : BitOperator) (lhs rhs : Operand) (width : UInt8)
  /-- Call through `target`. -/
  | call (target : Operand) (args : List Operand) (resultUsed : Bool)
  deriving DecidableEq, Repr, Inhabited

namespace Action

/-- Whether the operation produces a value: all but a store do. -/
def hasResult : Action → Bool
  | .store .. => false
  | _ => true

/-- The operands that are read, in order. -/
def reads : Action → List Operand
  | .literal .. => []
  | .copy source => [source]
  | .load base _ _ => [base]
  | .store base _ _ value => [base, value]
  | .index base subscript _ _ _ => [base, subscript]
  | .advance _ operand _ _ => [operand]
  | .compare _ lhs rhs => [lhs, rhs]
  | .bitwise _ lhs rhs _ => [lhs, rhs]
  | .call target args _ => target :: args

/-- How a displacement is written; none is written for zero. -/
def offsetText (offset : Int64) : String :=
  if offset = 0 then ""
  else if offset < 0 then " - " ++ Hex.magnitude offset.toInt.natAbs
  else " + " ++ Hex.magnitude offset.toInt.natAbs

/-- How a memory access is written. -/
def memoryText (address : String) (offset : Int64) (width : UInt8) : String :=
  "Mem[" ++ address ++ offsetText offset ++ "]:" ++ Nat.repr width.toNat

/-- How an operation is written. -/
def text : Action → String
  | .literal value width => (Operand.literal value width).text
  | .copy source => source.text
  | .load base offset width => memoryText base.text offset width
  | .store base offset width value => memoryText base.text offset width ++ " = " ++ value.text
  | .index base subscript offset stride width =>
    memoryText (base.text ++ " + " ++ subscript.text ++ " * " ++ Nat.repr stride.toNat) offset width
  | .advance direction operand step _ =>
    operand.text ++ " " ++ direction.symbol ++ " " ++ Hex.pattern step
  | .compare operator lhs rhs => lhs.text ++ " " ++ operator.symbol ++ " " ++ rhs.text
  | .bitwise operator lhs rhs _ => lhs.text ++ " " ++ operator.symbol ++ " " ++ rhs.text
  | .call target args _ => target.text ++ "(" ++ ", ".intercalate (args.map Operand.text) ++ ")"

end Action

/-- An operation at its place in a trace. -/
structure Operation where
  position : Nat
  /-- The address of the instruction that the operation comes from. -/
  address : UInt64
  action : Action
  /-- The storage that receives the result. -/
  destination : Option String
  deriving DecidableEq, Repr, Inhabited

/-- The operations of one function, in order. -/
structure Trace where
  operations : List Operation
  deriving DecidableEq, Repr, Inhabited

end TypeRecovery
