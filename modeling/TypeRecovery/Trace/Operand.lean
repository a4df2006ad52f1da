import TypeRecovery.Text.Hex

/-!
# Operands and operators

What the operations of a trace read, and the operators that combine it.
-/

namespace TypeRecovery

/-- What an operation reads. -/
inductive Operand where
  /-- Named storage: a register, an identifier, a stack slot. -/
  | storage (name : String)
  /-- A constant of `width` bytes. -/
  | literal (value : Int64) (width : UInt8)
  /-- A fixed address. -/
  | address (place : UInt64)
  /-- The result of the operation at an earlier position of the trace. -/
  | result (position : UInt64)
  deriving DecidableEq, Repr, Inhabited

namespace Operand

def isLiteral : Operand → Bool
  | .literal .. => true
  | _ => false

/-- How an operand is written. -/
def text : Operand → String
  | .storage name => name
  | .literal value _ => Hex.signed value.toInt
  | .address place => "@" ++ Hex.magnitude place.toNat
  | .result position => "%" ++ Nat.repr position.toNat

end Operand

/-- Comparison operators; those with a `u` compare without sign. -/
inductive Comparison where
  | eq | ne | lt | le | gt | ge | ult | ule | ugt | uge
  deriving DecidableEq, Repr, Inhabited

namespace Comparison

/-- Whether the operator takes its operands for signed numbers, if it tells. -/
def signed? : Comparison → Option Bool
  | .eq | .ne => none
  | .lt | .le | .gt | .ge => some true
  | .ult | .ule | .ugt | .uge => some false

/-- How the operator is written. -/
def symbol : Comparison → String
  | .eq => "=="
  | .ne => "!="
  | .lt | .ult => "<"
  | .le | .ule => "<="
  | .gt | .ugt => ">"
  | .ge | .uge => ">="

end Comparison

/-- Bitwise operators. -/
inductive BitOperator where
  | and | or | xor
  deriving DecidableEq, Repr, Inhabited

/-- How the operator is written. -/
def BitOperator.symbol : BitOperator → String
  | .and => "&"
  | .or => "|"
  | .xor => "^"

/-- The direction in which an operand is advanced. -/
inductive Direction where
  | add | sub
  deriving DecidableEq, Repr, Inhabited

/-- How the direction is written. -/
def Direction.symbol : Direction → String
  | .add => "+"
  | .sub => "-"

end TypeRecovery
