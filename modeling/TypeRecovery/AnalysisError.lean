import TypeRecovery.Ident
import TypeRecovery.Trace.Codec

/-!
# Failures of an analysis
-/

namespace TypeRecovery

/-- Why an analysis or one of its steps failed. -/
inductive AnalysisError where
  /-- The trace cannot be used. -/
  | trace (error : TraceTextError)
  /-- Two classes were to be merged, one of which is finalized. -/
  | finalizedMerge (a b : ClassId)
  /-- A finalized class was to be changed. -/
  | finalizedClass (c : ClassId)
  | unknownVariable (v : VarId)
  | unknownClass (c : ClassId)
  /-- An access lies too far from the start of its segment for a signed offset. -/
  | addressOutOfRange (position : Nat) (address : UInt64)
  /-- Evidence mentions a variable that was never made. -/
  | unallocated (v : VarId)
  /-- A bounded array of elements was seen with a stride of zero. -/
  | zeroStride
  deriving DecidableEq, Repr

namespace TraceTextError

/-- The report of a failure; a text that holds no records is not described further. -/
def message : TraceTextError → String
  | .notRecords => "not a list of trace records"
  | .flawed error => error.message

end TraceTextError

/-- The report of a failure. -/
def AnalysisError.message : AnalysisError → String
  | .trace error => error.message
  | .finalizedMerge a b => "cannot merge " ++ a.text ++ " and " ++ b.text ++ ": class is finalized"
  | .finalizedClass c => "class " ++ c.text ++ " is finalized"
  | .unknownVariable v => "unknown type variable " ++ v.text
  | .unknownClass c => "unknown equivalence class " ++ c.text
  | .addressOutOfRange position address =>
    "address " ++ Hex.magnitude address.toNat ++ " at position " ++ Nat.repr position ++
      " is out of range"
  | .unallocated v => "evidence mentions " ++ v.text ++ ", which was never made"
  | .zeroStride => "a bounded array has a stride of zero"

end TypeRecovery
