import TypeRecovery.AnalysisError
import TypeRecovery.Remark

/-!
# Inquiries

How a verdict is reached, apart from who answers its questions. An inquiry asks for the types and
the classes of variables, leaves remarks on the way, and ends with an answer or with a failure. The
same inquiry can be answered from types that are known, or by finding them first.
-/

namespace TypeRecovery

/-- A computation that may ask for the types and classes of variables. -/
inductive Inquiry (α : Type) where
  /-- The inquiry is over. -/
  | answer (result : α)
  /-- The inquiry cannot go on. -/
  | failure (error : AnalysisError)
  /-- Leave a remark. -/
  | remark (content : Remark) (next : Inquiry α)
  /-- Ask for the type of a variable. There is none while it is still being found. -/
  | askType (v : VarId) (next : Option DataType → Inquiry α)
  /-- Ask for the class of a variable. -/
  | askClass (v : VarId) (next : ClassId → Inquiry α)

namespace Inquiry

variable {α β : Type}

/-- Go on with the answer of an inquiry. -/
def bind (x : Inquiry α) (f : α → Inquiry β) : Inquiry β :=
  match x with
  | .answer a => f a
  | .failure e => .failure e
  | .remark n next => .remark n (next.bind f)
  | .askType v next => .askType v fun t => (next t).bind f
  | .askClass v next => .askClass v fun c => (next c).bind f

instance : Monad Inquiry where
  pure := .answer
  bind := bind

/-- The type of a variable, if it is not still being found. -/
def typeOf (v : VarId) : Inquiry (Option DataType) :=
  .askType v .answer

/-- The class of a variable. -/
def classOf (v : VarId) : Inquiry ClassId :=
  .askClass v .answer

/-- Leave a remark. -/
def leave (n : Remark) : Inquiry Unit :=
  .remark n (.answer ())

/-- Leave remarks, in order. -/
def leaveAll (remarks : List Remark) : Inquiry Unit :=
  remarks.forM leave

/-- Give up. -/
def fail (e : AnalysisError) : Inquiry α :=
  .failure e

end Inquiry

end TypeRecovery
