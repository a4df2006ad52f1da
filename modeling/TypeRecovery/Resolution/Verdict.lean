import TypeRecovery.DataType.Join
import TypeRecovery.Resolution.Evidence
import TypeRecovery.Resolution.Inquiry
import TypeRecovery.Resolution.Layout

/-!
# Verdicts

The type that the evidence of a class calls for, the most specific evidence first: calls make a
function, accesses an aggregate, then pointers, widths, booleans and counters, and no evidence at
all makes `void`.
-/

namespace TypeRecovery

namespace Inquiry

/-! ## Aggregates -/

/-- The type of a value in an aggregate. A value of which nothing is known is an integer, and so is
one that would contain the aggregate. -/
def accessedType (c : ClassId) (offset : Int64) (width : UInt8) (v : VarId) : Inquiry DataType := do
  match ← typeOf v with
  | some .void => return .word width
  | some t => return t
  | none =>
    leave (.recursiveLayout c offset)
    return .word width

/-- The accesses without those to a part that was accessed before. -/
def firstAccesses {α κ : Type} [DecidableEq κ] (key : α → κ) : List α → List α
  | [] => []
  | x :: xs => x :: (firstAccesses key xs).filter (fun y => decide (key y ≠ key x))

/-- Find the type of an access at a fixed offset. -/
def fieldType (c : ClassId) (access : FieldAccess) : Inquiry TypedAccess := do
  let type ← accessedType c access.offset access.width access.value
  return ⟨access.offset, access.width, type⟩

/-- Find the type of the elements that are accessed at a variable index. -/
def elementType (c : ClassId) (access : ElementAccess) : Inquiry Row := do
  let type ← accessedType c access.offset access.width access.value
  return ⟨access.offset, Row.elementType access.stride access.width type, access.stride⟩

/-- The type of a class that is accessed in parts. -/
def aggregateType (config : Config) (c : ClassId) (evidence : Evidence) : Inquiry DataType := do
  let fields ← (firstAccesses FieldAccess.key evidence.fields).mapM (fieldType c)
  let rows ← (firstAccesses ElementAccess.key evidence.elements).mapM (elementType c)
  let aggregate : Aggregate := ⟨Slot.ofAccesses fields, rows, evidence.extent⟩
  if Layout.dividesByZero aggregate then fail .zeroStride
  let synthesis := Layout.synthesize config c aggregate
  leaveAll synthesis.remarks
  return synthesis.type

/-! ## Functions -/

/-- The type of an argument or a result; nothing is known of one that is still being found. -/
def passedType (v : VarId) : Inquiry DataType := do
  return (← typeOf v).getD .void

/-- The type of the parameter at an index, which joins what the calls pass for it. A union that no
call passes as such is a conflict. -/
def paramType (c : ClassId) (sites : List CallSite) (index : Nat) : Inquiry DataType := do
  let passed ← (sites.filterMap fun site => site.args[index]?).mapM passedType
  let param := DataType.joinAll passed
  if param.isUnion && !passed.contains param then leave (.paramConflict c index)
  return param

/-- The type of a class that is called: the results that are used are joined, and so are the
arguments, position by position, if all calls pass equally many. -/
def functionType (c : ClassId) (sites : List CallSite) : Inquiry DataType := do
  let results ← (sites.filterMap (·.result)).mapM passedType
  let result := DataType.joinAll results
  match Ascending.distinct (sites.map fun site => site.args.length) with
  | [] => return .function [] result false
  | [arity] =>
    let params ← (List.range arity).mapM (paramType c sites)
    return .function params result false
  | arities =>
    leave (.divergentArity c arities)
    return .function [] result true

/-! ## Scalars and pointers -/

/-- The integer that the evidence calls for, as wide as a word if it does not tell. -/
def integerType (config : Config) (evidence : Evidence) : DataType :=
  .integer (evidence.width.getD config.wordWidth) evidence.sign

/-- The type of a class that is dereferenced. Evidence for a scalar makes a union, with the kind
that was seen first in front. -/
def pointerType (config : Config) (c : ClassId) (evidence : Evidence) (seen : Sighting)
    (target : VarId) : Inquiry DataType := do
  let pointer := DataType.pointer (← classOf target)
  match evidence.steps.find? fun step => decide (1 < step.toInt.natAbs) with
  | some step => leave (.stridedPointer c step)
  | none => pure ()
  match evidence.strongScalar with
  | some scalar =>
    leave (.kindConflict c scalar.position seen.position)
    let integer := integerType config evidence
    return .union (if scalar.seq < seen.seq then [integer, pointer] else [pointer, integer])
  | none => return pointer

/-- The type of a class that is never dereferenced. -/
def scalarType (config : Config) (evidence : Evidence) : DataType :=
  if evidence.width.isSome then integerType config evidence
  else if evidence.boolean then .boolean
  else if evidence.counter || !evidence.steps.isEmpty || evidence.signed || evidence.unsigned then
    integerType config evidence
  else .void

/-! ## All classes -/

/-- The type that the evidence of a class calls for. -/
def verdict (config : Config) (c : ClassId) (evidence : Evidence) : Inquiry DataType := do
  if !evidence.callSites.isEmpty then
    if evidence.isAggregate then leave (.mixedCodeData c)
    functionType c evidence.callSites
  else if evidence.isAggregate then aggregateType config c evidence
  else match evidence.pointer with
    | some (seen, target) => pointerType config c evidence seen target
    | none => return scalarType config evidence

end Inquiry

end TypeRecovery
