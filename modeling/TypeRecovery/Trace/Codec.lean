import TypeRecovery.Json.Decoder
import TypeRecovery.Json.Reader
import TypeRecovery.Trace.Record

/-!
# Traces as JSON

The exchange format of records: an array of objects, in which a missing optional field is left out.
-/

namespace TypeRecovery

namespace Operand

/-- An operand as JSON. -/
def toJson : Operand → Json
  | .storage name => Json.tagged "storage" (.string name)
  | .literal value width =>
    Json.taggedRecord "literal" [("value", .integer value.toInt), ("width", .ofNat width.toNat)]
  | .address place => Json.tagged "address" (.ofNat place.toNat)
  | .result position => Json.tagged "result" (.ofNat position.toNat)

/-- Read the value and the width of a literal. -/
def literalDecoder : Decoder Operand :=
  .record ["value", "width"] fun room members =>
    match members with
    | [value, width] => do
      let value ← Decoder.required .int64 room value
      let width ← Decoder.required .uint8 room width
      return .literal value width
    | _ => none

/-- Read an operand. -/
def decoder : Decoder Operand :=
  .choice fun room tag body =>
    match tag with
    | "storage" => Decoder.carrying (Decoder.string.map .storage) room body
    | "literal" => Decoder.carrying literalDecoder room body
    | "address" => Decoder.carrying (Decoder.uint64.map .address) room body
    | "result" => Decoder.carrying (Decoder.uint64.map .result) room body
    | _ => none

end Operand

namespace Comparison

/-- The name of an operator. -/
def name : Comparison → String
  | .eq => "eq"
  | .ne => "ne"
  | .lt => "lt"
  | .le => "le"
  | .gt => "gt"
  | .ge => "ge"
  | .ult => "ult"
  | .ule => "ule"
  | .ugt => "ugt"
  | .uge => "uge"

/-- Every operator. -/
def all : List Comparison :=
  [.eq, .ne, .lt, .le, .gt, .ge, .ult, .ule, .ugt, .uge]

def toJson (c : Comparison) : Json :=
  .string c.name

def decoder : Decoder Comparison :=
  .oneOf (all.map fun c => (c.name, c))

end Comparison

namespace BitOperator

/-- The name of an operator. -/
def name : BitOperator → String
  | .and => "and"
  | .or => "or"
  | .xor => "xor"

/-- Every operator. -/
def all : List BitOperator :=
  [.and, .or, .xor]

def toJson (b : BitOperator) : Json :=
  .string b.name

def decoder : Decoder BitOperator :=
  .oneOf (all.map fun b => (b.name, b))

end BitOperator

namespace RecordKind

/-- The name of a kind of record. -/
def name : RecordKind → String
  | .literal => "literal"
  | .copy => "copy"
  | .load => "load"
  | .store => "store"
  | .index => "index"
  | .add => "add"
  | .sub => "sub"
  | .compare => "compare"
  | .bitwise => "bitwise"
  | .call => "call"

/-- Every kind of record. -/
def all : List RecordKind :=
  [.literal, .copy, .load, .store, .index, .add, .sub, .compare, .bitwise, .call]

def toJson (k : RecordKind) : Json :=
  .string k.name

def decoder : Decoder RecordKind :=
  .oneOf (all.map fun k => (k.name, k))

end RecordKind

namespace TraceRecord

/-- The fields of a record, in order. -/
def keys : List String :=
  ["address", "kind", "operands", "offset", "width", "stride", "step", "value", "cmp", "bit",
    "arg_count", "result_used", "dst"]

/-- A record as JSON. -/
def toJson (r : TraceRecord) : Json :=
  .object <|
    [("address", .ofNat r.address.toNat),
      ("kind", .ofOption RecordKind.toJson r.kind),
      ("operands", .ofList Operand.toJson r.operands)] ++
    Json.memberIfSome "offset" (fun i => .integer i.toInt) r.offset ++
    Json.memberIfSome "width" (fun n => .ofNat n.toNat) r.width ++
    Json.memberIfSome "stride" (fun n => .ofNat n.toNat) r.stride ++
    Json.memberIfSome "step" (fun i => .integer i.toInt) r.step ++
    Json.memberIfSome "value" (fun i => .integer i.toInt) r.value ++
    Json.memberIfSome "cmp" Comparison.toJson r.comparison ++
    Json.memberIfSome "bit" BitOperator.toJson r.bitOperator ++
    Json.memberIfSome "arg_count" (fun i => .integer i.toInt) r.argCount ++
    [("result_used", .bool r.resultUsed)] ++
    Json.memberIfSome "dst" Operand.toJson r.destination

/-- Read a record, every field of which may be missing. -/
def decoder : Decoder TraceRecord :=
  .record keys fun room members =>
    match members with
    | [address, kind, operands, offset, width, stride, step, value, comparison, bitOperator,
        argCount, resultUsed, destination] => do
      let address ← Decoder.defaulted .uint64 0 room address
      let kind ← Decoder.defaulted (.option RecordKind.decoder) none room kind
      let operands ← Decoder.defaulted (.list Operand.decoder) [] room operands
      let offset ← Decoder.defaulted (.option .int64) none room offset
      let width ← Decoder.defaulted (.option .uint8) none room width
      let stride ← Decoder.defaulted (.option .uint32) none room stride
      let step ← Decoder.defaulted (.option .int64) none room step
      let value ← Decoder.defaulted (.option .int64) none room value
      let comparison ← Decoder.defaulted (.option Comparison.decoder) none room comparison
      let bitOperator ← Decoder.defaulted (.option BitOperator.decoder) none room bitOperator
      let argCount ← Decoder.defaulted (.option .int64) none room argCount
      let resultUsed ← Decoder.defaulted .bool false room resultUsed
      let destination ← Decoder.defaulted (.option Operand.decoder) none room destination
      return { address, kind, operands, offset, width, stride, step, value, comparison,
               bitOperator, argCount, resultUsed, destination }
    | _ => none

/-- Read a list of records. -/
def listDecoder : Decoder (List TraceRecord) :=
  .list decoder

/-- A list of records as JSON. -/
def listToJson (rs : List TraceRecord) : Json :=
  .ofList toJson rs

end TraceRecord

/-- Why a text is not a trace. -/
inductive TraceTextError where
  /-- It is not a JSON array of records. -/
  | notRecords
  /-- One of its records is flawed. -/
  | flawed (error : TraceError)
  deriving DecidableEq, Repr

/-- Check the records of a JSON value. -/
def Trace.ofJson (j : Json) : Except TraceTextError Trace :=
  match TraceRecord.listDecoder.run j with
  | none => .error .notRecords
  | some records => (Trace.ingest records).mapError .flawed

/-- Check the records of a JSON text. -/
def Trace.ofText (text : String) : Except TraceTextError Trace :=
  match Json.read text with
  | none => .error .notRecords
  | some j => Trace.ofJson j

end TypeRecovery
