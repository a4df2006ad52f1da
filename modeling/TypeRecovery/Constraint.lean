import TypeRecovery.DataType.Codec

/-!
# Constraints

Evidence about the representation of a value. A constraint belongs to the class of its subject and
moves along when classes merge. It carries the position in the trace that it comes from, and a
sequence number that orders the constraints of a class however the class was put together.
-/

namespace TypeRecovery

/-- An access to a fixed offset of an aggregate. -/
structure FieldAccess where
  offset : Int64
  width : UInt8
  /-- The variable of the value that is read or written. -/
  value : VarId
  deriving DecidableEq, Repr, Inhabited

/-- An access to an aggregate at a variable index. -/
structure ElementAccess where
  offset : Int64
  stride : UInt32
  width : UInt8
  /-- The variable of the value that is read. -/
  value : VarId
  deriving DecidableEq, Repr, Inhabited

/-- A call. -/
structure CallSite where
  args : List VarId
  /-- The variable of the result, unless the caller discards it. -/
  result : Option VarId
  deriving DecidableEq, Repr, Inhabited

/-- What a constraint says of its subject. -/
inductive Fact where
  /-- Accessed or produced with this width. -/
  | size (width : UInt8)
  /-- Holds a literal other than zero. -/
  | constant (width : UInt8)
  /-- Takes part in a bitwise operation. -/
  | bitwise (width : UInt8)
  /-- Is compared with a literal. -/
  | discriminant (width : UInt8)
  /-- Takes part in a comparison of order. -/
  | ordered (signed : Bool)
  /-- Is the result of a comparison. -/
  | boolean
  /-- Is dereferenced or called; `target` is what it points into. -/
  | pointsTo (target : VarId)
  /-- Is advanced by a step. -/
  | step (size : Int64)
  /-- Is used as an index. -/
  | counter
  /-- Is accessed at a fixed offset through a pointer. -/
  | field (access : FieldAccess)
  /-- Is accessed at a variable index through a pointer. -/
  | element (access : ElementAccess)
  /-- Has this size as a whole. -/
  | extent (size : UInt64)
  /-- Is called. -/
  | callSite (site : CallSite)
  deriving DecidableEq, Repr, Inhabited

namespace Fact

/-- The width that the fact implies for a scalar. -/
def scalarWidth? : Fact → Option UInt8
  | .size w | .constant w | .bitwise w | .discriminant w => some w
  | _ => none

/-- Whether the fact rules out a pointer. -/
def isStrongScalar : Fact → Bool
  | .constant _ | .bitwise _ => true
  | _ => false

/-- Whether the fact is about a part of an aggregate. -/
def isAggregate : Fact → Bool
  | .field _ | .element _ => true
  | _ => false

/-- What the subject points into. -/
def target? : Fact → Option VarId
  | .pointsTo target => some target
  | _ => none

/-- A short name. -/
def name : Fact → String
  | .size _ => "size"
  | .constant _ => "constant"
  | .bitwise _ => "bitwise"
  | .discriminant _ => "discriminant"
  | .ordered _ => "ordered"
  | .boolean => "boolean"
  | .pointsTo _ => "points-to"
  | .step _ => "step"
  | .counter => "counter"
  | .field _ => "field"
  | .element _ => "element"
  | .extent _ => "extent"
  | .callSite _ => "call-site"

/-- A fact as JSON. -/
def toJson : Fact → Json
  | .size w => Json.taggedRecord "size" [("width", .ofNat w.toNat)]
  | .constant w => Json.taggedRecord "constant" [("width", .ofNat w.toNat)]
  | .bitwise w => Json.taggedRecord "bitwise" [("width", .ofNat w.toNat)]
  | .discriminant w => Json.taggedRecord "discriminant" [("width", .ofNat w.toNat)]
  | .ordered signed => Json.taggedRecord "ordered" [("signed", .bool signed)]
  | .boolean => .string "boolean"
  | .pointsTo target => Json.taggedRecord "points_to" [("target", target.toJson)]
  | .step n => Json.taggedRecord "step" [("size", .integer n.toInt)]
  | .counter => .string "counter"
  | .field access =>
    Json.taggedRecord "field" [("offset", .integer access.offset.toInt),
      ("width", .ofNat access.width.toNat), ("value", access.value.toJson)]
  | .element access =>
    Json.taggedRecord "element" [("offset", .integer access.offset.toInt),
      ("stride", .ofNat access.stride.toNat), ("width", .ofNat access.width.toNat),
      ("value", access.value.toJson)]
  | .extent n => Json.taggedRecord "extent" [("size", .ofNat n.toNat)]
  | .callSite site =>
    Json.taggedRecord "call_site"
      [("args", .ofList VarId.toJson site.args), ("ret", .ofOption VarId.toJson site.result)]

/-- Read a record with one member. -/
def oneMember {α : Type} (key : String) (d : Decoder α) (build : α → Fact) : Decoder Fact :=
  .record [key] fun room members =>
    match members with
    | [member] => (Decoder.required d room member).map build
    | _ => none

/-- Read an access to a field. -/
def fieldDecoder : Decoder Fact :=
  .record ["offset", "width", "value"] fun room members =>
    match members with
    | [offset, width, value] => do
      let offset ← Decoder.required .int64 room offset
      let width ← Decoder.required .uint8 room width
      let value ← Decoder.required VarId.decoder room value
      return .field { offset, width, value }
    | _ => none

/-- Read an access to an element. -/
def elementDecoder : Decoder Fact :=
  .record ["offset", "stride", "width", "value"] fun room members =>
    match members with
    | [offset, stride, width, value] => do
      let offset ← Decoder.required .int64 room offset
      let stride ← Decoder.required .uint32 room stride
      let width ← Decoder.required .uint8 room width
      let value ← Decoder.required VarId.decoder room value
      return .element { offset, stride, width, value }
    | _ => none

/-- Read a call. -/
def callSiteDecoder : Decoder Fact :=
  .record ["args", "ret"] fun room members =>
    match members with
    | [args, result] => do
      let args ← Decoder.required (.list VarId.decoder) room args
      let result ← Decoder.optional VarId.decoder room result
      return .callSite { args, result }
    | _ => none

/-- Read a fact. -/
def decoder : Decoder Fact :=
  .choice fun room tag body =>
    match tag with
    | "size" => Decoder.carrying (oneMember "width" .uint8 .size) room body
    | "constant" => Decoder.carrying (oneMember "width" .uint8 .constant) room body
    | "bitwise" => Decoder.carrying (oneMember "width" .uint8 .bitwise) room body
    | "discriminant" => Decoder.carrying (oneMember "width" .uint8 .discriminant) room body
    | "ordered" => Decoder.carrying (oneMember "signed" .bool .ordered) room body
    | "boolean" => Decoder.plain .boolean body
    | "points_to" => Decoder.carrying (oneMember "target" VarId.decoder .pointsTo) room body
    | "step" => Decoder.carrying (oneMember "size" .int64 .step) room body
    | "counter" => Decoder.plain .counter body
    | "field" => Decoder.carrying fieldDecoder room body
    | "element" => Decoder.carrying elementDecoder room body
    | "extent" => Decoder.carrying (oneMember "size" .uint64 .extent) room body
    | "call_site" => Decoder.carrying callSiteDecoder room body
    | _ => none

end Fact

/-- A piece of evidence about one variable. -/
structure Constraint where
  /-- The position in the trace that the evidence comes from. -/
  position : Nat
  /-- The place in the order in which all constraints were added. -/
  seq : Nat
  subject : VarId
  fact : Fact
  deriving DecidableEq, Repr, Inhabited

namespace Constraint

/-- A constraint as JSON. -/
def toJson (c : Constraint) : Json :=
  .object [("position", .ofNat c.position), ("seq", .ofNat c.seq), ("subject", c.subject.toJson),
    ("kind", c.fact.toJson)]

/-- Read a constraint. -/
def decoder : Decoder Constraint :=
  .record ["position", "seq", "subject", "kind"] fun room members =>
    match members with
    | [position, seq, subject, fact] => do
      let position ← Decoder.required .count room position
      let seq ← Decoder.required .count room seq
      let subject ← Decoder.required VarId.decoder room subject
      let fact ← Decoder.required Fact.decoder room fact
      return { position, seq, subject, fact }
    | _ => none

end Constraint

end TypeRecovery
