import TypeRecovery.DataType.Codec
import TypeRecovery.Shape.Basic

/-!
# Shapes as JSON

A shape is the name of its kind, with the shape's parts below that name if it has any.
-/

namespace TypeRecovery.Shape

mutual

/-- A shape as JSON. -/
def toJson : Shape → Json
  | .unknown => .string "unknown"
  | .boolean => .string "boolean"
  | .integer width sign =>
    Json.taggedRecord "integer" [("width", .ofNat width.toNat), ("sign", sign.toJson)]
  | .pointer => .string "pointer"
  | .code => .string "code"
  | .array element length =>
    Json.taggedRecord "array" [("element", toJson element), ("length", lengthToJson length)]
  | .aggregate size => Json.taggedRecord "aggregate" [("size", .ofNat size.toNat)]
  | .union alternatives => Json.tagged "union" (.array (listToJson alternatives))

/-- Each of a list of shapes as JSON. -/
def listToJson : List Shape → List Json
  | [] => []
  | s :: ss => toJson s :: listToJson ss

end

/-- Read the parts of an integer shape. -/
def integerDecoder : Decoder Shape :=
  .record ["width", "sign"] fun room members =>
    match members with
    | [width, sign] => do
      let width ← Decoder.required .uint8 room width
      let sign ← Decoder.required Signedness.decoder room sign
      return .integer width sign
    | _ => none

/-- Read the parts of an array shape. -/
def arrayDecoder (shape : Decoder Shape) : Decoder Shape :=
  .record ["element", "length"] fun room members =>
    match members with
    | [element, length] => do
      let element ← Decoder.required shape room element
      let length ← Decoder.optional .uint64 room length
      return .array element length
    | _ => none

/-- Read the parts of an aggregate shape. -/
def aggregateDecoder : Decoder Shape :=
  .record ["size"] fun room members =>
    match members with
    | [size] => (Decoder.required .uint64 room size).map .aggregate
    | _ => none

/-- Read a shape whose parts are nested less than `height` shapes deep. -/
def decoderBelow : (height : Nat) → Decoder Shape
  | 0 => fun _ _ => none
  | height + 1 =>
    let shape := decoderBelow height
    .choice fun room tag body =>
      match tag with
      | "unknown" => Decoder.plain .unknown body
      | "boolean" => Decoder.plain .boolean body
      | "integer" => Decoder.carrying integerDecoder room body
      | "pointer" => Decoder.plain .pointer body
      | "code" => Decoder.plain .code body
      | "array" => Decoder.carrying (arrayDecoder shape) room body
      | "aggregate" => Decoder.carrying aggregateDecoder room body
      | "union" => Decoder.carrying ((Decoder.list shape).map .union) room body
      | _ => none

/-- Read a shape. -/
def decoder : Decoder Shape :=
  decoderBelow (Decoder.depthLimit + 1)

end TypeRecovery.Shape
