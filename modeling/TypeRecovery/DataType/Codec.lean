import TypeRecovery.DataType.Basic
import TypeRecovery.Json.Decoder

/-!
# Identifiers and types as JSON

An identifier is its number. A type is the name of its kind, with the type's parts below that name
if it has any; the sign of an integer and the flags of fields and functions may be left out.
-/

namespace TypeRecovery

def VarId.toJson (v : VarId) : Json :=
  .ofNat v.index

def VarId.decoder : Decoder VarId :=
  (Decoder.nat UInt32.size).map VarId.mk

def ClassId.toJson (c : ClassId) : Json :=
  .ofNat c.index

def ClassId.decoder : Decoder ClassId :=
  (Decoder.nat UInt32.size).map ClassId.mk

namespace Signedness

/-- The name of a sign. -/
def name : Signedness → String
  | .unknown => "unknown"
  | .signed => "signed"
  | .unsigned => "unsigned"

/-- Every sign. -/
def all : List Signedness :=
  [.unknown, .signed, .unsigned]

def toJson (s : Signedness) : Json :=
  .string s.name

def decoder : Decoder Signedness :=
  .oneOf (all.map fun s => (s.name, s))

end Signedness

/-- The length of an array as JSON. -/
def lengthToJson (length : Option UInt64) : Json :=
  .ofOption (fun n => .ofNat n.toNat) length

namespace DataType

mutual

/-- A type as JSON. -/
def toJson : DataType → Json
  | .void => .string "void"
  | .boolean => .string "boolean"
  | .integer width sign =>
    Json.taggedRecord "integer" [("width", .ofNat width.toNat), ("sign", sign.toJson)]
  | .pointer target => Json.tagged "pointer" target.toJson
  | .array element length =>
    Json.taggedRecord "array" [("element", toJson element), ("length", lengthToJson length)]
  | .struct size fields =>
    Json.taggedRecord "struct"
      [("size", .ofNat size.toNat), ("fields", .array (fieldsToJson fields))]
  | .union alternatives =>
    Json.taggedRecord "union" [("alternatives", .array (listToJson alternatives))]
  | .function params result untyped =>
    Json.taggedRecord "function"
      ([("params", .array (listToJson params)), ("ret", toJson result)] ++
        Json.memberIfTrue "untyped" untyped)

/-- Each of a list of types as JSON. -/
def listToJson : List DataType → List Json
  | [] => []
  | t :: ts => toJson t :: listToJson ts

/-- Each of a list of fields as JSON. -/
def fieldsToJson : List (Field DataType) → List Json
  | [] => []
  | ⟨offset, type, padding⟩ :: fields =>
    .object ([("offset", .integer offset.toInt), ("ty", toJson type)] ++
      Json.memberIfTrue "padding" padding) :: fieldsToJson fields

end

/-- A field as JSON. -/
def fieldToJson (field : Field DataType) : Json :=
  .object ([("offset", .integer field.offset.toInt), ("ty", toJson field.type)] ++
    Json.memberIfTrue "padding" field.padding)

/-- Read the parts of an integer type. -/
def integerDecoder : Decoder DataType :=
  .record ["width", "sign"] fun room members =>
    match members with
    | [width, sign] => do
      let width ← Decoder.required .uint8 room width
      let sign ← Decoder.defaulted Signedness.decoder .unknown room sign
      return .integer width sign
    | _ => none

/-- Read the parts of an array type. -/
def arrayDecoder (type : Decoder DataType) : Decoder DataType :=
  .record ["element", "length"] fun room members =>
    match members with
    | [element, length] => do
      let element ← Decoder.required type room element
      let length ← Decoder.optional .uint64 room length
      return .array element length
    | _ => none

/-- Read a field. -/
def fieldDecoder (type : Decoder DataType) : Decoder (Field DataType) :=
  .record ["offset", "ty", "padding"] fun room members =>
    match members with
    | [offset, fieldType, padding] => do
      let offset ← Decoder.required .int64 room offset
      let fieldType ← Decoder.required type room fieldType
      let padding ← Decoder.defaulted .bool false room padding
      return ⟨offset, fieldType, padding⟩
    | _ => none

/-- Read the parts of a structure type. -/
def structDecoder (type : Decoder DataType) : Decoder DataType :=
  .record ["size", "fields"] fun room members =>
    match members with
    | [size, fields] => do
      let size ← Decoder.required .uint64 room size
      let fields ← Decoder.required (.list (fieldDecoder type)) room fields
      return .struct size fields
    | _ => none

/-- Read the parts of a union type. -/
def unionDecoder (type : Decoder DataType) : Decoder DataType :=
  .record ["alternatives"] fun room members =>
    match members with
    | [alternatives] => (Decoder.required (.list type) room alternatives).map .union
    | _ => none

/-- Read the parts of a function type. -/
def functionDecoder (type : Decoder DataType) : Decoder DataType :=
  .record ["params", "ret", "untyped"] fun room members =>
    match members with
    | [params, result, untyped] => do
      let params ← Decoder.required (.list type) room params
      let result ← Decoder.required type room result
      let untyped ← Decoder.defaulted .bool false room untyped
      return .function params result untyped
    | _ => none

/-- Read a type whose parts are nested less than `height` types deep. -/
def decoderBelow : (height : Nat) → Decoder DataType
  | 0 => fun _ _ => none
  | height + 1 =>
    let type := decoderBelow height
    .choice fun room tag body =>
      match tag with
      | "void" => Decoder.plain .void body
      | "boolean" => Decoder.plain .boolean body
      | "integer" => Decoder.carrying integerDecoder room body
      | "pointer" => Decoder.carrying (ClassId.decoder.map .pointer) room body
      | "array" => Decoder.carrying (arrayDecoder type) room body
      | "struct" => Decoder.carrying (structDecoder type) room body
      | "union" => Decoder.carrying (unionDecoder type) room body
      | "function" => Decoder.carrying (functionDecoder type) room body
      | _ => none

/-- Read a type. Each type within a type is a level of nesting deeper, so types never nest deeper
than a text may. -/
def decoder : Decoder DataType :=
  decoderBelow (Decoder.depthLimit + 1)

end DataType

end TypeRecovery
