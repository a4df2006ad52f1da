import TypeRecovery.Ascending
import TypeRecovery.DataType.Codec
import TypeRecovery.Text.Hex

/-!
# Remarks

Remarks on conflicts and ambiguities that an analysis met and settled. They never stop it; they tell
how far a type can be trusted.
-/

namespace TypeRecovery

/-- A remark on one class. -/
inductive Remark where
  /-- There is evidence for a scalar and for a pointer; the type is their union. -/
  | kindConflict (about : ClassId) (scalarAt pointerAt : Nat)
  /-- Several types were accessed at one offset. -/
  | fieldUnion (about : ClassId) (offset : Int64) (alternatives : Nat)
  /-- Two fields that start at different offsets overlap. -/
  | overlappingFields (about : ClassId) (first second : Int64)
  /-- A field would contain its own aggregate by value. -/
  | recursiveLayout (about : ClassId) (offset : Int64)
  /-- Calls disagree on the number of arguments. -/
  | divergentArity (about : ClassId) (arities : List Nat)
  /-- Calls pass conflicting types for one parameter. -/
  | paramConflict (about : ClassId) (index : Nat)
  /-- The class is both called and accessed as data. -/
  | mixedCodeData (about : ClassId)
  /-- There is no evidence about a variable that has no name. -/
  | unassigned (unknown : VarId) (about : ClassId)
  /-- A pointer is advanced by more than one byte at a time. -/
  | stridedPointer (about : ClassId) (step : Int64)
  deriving DecidableEq, Repr, Inhabited

namespace Remark

/-- The class that the remark is about. -/
def subject : Remark → ClassId
  | .kindConflict c _ _ | .fieldUnion c _ _ | .overlappingFields c _ _ | .recursiveLayout c _
  | .divergentArity c _ | .paramConflict c _ | .mixedCodeData c | .unassigned _ c
  | .stridedPointer c _ => c

/-! ## Order -/

/-- The place of a remark's kind among the kinds. -/
def rank : Remark → Nat
  | .kindConflict .. => 0
  | .fieldUnion .. => 1
  | .overlappingFields .. => 2
  | .recursiveLayout .. => 3
  | .divergentArity .. => 4
  | .paramConflict .. => 5
  | .mixedCodeData .. => 6
  | .unassigned .. => 7
  | .stridedPointer .. => 8

/-- What a remark says beyond its class and its kind. -/
def details : Remark → List Int
  | .kindConflict _ scalarAt pointerAt => [scalarAt, pointerAt]
  | .fieldUnion _ offset alternatives => [offset.toInt, alternatives]
  | .overlappingFields _ first second => [first.toInt, second.toInt]
  | .recursiveLayout _ offset => [offset.toInt]
  | .divergentArity _ arities => arities.map Int.ofNat
  | .paramConflict _ index => [index]
  | .mixedCodeData _ => []
  | .unassigned unknown _ => [unknown.index]
  | .stridedPointer _ step => [step.toInt]

/-- Remarks are ordered by class, then by kind, then by what they say. -/
def sortKey (remark : Remark) : List Int :=
  remark.subject.index :: remark.rank :: remark.details

/-- The remarks in order. -/
def sort (remarks : List Remark) : List Remark :=
  Ascending.sort (fun a b => Ascending.lexLe a.sortKey b.sortKey) remarks

/-! ## Written form -/

/-- A signed number in decimal. -/
def decimalText (i : Int64) : String :=
  if i < 0 then "-" ++ Nat.repr i.toInt.natAbs else Nat.repr i.toInt.natAbs

/-- How a remark is written, after its class. -/
def body : Remark → String
  | .kindConflict _ scalarAt pointerAt =>
    "scalar use at #" ++ Nat.repr scalarAt ++ " conflicts with pointer use at #" ++
      Nat.repr pointerAt
  | .fieldUnion _ offset alternatives =>
    Nat.repr alternatives ++ " alternatives at offset " ++ Hex.pattern offset
  | .overlappingFields _ first second =>
    "fields at " ++ Hex.pattern first ++ " and " ++ Hex.pattern second ++ " overlap"
  | .recursiveLayout _ offset => "recursive field at " ++ Hex.pattern offset ++ " flattened"
  | .divergentArity _ arities =>
    "call sites pass [" ++ ", ".intercalate (arities.map Nat.repr) ++ "] arguments"
  | .paramConflict _ index => "conflicting types for parameter " ++ Nat.repr index
  | .mixedCodeData _ => "called and accessed as data"
  | .unassigned unknown _ => unknown.text ++ " has no evidence"
  | .stridedPointer _ step => "pointer advanced by " ++ decimalText step

/-- How a remark is written. -/
def text (remark : Remark) : String :=
  remark.subject.text ++ ": " ++ remark.body

/-! ## JSON -/

/-- The name of a remark's kind. -/
def kindName : Remark → String
  | .kindConflict .. => "kind_conflict"
  | .fieldUnion .. => "field_union"
  | .overlappingFields .. => "overlapping_fields"
  | .recursiveLayout .. => "recursive_layout"
  | .divergentArity .. => "divergent_arity"
  | .paramConflict .. => "param_conflict"
  | .mixedCodeData .. => "mixed_code_data"
  | .unassigned .. => "unassigned"
  | .stridedPointer .. => "strided_pointer"

/-- The members of a remark as JSON, without its kind. -/
def members : Remark → List (String × Json)
  | .kindConflict c scalarAt pointerAt =>
    [("class", c.toJson), ("scalar_at", .ofNat scalarAt), ("pointer_at", .ofNat pointerAt)]
  | .fieldUnion c offset alternatives =>
    [("class", c.toJson), ("offset", .integer offset.toInt), ("alternatives", .ofNat alternatives)]
  | .overlappingFields c first second =>
    [("class", c.toJson), ("first", .integer first.toInt), ("second", .integer second.toInt)]
  | .recursiveLayout c offset => [("class", c.toJson), ("offset", .integer offset.toInt)]
  | .divergentArity c arities => [("class", c.toJson), ("arities", .ofList Json.ofNat arities)]
  | .paramConflict c index => [("class", c.toJson), ("index", .ofNat index)]
  | .mixedCodeData c => [("class", c.toJson)]
  | .unassigned unknown c => [("variable", unknown.toJson), ("class", c.toJson)]
  | .stridedPointer c step => [("class", c.toJson), ("step", .integer step.toInt)]

/-- A remark as JSON: its kind is one of its members. -/
def toJson (remark : Remark) : Json :=
  .object (("kind", .string remark.kindName) :: remark.members)

/-- Read the class of a remark. -/
def alone (build : ClassId → Remark) : Decoder Remark :=
  .record ["class"] fun room members =>
    match members with
    | [c] => (Decoder.required ClassId.decoder room c).map build
    | _ => none

/-- Read a class and one more member of a remark. -/
def withOne {α : Type} (key : String) (d : Decoder α) (build : ClassId → α → Remark) :
    Decoder Remark :=
  .record ["class", key] fun room members =>
    match members with
    | [c, x] => do
      let c ← Decoder.required ClassId.decoder room c
      let x ← Decoder.required d room x
      return build c x
    | _ => none

/-- Read a class and two more members of a remark. -/
def withTwo {α β : Type} (key : String) (d : Decoder α) (key' : String) (d' : Decoder β)
    (build : ClassId → α → β → Remark) : Decoder Remark :=
  .record ["class", key, key'] fun room members =>
    match members with
    | [c, x, y] => do
      let c ← Decoder.required ClassId.decoder room c
      let x ← Decoder.required d room x
      let y ← Decoder.required d' room y
      return build c x y
    | _ => none

/-- Read a variable without evidence and its class. -/
def unassignedDecoder : Decoder Remark :=
  .record ["variable", "class"] fun room members =>
    match members with
    | [unknown, c] => do
      let unknown ← Decoder.required VarId.decoder room unknown
      let c ← Decoder.required ClassId.decoder room c
      return .unassigned unknown c
    | _ => none

/-- Read the members of a remark of the given kind. -/
def decoderOf : String → Option (Decoder Remark)
  | "kind_conflict" => some (withTwo "scalar_at" .count "pointer_at" .count .kindConflict)
  | "field_union" => some (withTwo "offset" .int64 "alternatives" .count .fieldUnion)
  | "overlapping_fields" => some (withTwo "first" .int64 "second" .int64 .overlappingFields)
  | "recursive_layout" => some (withOne "offset" .int64 .recursiveLayout)
  | "divergent_arity" => some (withOne "arities" (.list .count) .divergentArity)
  | "param_conflict" => some (withOne "index" .count .paramConflict)
  | "mixed_code_data" => some (alone .mixedCodeData)
  | "unassigned" => some unassignedDecoder
  | "strided_pointer" => some (withOne "step" .int64 .stridedPointer)
  | _ => none

/-- The kind of a remark and the rest of it: an object has the kind among its members, an array
has it in front. -/
def splitKind : Json → Option (String × Json)
  | .object members =>
    match members.filter (fun member => member.1 == "kind") with
    | [(_, .string kind)] => some (kind, .object (members.filter fun member => member.1 != "kind"))
    | _ => none
  | .array (.string kind :: items) => some (kind, .array items)
  | _ => none

/-- Read a remark. Its members are looked at as a whole before the kind is known, so none of them
may be unreadable. -/
def decoder : Decoder Remark :=
  fun room j =>
    if j.isReadable room then do
      let (kind, rest) ← splitKind j
      let d ← decoderOf kind
      d room rest
    else none

end Remark

end TypeRecovery
