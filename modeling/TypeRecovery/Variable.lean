import TypeRecovery.DataType.Codec
import TypeRecovery.Text.Hex

/-!
# Type variables

Every use of a value in a trace gets a type variable. Variables are numbered densely in the order of
first use, and a number is never given twice.
-/

namespace TypeRecovery

/-- Where a type variable comes from. -/
inductive UseSite where
  /-- Named storage; there is one variable for each name. -/
  | storage (name : String)
  /-- An occurrence of a literal. -/
  | literal (position : Nat) (value : Int64)
  /-- The value that an operation produces. -/
  | expression (position : Nat) (text : String)
  /-- A fixed address that is used as a value. -/
  | address (place : UInt64)
  /-- The pointer to the start of a memory segment. -/
  | segment (name : String)
  /-- The storage that a pointer variable points into. -/
  | pointee (pointer : VarId)
  deriving DecidableEq, Repr, Inhabited

namespace UseSite

/-- How a use is written. -/
def text : UseSite → String
  | .storage name => name
  | .literal _ value => Hex.signed value.toInt
  | .expression _ text => text
  | .address place => "@" ++ Hex.magnitude place.toNat
  | .segment name => "segment " ++ name
  | .pointee pointer => "*" ++ pointer.text

def isStorage : UseSite → Bool
  | .storage _ => true
  | _ => false

/-- A use as JSON. -/
def toJson : UseSite → Json
  | .storage name => Json.taggedRecord "storage" [("name", .string name)]
  | .literal position value =>
    Json.taggedRecord "literal" [("position", .ofNat position), ("value", .integer value.toInt)]
  | .expression position text =>
    Json.taggedRecord "expression" [("position", .ofNat position), ("text", .string text)]
  | .address place => Json.taggedRecord "address" [("address", .ofNat place.toNat)]
  | .segment name => Json.taggedRecord "segment" [("name", .string name)]
  | .pointee pointer => Json.taggedRecord "pointee" [("of", pointer.toJson)]

/-- Read a record with one member. -/
def oneMember {α : Type} (key : String) (d : Decoder α) (build : α → UseSite) : Decoder UseSite :=
  .record [key] fun room members =>
    match members with
    | [member] => (Decoder.required d room member).map build
    | _ => none

/-- Read a record with a position and another member. -/
def positioned {α : Type} (key : String) (d : Decoder α) (build : Nat → α → UseSite) :
    Decoder UseSite :=
  .record ["position", key] fun room members =>
    match members with
    | [position, member] => do
      let position ← Decoder.required .count room position
      let value ← Decoder.required d room member
      return build position value
    | _ => none

/-- Read a use. -/
def decoder : Decoder UseSite :=
  .choice fun room tag body =>
    match tag with
    | "storage" => Decoder.carrying (oneMember "name" .string .storage) room body
    | "literal" => Decoder.carrying (positioned "value" .int64 .literal) room body
    | "expression" => Decoder.carrying (positioned "text" .string .expression) room body
    | "address" => Decoder.carrying (oneMember "address" .uint64 .address) room body
    | "segment" => Decoder.carrying (oneMember "name" .string .segment) room body
    | "pointee" => Decoder.carrying (oneMember "of" VarId.decoder .pointee) room body
    | _ => none

end UseSite

/-- A type variable. -/
structure Variable where
  id : VarId
  site : UseSite
  /-- The type that the first direct evidence implies, kept when the type is widened later. -/
  firstType : Option DataType
  deriving DecidableEq, Repr, Inhabited

namespace Variable

/-- A variable as JSON. -/
def toJson (v : Variable) : Json :=
  .object [("id", v.id.toJson), ("site", v.site.toJson),
    ("original", .ofOption DataType.toJson v.firstType)]

/-- Read a variable. -/
def decoder : Decoder Variable :=
  .record ["id", "site", "original"] fun room members =>
    match members with
    | [id, site, firstType] => do
      let id ← Decoder.required VarId.decoder room id
      let site ← Decoder.required UseSite.decoder room site
      let firstType ← Decoder.optional DataType.decoder room firstType
      return ⟨id, site, firstType⟩
    | _ => none

/-- Keep the first type that is recorded. -/
def recordFirst (v : Variable) (t : DataType) : Variable :=
  { v with firstType := some (v.firstType.getD t) }

end Variable

/-- All variables, by number. -/
structure VariableStore where
  vars : Array Variable
  deriving Repr, Inhabited

namespace VariableStore

/-- No variables. -/
def empty : VariableStore :=
  ⟨#[]⟩

/-- How many variables there are. -/
def size (s : VariableStore) : Nat :=
  s.vars.size

/-- The number of the next variable. -/
def next (s : VariableStore) : VarId :=
  ⟨s.size⟩

/-- Add a variable for a use, under the next number. -/
def push (s : VariableStore) (site : UseSite) : VariableStore :=
  ⟨s.vars.push ⟨s.next, site, none⟩⟩

/-- The variable with a number. -/
def get? (s : VariableStore) (v : VarId) : Option Variable :=
  s.vars[v.index]?

/-- Record a first type, unless the variable has one or does not exist. -/
def recordFirst (s : VariableStore) (v : VarId) (t : DataType) : VariableStore :=
  ⟨s.vars.modify v.index (·.recordFirst t)⟩

/-- The variables in the order of their numbers. -/
def toList (s : VariableStore) : List Variable :=
  s.vars.toList

end VariableStore

end TypeRecovery
