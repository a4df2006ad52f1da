import TypeRecovery.Analysis
import TypeRecovery.Shape.Codec

/-!
# The analysis of a program

Each function is analyzed alone. What the functions see of global memory is then joined, place by
place and in the order of the functions.
-/

namespace TypeRecovery

/-- A named trace. -/
structure FunctionTrace where
  name : String
  trace : Trace
  deriving DecidableEq, Repr, Inhabited

/-- A place in global memory: a segment, and an offset from its start. -/
structure Place where
  segment : String
  offset : Int64
  deriving DecidableEq, Repr, Inhabited

/-- Places are ordered by segment, then by offset. -/
def Place.lt (a b : Place) : Bool :=
  decide (a.segment < b.segment) || (a.segment == b.segment && decide (a.offset < b.offset))

/-- A function whose analysis failed. -/
structure FunctionFailure where
  function : String
  error : AnalysisError
  deriving DecidableEq, Repr

/-- What the program knows about one place in global memory. -/
structure GlobalEntry where
  segment : String
  offset : Int64
  shape : Shape
  /-- The functions that access the place, in order. -/
  functions : List String
  deriving DecidableEq, Repr, Inhabited

namespace GlobalEntry

/-- Whether functions disagree about what is stored. -/
def isConflict (g : GlobalEntry) : Bool :=
  g.shape.isConflict

/-- The members of an entry as JSON. -/
def members (g : GlobalEntry) : List (String × Json) :=
  [("segment", .string g.segment), ("offset", .integer g.offset.toInt), ("shape", g.shape.toJson),
    ("functions", .ofList Json.string g.functions)]

/-- An entry as JSON. -/
def toJson (g : GlobalEntry) : Json :=
  .object g.members

/-- Read an entry. -/
def decoder : Decoder GlobalEntry :=
  .record ["segment", "offset", "shape", "functions"] fun room members =>
    match members with
    | [segment, offset, shape, functions] => do
      let segment ← Decoder.required .string room segment
      let offset ← Decoder.required .int64 room offset
      let shape ← Decoder.required Shape.decoder room shape
      let functions ← Decoder.required (.list .string) room functions
      return ⟨segment, offset, shape, functions⟩
    | _ => none

end GlobalEntry

/-- The result of the analysis of a program. -/
structure ProgramReport where
  /-- The listings of the functions that succeeded, in order. -/
  listings : List Listing
  /-- The functions that failed, in order. -/
  failures : List FunctionFailure
  /-- The places in global memory, in order. -/
  globals : List GlobalEntry
  deriving DecidableEq, Repr

namespace ProgramReport

/-- The listing of a function. -/
def listing? (r : ProgramReport) (function : String) : Option Listing :=
  r.listings.find? fun l => l.function = function

/-- What is known about a place. -/
def global? (r : ProgramReport) (segment : String) (offset : Int64) : Option GlobalEntry :=
  r.globals.find? fun g => g.segment = segment && g.offset == offset

end ProgramReport

/-! ## Facts about global memory -/

mutual

/-- The class that a type points into, by the first pointer among its alternatives. -/
def DataType.pointerTarget? : DataType → Option ClassId
  | .pointer target => some target
  | .union alternatives => pointerTargetOfList? alternatives
  | _ => none

/-- The class that the first pointer in a list of types points into. -/
def DataType.pointerTargetOfList? : List DataType → Option ClassId
  | [] => none
  | t :: ts => (pointerTarget? t).or (pointerTargetOfList? ts)

end

namespace Listing

/-- What the type of a segment's contents says about places in the segment. -/
def placesIn (segment : String) : DataType → List (Place × Shape)
  | .struct _ fields =>
    (Field.observed fields).map fun field => (⟨segment, field.offset⟩, Shape.ofType field.type)
  | .void => []
  | t => [(⟨segment, 0⟩, Shape.ofType t)]

/-- What a variable says about global memory: nothing, unless it points to a segment. -/
def globalFactsOf (l : Listing) (v : VariableEntry) : List (Place × Shape) :=
  match v.site with
  | .segment name =>
    let contents := do
      let pointer ← l.class? v.holder
      let target ← pointer.dataType.pointerTarget?
      l.class? target
    match contents with
    | some c => placesIn name c.dataType
    | none => []
  | _ => []

/-- What a listing says about global memory. -/
def globalFacts (l : Listing) : List (Place × Shape) :=
  l.vars.flatMap l.globalFactsOf

/-- The last thing that is said about a place. -/
def shapeAt? (facts : List (Place × Shape)) (p : Place) : Option Shape :=
  facts.reverse.lookup p

end Listing

namespace Program

/-- What the facts of all functions say about one place. -/
def globalEntry (observed : List (String × List (Place × Shape))) (p : Place) : GlobalEntry :=
  let sightings := observed.filterMap fun (name, facts) =>
    (Listing.shapeAt? facts p).map fun shape => (name, shape)
  { segment := p.segment
    offset := p.offset
    shape := Shape.joinAll (sightings.map (·.2))
    functions := sightings.map (·.1) }

/-- What the facts of all functions say about global memory. -/
def globals (observed : List (String × List (Place × Shape))) : List GlobalEntry :=
  (Ascending.ofList Place.lt (observed.flatMap fun (_, facts) => facts.map (·.1))).map
    (globalEntry observed)

/-- Analyze every function alone, and join what they see of global memory. A function that fails is
reported, and the others are not affected. -/
def analyze (memory : MemoryMap) (config : Config) (functions : List FunctionTrace) :
    ProgramReport :=
  let results := functions.map fun f => (f.name, Analysis.listing memory config f.name f.trace)
  { listings := results.filterMap fun (_, result) => result.toOption
    failures := results.filterMap fun (name, result) =>
      match result with
      | .error e => some ⟨name, e⟩
      | .ok _ => none
    globals := globals <| results.filterMap fun (name, result) =>
      result.toOption.map fun l => (name, l.globalFacts) }

end Program

end TypeRecovery
