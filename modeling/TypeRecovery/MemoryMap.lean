import TypeRecovery.Json.Decoder
import TypeRecovery.Json.Reader

/-!
# The memory map

The named segments of the address space, in address order. An address belongs to the segment that
contains it; addresses outside every segment belong to a pseudo segment that starts at zero.
-/

namespace TypeRecovery

/-- A named range of addresses. -/
structure Segment where
  name : String
  start : UInt64
  size : UInt64
  deriving DecidableEq, Repr, Inhabited

namespace Segment

/-- The address behind the segment; a segment that reaches past the last address ends there. -/
def limit (s : Segment) : Nat :=
  min (s.start.toNat + s.size.toNat) (UInt64.size - 1)

/-- Whether an address lies in the segment. -/
def contains (s : Segment) (address : UInt64) : Bool :=
  s.start.toNat ≤ address.toNat && address.toNat < s.limit

/-- Whether two segments share addresses. -/
def overlaps (s t : Segment) : Bool :=
  s.start.toNat < t.limit && t.start.toNat < s.limit

/-- A segment as JSON. -/
def toJson (s : Segment) : Json :=
  .object
    [("name", .string s.name), ("start", .ofNat s.start.toNat), ("size", .ofNat s.size.toNat)]

/-- Read a segment. -/
def decoder : Decoder Segment :=
  .record ["name", "start", "size"] fun room members =>
    match members with
    | [name, start, size] => do
      let name ← Decoder.required .string room name
      let start ← Decoder.required .uint64 room start
      let size ← Decoder.required .uint64 room size
      return { name, start, size }
    | _ => none

end Segment

/-- Where an address lies. -/
structure Location where
  /-- The name of the segment. -/
  segment : String
  /-- The distance from the start of the segment. -/
  offset : UInt64
  /-- The size of the segment, if it is a mapped one. -/
  size : Option UInt64
  deriving DecidableEq, Repr

/-- Why a segment cannot be mapped. -/
inductive MapError where
  /-- The segment `second` shares addresses with the mapped segment `first`. -/
  | overlapping (first second : String)
  | empty (name : String)
  deriving DecidableEq, Repr

/-- The report of an error. -/
def MapError.message : MapError → String
  | .overlapping first second => "segments `" ++ first ++ "` and `" ++ second ++ "` overlap"
  | .empty name => "segment `" ++ name ++ "` is empty"

/-- The mapped segments, in the order of their addresses. -/
structure MemoryMap where
  segments : List Segment
  deriving DecidableEq, Repr, Inhabited

namespace MemoryMap

/-- Nothing is mapped. -/
def empty : MemoryMap :=
  ⟨[]⟩

/-- The name of the pseudo segment that holds the addresses outside every segment. -/
def unmapped : String :=
  "globals"

/-- Map one more segment, between the segments that start below it and the others. It may share
addresses with neither neighbour. -/
def add (m : MemoryMap) (s : Segment) : Except MapError MemoryMap :=
  if s.size = 0 then .error (.empty s.name)
  else
    let (below, above) := m.segments.span fun t => decide (t.start < s.start)
    match (below.getLast?.toList ++ above.head?.toList).find? (·.overlaps s) with
    | some t => .error (.overlapping t.name s.name)
    | none => .ok ⟨below ++ s :: above⟩

/-- Map a list of segments. -/
def ofSegments (segments : List Segment) : Except MapError MemoryMap :=
  segments.foldlM add empty

/-- The segment that contains an address: the last one that starts no later, if it reaches that
far. -/
def segmentFor? (m : MemoryMap) (address : UInt64) : Option Segment :=
  match (m.segments.takeWhile fun s => decide (s.start ≤ address)).getLast? with
  | some s => if s.contains address then some s else none
  | none => none

/-- Where an address lies. -/
def locate (m : MemoryMap) (address : UInt64) : Location :=
  match m.segmentFor? address with
  | some s => ⟨s.name, address - s.start, some s.size⟩
  | none => ⟨unmapped, address, none⟩

/-- A memory map as JSON: its segments. -/
def toJson (m : MemoryMap) : Json :=
  .ofList Segment.toJson m.segments

/-- Read a memory map, where segments that cannot be mapped are not one. -/
def decoder : Decoder MemoryMap :=
  (Decoder.list Segment.decoder).filterMap fun segments => (ofSegments segments).toOption

end MemoryMap

/-- Why a text is not a memory map. -/
inductive MapTextError where
  /-- It is not a JSON array of segments. -/
  | notSegments
  /-- One of its segments cannot be mapped. -/
  | unmappable (error : MapError)
  deriving DecidableEq, Repr

/-- Map the segments of a JSON value. -/
def MemoryMap.ofJson (j : Json) : Except MapTextError MemoryMap :=
  match (Decoder.list Segment.decoder).run j with
  | none => .error .notSegments
  | some segments => (MemoryMap.ofSegments segments).mapError .unmappable

/-- Map the segments of a JSON text. -/
def MemoryMap.ofText (text : String) : Except MapTextError MemoryMap :=
  match Json.read text with
  | none => .error .notSegments
  | some j => MemoryMap.ofJson j

end TypeRecovery
