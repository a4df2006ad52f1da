import TypeRecovery.Remark
import TypeRecovery.Ascending
import TypeRecovery.Config
import TypeRecovery.DataType.Basic

/-!
# Layout

The type of an aggregate whose accesses have known types. Accesses are grouped by their offset: one
type at an offset is a field, several are a union. Elements in a row form arrays that end at the
next field or at the end of the aggregate, and the gaps are filled with bytes.

Some aggregates are no structures: what is accessed at offset zero only is the accessed value
itself, and equal fields without gaps are an array.
-/

namespace TypeRecovery

/-- Everything that was accessed at one fixed offset. -/
structure Slot where
  offset : Int64
  /-- The types of the values, in the order of first sight. -/
  alternatives : List DataType
  /-- The widest access. -/
  width : UInt8
  deriving DecidableEq, Repr, Inhabited

/-- Elements that are `stride` bytes apart, from `offset` on. -/
structure Row where
  offset : Int64
  element : DataType
  stride : UInt32
  deriving DecidableEq, Repr, Inhabited

/-- An access at a fixed offset, with the type of its value. -/
structure TypedAccess where
  offset : Int64
  width : UInt8
  type : DataType
  deriving DecidableEq, Repr, Inhabited

/-- An aggregate whose accesses have known types. -/
structure Aggregate where
  /-- The accesses at fixed offsets, in the order of their offsets. -/
  slots : List Slot
  /-- The accesses at variable indices, in the order of first sight. -/
  rows : List Row
  /-- The size of the whole. -/
  extent : Option UInt64
  deriving DecidableEq, Repr, Inhabited

/-- A type, with remarks on how it came about. -/
structure Synthesis where
  type : DataType
  remarks : List Remark
  deriving DecidableEq, Repr, Inhabited

namespace Slot

/-- Group accesses by their offset. -/
def ofAccesses (accesses : List TypedAccess) : List Slot :=
  (Ascending.ofList (fun a b => decide (a < b)) (accesses.map (·.offset))).map fun offset =>
    let here := accesses.filter fun access => access.offset = offset
    { offset
      alternatives := Ascending.distinct (here.map (·.type))
      width := here.foldl (fun w access => max w access.width) 0 }

end Slot

namespace Row

/-- The type of the elements: what is accessed is followed by filler up to the stride. -/
def elementType (stride : UInt32) (width : UInt8) (accessed : DataType) : DataType :=
  if width.toNat < stride.toNat then
    .struct (UInt64.ofNat stride.toNat)
      [DataType.observed 0 accessed,
        DataType.filler (Int64.ofNat width.toNat) (UInt64.ofNat (stride.toNat - width.toNat))]
  else accessed

end Row

namespace Layout

/-- The type of what has the given alternatives; several make a union, with a remark. -/
def slotType (c : ClassId) (offset : Int64) (alternatives : List DataType) : Synthesis :=
  match alternatives with
  | [t] => ⟨t, []⟩
  | ts => ⟨.union ts, [.fieldUnion c offset ts.length]⟩

/-! ## Aggregates that are no structures -/

/-- The value itself, where only offset zero is accessed and the size of the whole is not known. -/
def lone? (config : Config) (c : ClassId) (aggregate : Aggregate) : Option Synthesis :=
  match aggregate.extent, aggregate.slots, aggregate.rows with
  | none, [slot], [] => if slot.offset = 0 then some (slotType c 0 slot.alternatives) else none
  | none, [], [row] =>
    if row.offset = 0 then
      if row.element.size? config.pointerWidth = some row.stride.toNat then
        some ⟨row.element, []⟩
      else some ⟨.array row.element none, []⟩
    else none
  | _, _, _ => none

/-- Whether slots follow each other from `offset` on without gaps, all of one type and width. -/
def isRun (element : DataType) (width : UInt8) : (offset : Int) → List Slot → Bool
  | _, [] => true
  | offset, slot :: slots =>
    slot.offset.toInt == offset && slot.width == width && slot.alternatives == [element] &&
      isRun element width (offset + width.toNat) slots

/-- The array that equal fields without gaps make up. -/
def uniformArray? (config : Config) (aggregate : Aggregate) : Option DataType :=
  match aggregate.slots, aggregate.rows with
  | ⟨_, [element], width⟩ :: _, [] =>
    let count := aggregate.slots.length
    if config.collapseArrays && decide (max config.minArrayElements.toNat 2 ≤ count) &&
        element.size? config.pointerWidth == some width.toNat &&
        isRun element width 0 aggregate.slots &&
        aggregate.extent.all (fun e => e.toNat == count * width.toNat) then
      some (.array element (some (UInt64.ofNat count)))
    else none
  | _, _ => none

/-! ## Structures -/

/-- What stands at an offset of a structure. -/
structure Cell where
  offset : Int64
  type : DataType
  /-- The number of bytes that belong to it. -/
  size : Nat
  remarks : List Remark
  deriving DecidableEq, Repr, Inhabited

/-- The end of the aggregate as a signed offset. -/
def endBound (aggregate : Aggregate) : Option Int :=
  aggregate.extent.map fun e => e.toInt64.toInt

/-- The offsets that were accessed, in order. -/
def offsets (aggregate : Aggregate) : List Int64 :=
  Ascending.ofList (fun a b => decide (a < b))
    (aggregate.slots.map (·.offset) ++ aggregate.rows.map (·.offset))

/-- Where arrays at an offset have to end: at the next offset that is accessed or, for the last one,
at the end of the aggregate. -/
def bound? (aggregate : Aggregate) (offset : Int64) (later : List Int64) : Option Int :=
  match later with
  | next :: _ => some next.toInt
  | [] => (endBound aggregate).filter fun e => decide (offset.toInt < e)

/-- The array that a row makes up before the bound; without room for an element it has no length. -/
def rowArray (row : Row) (bound : Option Int) : DataType :=
  let length := bound.map fun b => (b - row.offset.toInt).toNat / row.stride.toNat
  .array row.element ((length.filter fun n => decide (0 < n)).map UInt64.ofNat)

/-- The bytes that an array of a row takes up; one without a size has at least one stride. -/
def rowSize (config : Config) (row : Row) (array : DataType) : Nat :=
  (array.size? config.pointerWidth).getD row.stride.toNat

/-- What stands at an offset, given the offsets behind it. -/
def cell (config : Config) (c : ClassId) (aggregate : Aggregate) (offset : Int64)
    (later : List Int64) : Cell :=
  let slot := (aggregate.slots.find? fun slot => slot.offset = offset).getD ⟨offset, [], 0⟩
  let bound := bound? aggregate offset later
  let arrays := (aggregate.rows.filter fun row => row.offset = offset).map fun row =>
    (row, rowArray row bound)
  let accessed := arrays.foldl (fun n (row, array) => max n (rowSize config row array))
    slot.width.toNat
  let synthesis := slotType c offset (Ascending.distinct (slot.alternatives ++ arrays.map (·.2)))
  { offset
    type := synthesis.type
    size := max ((synthesis.type.size? config.pointerWidth).getD 0) accessed
    remarks := synthesis.remarks }

/-- What stands at each of the given offsets. -/
def cells (config : Config) (c : ClassId) (aggregate : Aggregate) : List Int64 → List Cell
  | [] => []
  | offset :: later => cell config c aggregate offset later :: cells config c aggregate later

/-- The offset behind a cell; a size beyond the signed range wraps around. -/
def Cell.limit (cell : Cell) : Int :=
  cell.offset.toInt + (Int64.ofNat cell.size).toInt

/-- Cells as fields, with the gaps between them filled. -/
structure Tiling where
  fields : List (Field DataType)
  remarks : List Remark
  /-- The offset behind the last byte. -/
  limit : Int

/-- Filler from one offset to another. -/
def fillerTo (start stop : Int) : List (Field DataType) :=
  if start < stop then
    [DataType.filler (Int64.ofInt start) (UInt64.ofNat (stop - start).toNat)]
  else []

/-- A remark on a cell that starts before the cells in front of it end. -/
def overlapRemarks (c : ClassId) (previous : Option Int64) (cursor : Int) (offset : Int64) :
    List Remark :=
  match previous with
  | some p => if offset.toInt < cursor then [.overlappingFields c p offset] else []
  | none => []

/-- Tile cells from `cursor` on, behind the cell at `previous`. -/
def tile (c : ClassId) : (cursor : Int) → (previous : Option Int64) → List Cell → Tiling
  | cursor, _, [] => ⟨[], [], cursor⟩
  | cursor, previous, cell :: later =>
    let rest := tile c (max cursor cell.limit) (some cell.offset) later
    { fields := fillerTo cursor cell.offset.toInt ++
        DataType.observed cell.offset cell.type :: rest.fields
      remarks := cell.remarks ++ overlapRemarks c previous cursor cell.offset ++ rest.remarks
      limit := rest.limit }

/-- Fill a tiling up to the end of the aggregate. -/
def Tiling.fillTo (t : Tiling) (stop : Option Int) : Tiling :=
  match stop with
  | some e => { t with fields := t.fields ++ fillerTo t.limit e, limit := max t.limit e }
  | none => t

/-- Where the structure starts: at zero, or at a negative offset that is accessed. -/
def start (offsets : List Int64) : Int :=
  match offsets with
  | first :: _ => min first.toInt 0
  | [] => 0

/-- The structure that an aggregate makes up. -/
def struct (config : Config) (c : ClassId) (aggregate : Aggregate) : Synthesis :=
  let offsets := offsets aggregate
  let start := start offsets
  let tiling := (tile c start none (cells config c aggregate offsets)).fillTo (endBound aggregate)
  ⟨.struct (UInt64.ofNat (tiling.limit - start).toNat) tiling.fields, tiling.remarks⟩

/-- The type of an aggregate. -/
def synthesize (config : Config) (c : ClassId) (aggregate : Aggregate) : Synthesis :=
  match lone? config c aggregate with
  | some synthesis => synthesis
  | none =>
    match uniformArray? config aggregate with
    | some array => ⟨array, []⟩
    | none => struct config c aggregate

/-- Whether a row at one of the given offsets has a bound, but a stride of zero. -/
def dividesByZeroFrom (aggregate : Aggregate) : List Int64 → Bool
  | [] => false
  | offset :: later =>
    ((bound? aggregate offset later).isSome &&
      aggregate.rows.any fun row => row.offset == offset && row.stride == 0) ||
    dividesByZeroFrom aggregate later

/-- Whether the layout as a structure divides by a stride of zero. -/
def dividesByZero (aggregate : Aggregate) : Bool :=
  dividesByZeroFrom aggregate (offsets aggregate)

end Layout

end TypeRecovery
