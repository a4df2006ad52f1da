import TypeRecovery.Proofs.Ascending
import TypeRecovery.Proofs.DataType.References
import TypeRecovery.Resolution.Layout

/-!
# What a layout says

The layout of an aggregate names only the classes that the types of its parts name, and its remarks
are about the class that it is made for. It divides by zero only where a row has a stride of zero.
-/

namespace TypeRecovery

namespace Remark

/-- Whether a remark is about an aggregate that contains itself. -/
def isRecursion : Remark → Bool
  | .recursiveLayout .. => true
  | _ => false

/-- The variable that a remark says nothing is known of. -/
def unknown? : Remark → Option VarId
  | .unassigned v _ => some v
  | _ => none

/-- A remark on a class that settles a conflict: there is evidence, and no part of it is
recursive. -/
structure Settles (n : Remark) (c : ClassId) : Prop where
  subject : n.subject = c
  calm : n.isRecursion = false
  known : n.unknown? = none

end Remark

/-- The parts of an aggregate name only classes in `P`. -/
structure Aggregate.Names (P : ClassId → Prop) (aggregate : Aggregate) : Prop where
  slots : ∀ slot ∈ aggregate.slots, ∀ t ∈ slot.alternatives, t.Names P
  rows : ∀ row ∈ aggregate.rows, row.element.Names P

/-- A synthesis for a class that names only classes in `P`. -/
structure Synthesis.Names (P : ClassId → Prop) (c : ClassId) (synthesis : Synthesis) : Prop where
  type : synthesis.type.Names P
  remarks : ∀ n ∈ synthesis.remarks, n.Settles c

namespace Layout

section
variable {P : ClassId → Prop} {config : Config} {c : ClassId} {aggregate : Aggregate}

/-- The type of a slot names the classes that its alternatives name. -/
lemma slotType_names {offset : Int64} {alternatives : List DataType}
    (each : ∀ t ∈ alternatives, t.Names P) : (slotType c offset alternatives).Names P c := by
  simp only [slotType]
  split
  · rename_i t
    exact ⟨each t (List.mem_singleton_self t), by simp⟩
  · refine ⟨DataType.names_union.2 each, fun n mem => ?_⟩
    rw [List.mem_singleton.1 mem]
    exact ⟨rfl, rfl, rfl⟩

/-- A part that stands alone names the classes that the aggregate names. -/
lemma lone?_names (named : aggregate.Names P) {synthesis : Synthesis}
    (lone : lone? config c aggregate = some synthesis) : synthesis.Names P c := by
  rw [lone?] at lone
  split at lone
  · rename_i slot _ slots _
    split at lone
    · cases lone
      exact slotType_names (named.slots slot (by simp [slots]))
    · cases lone
  · rename_i row _ _ rows
    have element := named.rows row (by simp [rows])
    split at lone
    · split at lone
      · cases lone
        exact ⟨element, by simp⟩
      · cases lone
        exact ⟨DataType.names_array.2 element, by simp⟩
    · cases lone
  · cases lone

/-- Slots that follow each other without gaps, all of one type and width, and nothing else. -/
structure Uniform (config : Config) (aggregate : Aggregate) (element : DataType) (width : UInt8) :
    Prop where
  collapses : config.collapseArrays = true
  rows : aggregate.rows = []
  several : 2 ≤ aggregate.slots.length
  size : element.size? config.pointerWidth = some width.toNat
  run : isRun element width 0 aggregate.slots = true
  extent : ∀ e, aggregate.extent = some e → e.toNat = aggregate.slots.length * width.toNat

/-- Equal fields that are taken for an array are uniform. -/
lemma uniform_of_uniformArray? {array : DataType}
    (uniform : uniformArray? config aggregate = some array) : ∃ element width,
      Uniform config aggregate element width ∧
        array = .array element (some (UInt64.ofNat aggregate.slots.length)) := by
  rw [uniformArray?] at uniform
  split at uniform
  · rename_i element width _ _ rows
    dsimp only at uniform
    split at uniform
    · rename_i conditions
      cases uniform
      simp only [Bool.and_eq_true, beq_iff_eq, decide_eq_true_eq, Option.all_eq_true] at conditions
      obtain ⟨⟨⟨⟨on, several⟩, size⟩, run⟩, extent⟩ := conditions
      have several := Nat.le_trans (Nat.le_max_right _ _) several
      exact ⟨element, width, ⟨on, rows, several, size, run, extent⟩, rfl⟩
    · cases uniform
  · cases uniform

/-- The slots of a run have one alternative and one width. -/
lemma of_mem_run {element : DataType} {width : UInt8} {start : Int} {slots : List Slot}
    (run : isRun element width start slots = true) {slot : Slot} (mem : slot ∈ slots) :
    slot.alternatives = [element] ∧ slot.width = width := by
  induction slots generalizing start with
  | nil => cases mem
  | cons first slots ih =>
    simp only [isRun, Bool.and_eq_true, beq_iff_eq] at run
    obtain ⟨⟨⟨_, sameWidth⟩, sameType⟩, rest⟩ := run
    rcases List.mem_cons.1 mem with rfl | mem
    · exact ⟨sameType, sameWidth⟩
    · exact ih rest mem

/-- A uniform aggregate has a slot with its one alternative. -/
lemma Uniform.exists_slot {element : DataType} {width : UInt8}
    (uniform : Uniform config aggregate element width) :
    ∃ slot ∈ aggregate.slots, slot.alternatives = [element] := by
  obtain ⟨slot, mem⟩ := List.exists_mem_of_length_pos (Nat.lt_of_lt_of_le Nat.two_pos uniform.several)
  exact ⟨slot, mem, (of_mem_run uniform.run mem).1⟩

/-- An array of equal fields names the classes that the aggregate names. -/
lemma uniformArray?_names (named : aggregate.Names P) {array : DataType}
    (collapsed : uniformArray? config aggregate = some array) : array.Names P := by
  obtain ⟨element, width, uniform, rfl⟩ := uniform_of_uniformArray? collapsed
  obtain ⟨slot, mem, type⟩ := uniform.exists_slot
  exact DataType.names_array.2 (named.slots slot mem element (type ▸ List.mem_singleton_self _))

/-! ## Structures -/

/-- A cell for a class that names only classes in `P`. -/
structure Cell.Names (P : ClassId → Prop) (c : ClassId) (cell : Cell) : Prop where
  type : cell.type.Names P
  remarks : ∀ n ∈ cell.remarks, n.Settles c

/-- The types of what is accessed at an offset, where arrays end at a bound. -/
def alternativesAt (aggregate : Aggregate) (offset : Int64) (bound : Option Int) : List DataType :=
  let slot := (aggregate.slots.find? fun slot => slot.offset = offset).getD ⟨offset, [], 0⟩
  Ascending.distinct (slot.alternatives ++
    (aggregate.rows.filter fun row => row.offset = offset).map (rowArray · bound))

/-- What is accessed at an offset is an alternative of the slot there or the array of a row. -/
lemma mem_alternativesAt {offset : Int64} {bound : Option Int} {t : DataType} :
    t ∈ alternativesAt aggregate offset bound ↔
      (∃ slot, (aggregate.slots.find? fun slot => slot.offset = offset) = some slot ∧
        t ∈ slot.alternatives) ∨
      ∃ row ∈ aggregate.rows, row.offset = offset ∧ t = rowArray row bound := by
  rw [alternativesAt, Ascending.mem_distinct, List.mem_append]
  refine or_congr ?_ ?_
  · cases aggregate.slots.find? fun slot => slot.offset = offset with
    | none => simp
    | some slot => simp
  · simp only [List.mem_map, List.mem_filter, decide_eq_true_eq, and_assoc]
    exact exists_congr fun row => and_congr_right fun _ => and_congr_right fun _ => eq_comm

/-- A cell has the type and the remarks of the slot that all alternatives at its offset make. -/
lemma cell_eq {offset : Int64} {later : List Int64} :
    (cell config c aggregate offset later).type = (slotType c offset
        (alternativesAt aggregate offset (bound? aggregate offset later))).type ∧
      (cell config c aggregate offset later).remarks = (slotType c offset
        (alternativesAt aggregate offset (bound? aggregate offset later))).remarks := by
  simp [cell, alternativesAt, Function.comp_def]

/-- A cell names the classes that the aggregate names. -/
lemma cell_names (named : aggregate.Names P) {offset : Int64} {later : List Int64} :
    (cell config c aggregate offset later).Names P c := by
  have synthesis : (slotType c offset
      (alternativesAt aggregate offset (bound? aggregate offset later))).Names P c := by
    apply slotType_names
    intro t mem
    rcases mem_alternativesAt.1 mem with ⟨slot, found, inside⟩ | ⟨row, inside, _, rfl⟩
    · exact named.slots slot (List.mem_of_find?_eq_some found) t inside
    · exact DataType.names_array.2 (named.rows row inside)
  obtain ⟨type, remarks⟩ := @cell_eq config c aggregate offset later
  exact ⟨type ▸ synthesis.type, remarks ▸ synthesis.remarks⟩

/-- All cells name the classes that the aggregate names. -/
lemma cells_names (named : aggregate.Names P) {offsets : List Int64} :
    ∀ cell ∈ cells config c aggregate offsets, cell.Names P c := by
  induction offsets with
  | nil => simp [cells]
  | cons offset later ih =>
    intro cell mem
    rcases List.mem_cons.1 mem with rfl | mem
    · exact cell_names named
    · exact ih cell mem

/-- Remarks on overlaps are about the class of the layout. -/
lemma overlapRemarks_settle {previous : Option Int64} {cursor : Int} {offset : Int64} :
    ∀ n ∈ overlapRemarks c previous cursor offset, n.Settles c := by
  intro n mem
  cases previous with
  | none => simp [overlapRemarks] at mem
  | some p =>
    simp only [overlapRemarks] at mem
    split at mem
    · rw [List.mem_singleton.1 mem]
      exact ⟨rfl, rfl, rfl⟩
    · simp at mem

/-- Filler names no class. -/
lemma fillerTo_names {start stop : Int} :
    ∀ field ∈ fillerTo start stop, field.type.Names P := by
  intro field mem
  rw [fillerTo] at mem
  split at mem
  · rw [List.mem_singleton.1 mem]
    exact DataType.names_of_classIds_eq_nil rfl
  · simp at mem

/-- A tiling for a class that names only classes in `P`. -/
structure Tiling.Names (P : ClassId → Prop) (c : ClassId) (t : Tiling) : Prop where
  fields : ∀ field ∈ t.fields, field.type.Names P
  remarks : ∀ n ∈ t.remarks, n.Settles c

/-- A tiling names the classes that its cells name. -/
lemma tile_names {cells : List Cell} (each : ∀ cell ∈ cells, cell.Names P c) {cursor : Int}
    {previous : Option Int64} : (tile c cursor previous cells).Names P c := by
  induction cells generalizing cursor previous with
  | nil => exact ⟨by simp [tile], by simp [tile]⟩
  | cons cell later ih =>
    have own := each cell List.mem_cons_self
    have rest : (tile c (max cursor cell.limit) (some cell.offset) later).Names P c :=
      ih fun cell mem => each cell (List.mem_cons_of_mem _ mem)
    constructor
    · intro field mem
      rcases List.mem_append.1 mem with mem | mem
      · exact fillerTo_names field mem
      · rcases List.mem_cons.1 mem with rfl | mem
        · exact own.type
        · exact rest.fields field mem
    · intro n mem
      simp only [tile, List.mem_append] at mem
      rcases mem with (mem | mem) | mem
      · exact own.remarks n mem
      · exact overlapRemarks_settle n mem
      · exact rest.remarks n mem

/-- Filling a tiling up names no other class. -/
lemma Tiling.Names.fillTo {t : Tiling} (named : t.Names P c) (stop : Option Int) :
    (t.fillTo stop).Names P c := by
  cases stop with
  | none => exact named
  | some e =>
    refine ⟨fun field mem => ?_, named.remarks⟩
    rcases List.mem_append.1 mem with mem | mem
    · exact named.fields field mem
    · exact fillerTo_names field mem

/-- A layout names the classes that the aggregate names. -/
lemma synthesize_names (named : aggregate.Names P) :
    (synthesize config c aggregate).Names P c := by
  rw [synthesize]
  cases lone : lone? config c aggregate with
  | some synthesis => exact lone?_names named lone
  | none =>
    cases uniform : uniformArray? config aggregate with
    | some array => exact ⟨uniformArray?_names named uniform, by simp⟩
    | none =>
      have tiled : (tile c (start (offsets aggregate)) none
          (cells config c aggregate (offsets aggregate))).Names P c := tile_names (cells_names named)
      have tiling := tiled.fillTo (endBound aggregate)
      exact ⟨DataType.names_struct.2 tiling.fields, tiling.remarks⟩

/-! ## Strides of zero -/

/-- A layout divides by zero only where a row has a stride of zero. -/
lemma exists_zero_of_dividesByZero (zero : dividesByZero aggregate = true) :
    ∃ row ∈ aggregate.rows, row.stride = 0 := by
  rw [dividesByZero] at zero
  generalize offsets aggregate = places at zero
  induction places with
  | nil => cases zero
  | cons offset later ih =>
    rw [dividesByZeroFrom, Bool.or_eq_true] at zero
    rcases zero with here | later
    · rw [Bool.and_eq_true, List.any_eq_true] at here
      obtain ⟨row, mem, stride⟩ := here.2
      exact ⟨row, mem, by simpa using (Bool.and_eq_true_iff.1 stride).2⟩
    · exact ih later

end

end Layout

end TypeRecovery
