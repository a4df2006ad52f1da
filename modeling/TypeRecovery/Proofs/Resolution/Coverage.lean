import Mathlib.Tactic.Ring
import TypeRecovery.Proofs.Resolution.Layout

/-!
# The offsets that a type tells of

A structure tells of the offsets of its fields, and any other type of its start only. The type of an
aggregate tells of every offset that was accessed, with one exception: of the equal fields that were
collapsed to an array only the first one is told of (`synthesize_laysOut`). Of each part that it tells
of, something is known (`synthesize_definite`).
-/

namespace TypeRecovery

namespace DataType

/-- The offsets that a type tells of. -/
def offsets : DataType → List Int64
  | .struct _ fields => (Field.observed fields).map (·.offset)
  | .void => []
  | _ => [0]

/-- Equal fields were collapsed to an array, and one of them, but not the first, was at an offset. -/
def Collapses (config : Config) (t : DataType) (offset : Int64) : Prop :=
  config.collapseArrays = true ∧ offset ≠ 0 ∧ ∃ element count width i,
    t = .array element (some count) ∧ element.size? config.pointerWidth = some width ∧
      i < count.toNat ∧ offset.toInt = i * width

/-- A type tells of an offset, or it would do so if equal fields were not collapsed. -/
def LaysOut (config : Config) (t : DataType) (offset : Int64) : Prop :=
  offset ∈ t.offsets ∨ t.Collapses config offset

/-- The types of the parts that a type tells of. -/
def parts : DataType → List DataType
  | .struct _ fields => (Field.observed fields).map (·.type)
  | .void => []
  | t => [t]

/-- Something is known of every part that a type tells of. -/
def Definite (t : DataType) : Prop :=
  ∀ u ∈ t.parts, u.leaves ≠ []

/-- A type tells of its start, unless nothing is known of it, and of parts that are known. -/
structure Grounded (t : DataType) : Prop where
  start : t ≠ .void → 0 ∈ t.offsets
  definite : t.Definite

/-- A known type of definite parts has alternatives. -/
lemma Definite.leaves_ne_nil {t : DataType} (definite : t.Definite) (known : t ≠ .void) :
    t.leaves ≠ [] := by
  cases t with
  | void => exact absurd rfl known
  | union ts => exact definite _ (List.mem_singleton_self _)
  | _ => exact List.cons_ne_nil _ _

/-- A type without alternatives that is no structure tells of itself. -/
lemma definite_of_single {t : DataType} (whole : t.parts = [t]) (single : t.leaves = [t]) :
    t.Definite := by
  intro u mem
  rw [whole, List.mem_singleton] at mem
  rw [mem, single]
  exact List.cons_ne_nil _ _

/-- A list of types with one that is known has alternatives. -/
lemma leavesList_ne_nil {ts : List DataType} {t : DataType} (mem : t ∈ ts)
    (known : t.leaves ≠ []) : leavesList ts ≠ [] := by
  induction ts with
  | nil => cases mem
  | cons u ts ih =>
    rcases List.mem_cons.1 mem with rfl | mem
    · exact List.append_ne_nil_of_left_ne_nil known _
    · exact List.append_ne_nil_of_right_ne_nil _ (ih mem)

/-- An offset that was collapsed is not told of. -/
lemma Collapses.not_mem_offsets {config : Config} {t : DataType} {offset : Int64}
    (collapses : t.Collapses config offset) : offset ∉ t.offsets := by
  obtain ⟨_, later, element, count, width, i, rfl, _⟩ := collapses
  simpa [offsets] using later

/-- A type that collapses an offset tells of its start. -/
lemma Collapses.zero_mem_offsets {config : Config} {t : DataType} {offset : Int64}
    (collapses : t.Collapses config offset) : 0 ∈ t.offsets := by
  obtain ⟨_, _, element, count, width, i, rfl, _⟩ := collapses
  exact List.mem_singleton_self 0

/-- Nothing is laid out in `void`. -/
lemma LaysOut.ne_void {config : Config} {t : DataType} {offset : Int64}
    (laid : t.LaysOut config offset) : t ≠ .void := by
  rintro rfl
  rcases laid with mem | collapses
  · cases mem
  · cases collapses.zero_mem_offsets

/-- A union with an alternative that is known is definite. -/
lemma definite_union {ts : List DataType} {t : DataType} (mem : t ∈ ts) (known : t.leaves ≠ []) :
    (union ts).Definite := by
  intro u inside
  cases List.mem_singleton.1 inside
  exact leavesList_ne_nil mem known

/-! ## Renamed classes -/

mutual

/-- Renaming classes changes no size. -/
lemma size?_mapClasses (f : ClassId → ClassId) (pointerWidth : UInt8) :
    ∀ t : DataType, (t.mapClasses f).size? pointerWidth = t.size? pointerWidth
  | .void => rfl
  | .boolean => rfl
  | .integer _ _ => rfl
  | .pointer _ => rfl
  | .array element _ => by simp [mapClasses, size?, size?_mapClasses f pointerWidth element]
  | .struct _ _ => rfl
  | .union ts => by simp [mapClasses, size?, largest?_mapClasses f pointerWidth ts]
  | .function _ _ _ => rfl

/-- Renaming classes does not change the largest size. -/
lemma largest?_mapClasses (f : ClassId → ClassId) (pointerWidth : UInt8) :
    ∀ ts : List DataType,
      largest? pointerWidth (mapClassesList f ts) = largest? pointerWidth ts
  | [] => rfl
  | t :: ts => by
    simp [mapClassesList, largest?, size?_mapClasses f pointerWidth t,
      largest?_mapClasses f pointerWidth ts]

end

/-- Renaming classes renames them in the observed fields. -/
lemma observed_mapClassesFields (f : ClassId → ClassId) (fields : List (Field DataType)) :
    Field.observed (mapClassesFields f fields) =
      (Field.observed fields).map fun field => { field with type := field.type.mapClasses f } := by
  induction fields with
  | nil => rfl
  | cons field fields ih =>
    simp only [Field.observed] at ih
    obtain ⟨offset, type, padding⟩ := field
    cases padding <;> simp [mapClassesFields, Field.observed, ih]

/-- Renaming classes changes no offset. -/
lemma offsets_mapClasses (f : ClassId → ClassId) (t : DataType) :
    (t.mapClasses f).offsets = t.offsets := by
  cases t with
  | struct size fields => simp [mapClasses, offsets, observed_mapClassesFields]
  | _ => rfl

/-- Renaming classes renames them in each part. -/
lemma parts_mapClasses (f : ClassId → ClassId) (t : DataType) :
    (t.mapClasses f).parts = t.parts.map (mapClasses f) := by
  cases t with
  | struct size fields => simp [mapClasses, parts, observed_mapClassesFields]
  | _ => rfl

mutual

/-- Renaming classes leaves as many alternatives as there were. -/
lemma leaves_mapClasses (f : ClassId → ClassId) :
    ∀ t : DataType, (t.mapClasses f).leaves = t.leaves.map (mapClasses f)
  | .void => rfl
  | .boolean => rfl
  | .integer _ _ => rfl
  | .pointer _ => rfl
  | .array _ _ => rfl
  | .struct _ _ => rfl
  | .union ts => leavesList_mapClasses f ts
  | .function _ _ _ => rfl

/-- Renaming classes renames them in each alternative of a list of types. -/
lemma leavesList_mapClasses (f : ClassId → ClassId) :
    ∀ ts : List DataType, leavesList (mapClassesList f ts) = (leavesList ts).map (mapClasses f)
  | [] => rfl
  | t :: ts => by
    simp [mapClassesList, leavesList, leaves_mapClasses f t, leavesList_mapClasses f ts]

end

/-- Renaming classes keeps parts definite. -/
lemma Definite.mapClasses {t : DataType} (definite : t.Definite) (f : ClassId → ClassId) :
    (t.mapClasses f).Definite := by
  intro u mem
  rw [parts_mapClasses] at mem
  obtain ⟨part, inside, rfl⟩ := List.mem_map.1 mem
  rw [leaves_mapClasses]
  exact mt List.map_eq_nil_iff.1 (definite part inside)

/-- Renaming classes changes nothing about where a type lays something out. -/
lemma LaysOut.mapClasses {config : Config} {t : DataType} {offset : Int64}
    (laid : t.LaysOut config offset) (f : ClassId → ClassId) :
    (t.mapClasses f).LaysOut config offset := by
  rcases laid with mem | ⟨on, later, element, count, width, i, rfl, size, rest⟩
  · exact .inl (offsets_mapClasses f t ▸ mem)
  · refine .inr ⟨on, later, element.mapClasses f, count, width, i, rfl, ?_, rest⟩
    rw [size?_mapClasses, size]

end DataType

/-! ## Aggregates -/

/-- The parts of an aggregate tell of their starts. -/
structure Aggregate.Grounded (aggregate : Aggregate) : Prop where
  slots : ∀ slot ∈ aggregate.slots, ∀ t ∈ slot.alternatives, 0 ∈ t.offsets
  rows : ∀ row ∈ aggregate.rows, 0 ∈ row.element.offsets

/-- Something is known of all parts of an aggregate. -/
structure Aggregate.Definite (aggregate : Aggregate) : Prop where
  slots : ∀ slot ∈ aggregate.slots, slot.alternatives ≠ [] ∧
    ∀ t ∈ slot.alternatives, t ≠ .void ∧ t.Definite
  rows : ∀ row ∈ aggregate.rows, row.element.Definite

/-- An aggregate is accessed at an offset. -/
def Aggregate.Accesses (aggregate : Aggregate) (offset : Int64) : Prop :=
  (∃ slot ∈ aggregate.slots, slot.offset = offset) ∨ ∃ row ∈ aggregate.rows, row.offset = offset

namespace Layout

section
variable {config : Config} {c : ClassId} {aggregate : Aggregate} {offset : Int64}

/-- A slot tells of its start if its alternatives do. -/
lemma zero_mem_slotType {alternatives : List DataType}
    (each : ∀ t ∈ alternatives, 0 ∈ t.offsets) :
    0 ∈ (slotType c offset alternatives).type.offsets := by
  simp only [slotType]
  split
  · exact each _ (List.mem_singleton_self _)
  · exact List.mem_singleton_self 0

/-- What is accessed at its start only tells of its start. -/
lemma lone?_laysOut (grounded : aggregate.Grounded) (accessed : aggregate.Accesses offset)
    {synthesis : Synthesis} (lone : lone? config c aggregate = some synthesis) :
    offset ∈ synthesis.type.offsets := by
  rw [lone?] at lone
  split at lone
  · rename_i slot _ slots rows
    split at lone
    · rename_i start
      cases lone
      have here : offset = 0 := by
        rcases accessed with ⟨other, mem, rfl⟩ | ⟨row, mem, rfl⟩
        · rw [slots, List.mem_singleton] at mem
          rw [mem, start]
        · simp [rows] at mem
      rw [here]
      exact zero_mem_slotType (grounded.slots slot (by simp [slots]))
    · cases lone
  · rename_i row _ slots rows
    split at lone
    · rename_i start
      have here : offset = 0 := by
        rcases accessed with ⟨slot, mem, rfl⟩ | ⟨other, mem, rfl⟩
        · simp [slots] at mem
        · rw [rows, List.mem_singleton] at mem
          rw [mem, start]
      rw [here]
      split at lone
      · cases lone
        exact grounded.rows row (by simp [rows])
      · cases lone
        exact List.mem_singleton_self 0
    · cases lone
  · cases lone

/-! ## Collapsed fields -/

/-- The slots of a run are one width apart. -/
lemma offset_of_isRun {element : DataType} {width : UInt8} {start : Int} {slots : List Slot}
    (run : isRun element width start slots = true) {i : Nat} {slot : Slot}
    (here : slots[i]? = some slot) : slot.offset.toInt = start + i * width.toNat := by
  induction slots generalizing start i with
  | nil => cases here
  | cons first slots ih =>
    simp only [isRun, Bool.and_eq_true, beq_iff_eq] at run
    obtain ⟨⟨⟨first, _⟩, _⟩, rest⟩ := run
    cases i with
    | zero =>
      cases here
      simpa using first
    | succ i =>
      rw [ih rest here]
      push_cast
      ring

/-- A run that goes on behind zero has no more slots than there are offsets. -/
lemma length_of_isRun {element : DataType} {width : UInt8} {slots : List Slot}
    (run : isRun element width 0 slots = true) (wide : 0 < width.toNat) :
    slots.length ≤ 2 ^ 63 := by
  cases last : slots.getLast? with
  | none =>
    rw [List.getLast?_eq_none_iff.1 last]
    simp
  | some slot =>
    rw [List.getLast?_eq_getElem?] at last
    have offset := offset_of_isRun run last
    have bound := slot.offset.toInt_lt
    have reach := Nat.le_mul_of_pos_right (slots.length - 1) wide
    rw [zero_add, ← Nat.cast_mul] at offset
    omega

/-- An array that equal fields were collapsed to has an element wherever there was a field. -/
lemma uniformArray?_laysOut (accessed : aggregate.Accesses offset) {array : DataType}
    (collapsed : uniformArray? config aggregate = some array) : array.LaysOut config offset := by
  obtain ⟨element, width, uniform, rfl⟩ := uniform_of_uniformArray? collapsed
  rcases accessed with ⟨slot, mem, rfl⟩ | ⟨row, mem, _⟩
  · obtain ⟨i, here⟩ := List.mem_iff_getElem?.1 mem
    have lt : i < aggregate.slots.length := (List.getElem?_eq_some_iff.1 here).1
    have position := offset_of_isRun uniform.run here
    rw [zero_add] at position
    by_cases start : slot.offset = 0
    · rw [start]
      exact .inl (List.mem_singleton_self 0)
    · -- a field behind the first one shows that fields have a width
      have wide : 0 < width.toNat := by
        rw [Nat.pos_iff_ne_zero]
        intro none
        rw [none, Nat.cast_zero, mul_zero] at position
        exact start (Int64.toInt_inj.1 position)
      have count : (UInt64.ofNat aggregate.slots.length).toNat = aggregate.slots.length := by
        have bound := length_of_isRun uniform.run wide
        apply Nat.mod_eq_of_lt
        omega
      exact .inr ⟨uniform.collapses, start, element, _, _, i, rfl, uniform.size, count.symm ▸ lt,
        position⟩
  · rw [uniform.rows] at mem
    cases mem

/-! ## Structures -/

/-- Offsets are totally ordered. -/
lemma offset_total : Ascending.Total fun a b : Int64 => decide (a < b) := by
  intro x y above below
  exact Int64.le_antisymm (Int64.not_lt.1 (of_decide_eq_false below))
    (Int64.not_lt.1 (of_decide_eq_false above))

/-- The offsets of an aggregate are those that are accessed. -/
lemma mem_offsets : offset ∈ offsets aggregate ↔ aggregate.Accesses offset := by
  rw [offsets, Ascending.mem_ofList offset_total, List.mem_append, List.mem_map, List.mem_map]
  rfl

/-- There is a cell for each offset. -/
lemma exists_cell {offsets : List Int64} (mem : offset ∈ offsets) :
    ∃ cell ∈ cells config c aggregate offsets, cell.offset = offset := by
  induction offsets with
  | nil => cases mem
  | cons first later ih =>
    rcases List.mem_cons.1 mem with rfl | mem
    · exact ⟨_, List.mem_cons_self, rfl⟩
    · obtain ⟨cell, inside, e⟩ := ih mem
      exact ⟨cell, List.mem_cons_of_mem _ inside, e⟩

/-- A cell as a field. -/
def Cell.field (cell : Cell) : Field DataType :=
  DataType.observed cell.offset cell.type

/-- Filler is not observed. -/
lemma observed_fillerTo (start stop : Int) : Field.observed (fillerTo start stop) = [] := by
  rw [fillerTo]
  split <;> rfl

/-- The fields of a tiling that are not filler are the cells. -/
lemma observed_tile (cells : List Cell) (cursor : Int) (previous : Option Int64) :
    Field.observed (tile c cursor previous cells).fields = cells.map Cell.field := by
  induction cells generalizing cursor previous with
  | nil => rfl
  | cons cell later ih =>
    have filler := observed_fillerTo cursor cell.offset.toInt
    have rest := ih (max cursor cell.limit) (some cell.offset)
    rw [Field.observed] at filler rest
    simp [tile, Field.observed, filler, rest, Cell.field, DataType.observed]

/-- Filling a tiling up adds no observed field. -/
lemma observed_fillTo (t : Tiling) (stop : Option Int) :
    Field.observed (t.fillTo stop).fields = Field.observed t.fields := by
  cases stop with
  | none => rfl
  | some e =>
    have filler := observed_fillerTo t.limit e
    rw [Field.observed] at filler
    simp [Tiling.fillTo, Field.observed, filler]

/-- The fields of a structure that are not filler are its cells. -/
lemma observed_struct : ∃ size fields, (struct config c aggregate).type = .struct size fields ∧
    Field.observed fields = (cells config c aggregate (offsets aggregate)).map Cell.field := by
  refine ⟨_, _, rfl, ?_⟩
  rw [observed_fillTo, observed_tile]

/-- A structure tells of every offset that is accessed. -/
lemma struct_laysOut (accessed : aggregate.Accesses offset) :
    offset ∈ (struct config c aggregate).type.offsets := by
  obtain ⟨cell, mem, rfl⟩ :
      ∃ cell ∈ cells config c aggregate (offsets aggregate), cell.offset = offset :=
    exists_cell (mem_offsets.2 accessed)
  obtain ⟨size, fields, type, observed⟩ := @observed_struct config c aggregate
  rw [type, DataType.offsets, observed, List.map_map]
  exact List.mem_map_of_mem mem

/-- The type of an aggregate tells of every offset that is accessed, unless equal fields were
collapsed. -/
lemma synthesize_laysOut (grounded : aggregate.Grounded) (accessed : aggregate.Accesses offset) :
    (synthesize config c aggregate).type.LaysOut config offset := by
  rw [synthesize]
  cases lone : lone? config c aggregate with
  | some synthesis => exact .inl (lone?_laysOut grounded accessed lone)
  | none =>
    cases uniform : uniformArray? config aggregate with
    | some array => exact uniformArray?_laysOut accessed uniform
    | none => exact .inl (struct_laysOut accessed)

/-! ## What is known of the parts -/

/-- A slot whose alternatives are known is known, and so are its parts. -/
lemma slotType_definite {alternatives : List DataType} (some : alternatives ≠ [])
    (each : ∀ t ∈ alternatives, t ≠ .void ∧ t.Definite) :
    (slotType c offset alternatives).type ≠ .void ∧
      (slotType c offset alternatives).type.Definite := by
  simp only [slotType]
  split
  · exact each _ (List.mem_singleton_self _)
  · obtain ⟨t, mem⟩ := List.exists_mem_of_ne_nil _ some
    have known := (each t mem).2.leaves_ne_nil (each t mem).1
    refine ⟨?_, DataType.definite_union mem known⟩
    intro same
    cases same

/-- A part that stands alone is definite if the aggregate is. -/
lemma lone?_definite (definite : aggregate.Definite) {synthesis : Synthesis}
    (lone : lone? config c aggregate = some synthesis) : synthesis.type.Definite := by
  rw [lone?] at lone
  split at lone
  · rename_i slot _ slots _
    have known := definite.slots slot (by simp [slots])
    split at lone
    · cases lone
      exact (slotType_definite known.1 known.2).2
    · cases lone
  · rename_i row _ _ rows
    split at lone
    · split at lone
      · cases lone
        exact definite.rows row (by simp [rows])
      · cases lone
        exact DataType.definite_of_single rfl rfl
    · cases lone
  · cases lone

/-- An array of equal fields is definite. -/
lemma uniformArray?_definite {array : DataType}
    (uniform : uniformArray? config aggregate = some array) : array.Definite := by
  obtain ⟨element, width, _, rfl⟩ := uniform_of_uniformArray? uniform
  exact DataType.definite_of_single rfl rfl

/-- There is something at every offset that is accessed. -/
lemma exists_alternative (definite : aggregate.Definite) (accessed : aggregate.Accesses offset)
    (bound : Option Int) : ∃ t, t ∈ alternativesAt aggregate offset bound := by
  rcases accessed with ⟨slot, mem, here⟩ | ⟨row, mem, here⟩
  · have found : (aggregate.slots.find? fun slot => slot.offset = offset).isSome := by
      rw [List.find?_isSome]
      exact ⟨slot, mem, decide_eq_true here⟩
    obtain ⟨first, found⟩ := Option.isSome_iff_exists.1 found
    have some := (definite.slots first (List.mem_of_find?_eq_some found)).1
    obtain ⟨t, inside⟩ := List.exists_mem_of_ne_nil _ some
    exact ⟨t, mem_alternativesAt.2 (.inl ⟨first, found, inside⟩)⟩
  · exact ⟨_, mem_alternativesAt.2 (.inr ⟨row, mem, here, rfl⟩)⟩

/-- Something is known of the cell of an offset that is accessed. -/
lemma cell_known (definite : aggregate.Definite) (accessed : aggregate.Accesses offset)
    (later : List Int64) : (cell config c aggregate offset later).type.leaves ≠ [] := by
  obtain ⟨t, mem⟩ := exists_alternative definite accessed (bound? aggregate offset later)
  have each : ∀ t ∈ alternativesAt aggregate offset (bound? aggregate offset later),
      t ≠ .void ∧ t.Definite := by
    intro t mem
    rcases mem_alternativesAt.1 mem with ⟨slot, found, inside⟩ | ⟨row, inside, _, rfl⟩
    · exact (definite.slots slot (List.mem_of_find?_eq_some found)).2 t inside
    · exact ⟨nofun, DataType.definite_of_single rfl rfl⟩
  obtain ⟨type, _⟩ := @cell_eq config c aggregate offset later
  obtain ⟨known, definite⟩ := @slotType_definite c offset _ (List.ne_nil_of_mem mem) each
  rw [type]
  exact definite.leaves_ne_nil known

/-- A structure is definite if the aggregate is. -/
lemma struct_definite (definite : aggregate.Definite) :
    (struct config c aggregate).type.Definite := by
  have each : ∀ {places}, (∀ offset ∈ places, aggregate.Accesses offset) →
      ∀ cell ∈ cells config c aggregate places, cell.type.leaves ≠ [] := by
    intro places accessed
    induction places with
    | nil => exact nofun
    | cons offset later ih =>
      rw [List.forall_mem_cons] at accessed
      rw [cells, List.forall_mem_cons]
      exact ⟨cell_known definite accessed.1 later, ih accessed.2⟩
  obtain ⟨size, fields, type, observed⟩ := @observed_struct config c aggregate
  rw [type]
  intro u mem
  rw [DataType.parts, observed, List.map_map] at mem
  obtain ⟨cell, inside, rfl⟩ := List.mem_map.1 mem
  exact each (fun _ => mem_offsets.1) cell inside

/-- Where something is known of the accessed values, something is known of all that the type of an
aggregate tells of. -/
lemma synthesize_definite (definite : aggregate.Definite) :
    (synthesize config c aggregate).type.Definite := by
  rw [synthesize]
  cases lone : lone? config c aggregate with
  | some synthesis => exact lone?_definite definite lone
  | none =>
    cases uniform : uniformArray? config aggregate with
    | some array => exact uniformArray?_definite uniform
    | none => exact struct_definite definite

end

end Layout

end TypeRecovery
