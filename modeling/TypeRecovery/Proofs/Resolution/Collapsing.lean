import TypeRecovery.Proofs.Resolution.Coverage

/-!
# Equal fields as an array

Equal fields without gaps are an array. The structure that the same fields are laid out in has no
filler and no overlaps, its fields are the elements of the array, and it has the size of the array
(`struct_of_uniformArray?`): collapsing the fields loses nothing but their names.
-/

namespace TypeRecovery

/-- What is in ascending order already stays as it is. -/
lemma Ascending.ofList_of_ascending {α : Type} {lt : α → α → Bool} {xs : List α}
    (ascending : xs.Pairwise fun x y => lt x y = true) : ofList lt xs = xs := by
  induction xs with
  | nil => rfl
  | cons x xs ih =>
    obtain ⟨first, rest⟩ := List.pairwise_cons.1 ascending
    show insertNew lt x (ofList lt xs) = x :: xs
    rw [ih rest]
    cases xs with
    | nil => rfl
    | cons y ys => exact if_pos (first y List.mem_cons_self)

/-- Grouped accesses are in the order of their offsets. -/
lemma Slot.ascending_ofAccesses (accesses : List TypedAccess) :
    (ofAccesses accesses).Pairwise fun x y => x.offset < y.offset := by
  rw [ofAccesses, List.pairwise_map]
  refine (Ascending.ascending_ofList Layout.offset_total ?_ _).imp of_decide_eq_true
  intro x y z first last
  exact decide_eq_true (Int64.lt_trans (of_decide_eq_true first) (of_decide_eq_true last))

namespace Layout

/-- Fields are the elements of an array, each `width` bytes behind the one in front of it. -/
structure Unrolls (element : DataType) (count width : Nat) (fields : List (Field DataType)) :
    Prop where
  length : fields.length = count
  field : ∀ i < count, ∃ f, fields[i]? = some f ∧ f.offset.toInt = i * width ∧ f.type = element ∧
    f.padding = false

section
variable {config : Config} {c : ClassId} {aggregate : Aggregate} {element : DataType}
  {width : UInt8}

/-! ## Cells and their tiling -/

/-- The cell of a slot that has one type only. -/
def plainCell (element : DataType) (width : UInt8) (slot : Slot) : Cell :=
  ⟨slot.offset, element, width.toNat, []⟩

/-- The cell of a slot of a uniform aggregate has the type and the width of all slots. -/
lemma Uniform.cell_eq (uniform : Uniform config aggregate element width) {slot : Slot}
    (mem : slot ∈ aggregate.slots) (later : List Int64) :
    cell config c aggregate slot.offset later = plainCell element width slot := by
  -- the slot that is found at this offset is as good as any other
  have some : (aggregate.slots.find? fun other => other.offset = slot.offset).isSome := by
    rw [List.find?_isSome]
    exact ⟨slot, mem, decide_eq_true rfl⟩
  obtain ⟨other, found⟩ := Option.isSome_iff_exists.1 some
  obtain ⟨type, span⟩ := of_mem_run uniform.run (List.mem_of_find?_eq_some found)
  simp [cell, plainCell, found, uniform.rows, type, span, Ascending.distinct, slotType,
    uniform.size]

/-- The cells of uniform slots have the type and the width of all slots. -/
lemma Uniform.cells_eq (uniform : Uniform config aggregate element width) {slots : List Slot}
    (mem : ∀ slot ∈ slots, slot ∈ aggregate.slots) :
    cells config c aggregate (slots.map (·.offset)) = slots.map (plainCell element width) := by
  induction slots with
  | nil => rfl
  | cons slot slots ih =>
    obtain ⟨here, there⟩ := List.forall_mem_cons.1 mem
    rw [List.map_cons, cells, uniform.cell_eq here, ih there, List.map_cons]

/-- Slots without gaps are tiled without filler, and none of them overlaps another. -/
lemma tile_of_isRun {slots : List Slot} {cursor : Int} {previous : Option Int64}
    (run : isRun element width cursor slots = true) :
    tile c cursor previous (slots.map (plainCell element width)) =
      ⟨slots.map fun slot => DataType.observed slot.offset element, [],
        cursor + slots.length * width.toNat⟩ := by
  induction slots generalizing cursor previous with
  | nil => simp [tile]
  | cons slot slots ih =>
    simp only [isRun, Bool.and_eq_true, beq_iff_eq] at run
    obtain ⟨⟨⟨rfl, _⟩, _⟩, rest⟩ := run
    have size : (Int64.ofNat width.toNat).toInt = width.toNat :=
      Int64.toInt_ofNat_of_lt (width.toNat_lt.trans (by decide))
    have limit : max slot.offset.toInt (plainCell element width slot).limit =
        slot.offset.toInt + width.toNat := by
      show max slot.offset.toInt (slot.offset.toInt + (Int64.ofNat width.toNat).toInt) = _
      rw [size]
      omega
    have filler : fillerTo slot.offset.toInt slot.offset.toInt = [] := if_neg (Int.lt_irrefl _)
    have overlaps : overlapRemarks c previous slot.offset.toInt slot.offset = [] := by
      cases previous with
      | none => rfl
      | some _ => exact if_neg (Int.lt_irrefl _)
    rw [List.map_cons, tile, limit, ih rest]
    show Tiling.mk (fillerTo slot.offset.toInt slot.offset.toInt ++ _)
      ([] ++ overlapRemarks c previous slot.offset.toInt slot.offset ++ []) _ = _
    rw [filler, overlaps]
    simp only [List.nil_append, List.length_cons, List.map_cons, Tiling.mk.injEq, true_and,
      plainCell]
    push_cast
    ring

/-- Nothing has to be filled in front of an end that the tiling reaches. -/
lemma Tiling.fillTo_of_le {t : Tiling} {stop : Option Int} (reached : ∀ e ∈ stop, e ≤ t.limit) :
    t.fillTo stop = t := by
  cases stop with
  | none => rfl
  | some e =>
    have reached := reached e rfl
    have filler : fillerTo t.limit e = [] := if_neg (Int.not_lt.2 reached)
    rw [fillTo, filler, List.append_nil, max_eq_left reached]

/-! ## The structure -/

/-- Where there are two slots at least, they have a width. -/
lemma Uniform.width_pos (uniform : Uniform config aggregate element width)
    (ascending : aggregate.slots.Pairwise fun x y => x.offset < y.offset) : 0 < width.toNat := by
  have several := uniform.several
  have run := uniform.run
  generalize aggregate.slots = slots at several run ascending
  match slots with
  | first :: second :: _ =>
    have start := offset_of_isRun run (show _[0]? = some first from rfl)
    have next := offset_of_isRun run (show _[1]? = some second from rfl)
    have behind := Int64.lt_iff_toInt_lt.1 (List.rel_of_pairwise_cons ascending List.mem_cons_self)
    omega

/-- The slots have room: the last one starts in the signed range. -/
lemma Uniform.size_lt (uniform : Uniform config aggregate element width) :
    aggregate.slots.length * width.toNat < UInt64.size := by
  obtain ⟨last, found⟩ : ∃ last, aggregate.slots[aggregate.slots.length - 1]? = some last := by
    have several := uniform.several
    exact ⟨_, List.getElem?_eq_getElem (by omega)⟩
  have offset := offset_of_isRun uniform.run found
  have bound := last.offset.toInt_lt
  have narrow := width.toNat_lt
  have several := uniform.several
  have split : aggregate.slots.length * width.toNat =
      (aggregate.slots.length - 1) * width.toNat + width.toNat := by
    rw [← Nat.succ_mul]
    congr 1
    omega
  rw [zero_add, ← Nat.cast_mul] at offset
  rw [UInt64.size]
  omega

/-- Uniform slots are laid out as a structure of fields of one type, without filler and without
remarks. -/
lemma Uniform.struct_eq (uniform : Uniform config aggregate element width)
    (ascending : aggregate.slots.Pairwise fun x y => x.offset < y.offset) :
    struct config c aggregate =
      ⟨.struct (UInt64.ofNat (aggregate.slots.length * width.toNat))
        (aggregate.slots.map fun slot => DataType.observed slot.offset element), []⟩ := by
  have places : offsets aggregate = aggregate.slots.map (·.offset) := by
    rw [offsets, uniform.rows, List.map_nil, List.append_nil]
    apply Ascending.ofList_of_ascending
    rw [List.pairwise_map]
    exact ascending.imp fun below => decide_eq_true below
  have zero : start (offsets aggregate) = 0 := by
    have run := uniform.run
    rw [places]
    generalize aggregate.slots = slots at run
    cases slots with
    | nil => rfl
    | cons first slots =>
      have here := offset_of_isRun run (show _[0]? = some first from rfl)
      show min first.offset.toInt 0 = 0
      omega
  have tiling : tile c 0 none (aggregate.slots.map (plainCell element width)) = _ :=
    tile_of_isRun uniform.run
  have reached : ∀ e ∈ endBound aggregate,
      e ≤ (tile c 0 none (aggregate.slots.map (plainCell element width))).limit := by
    intro e whole
    obtain ⟨n, extent, rfl⟩ := Option.map_eq_some_iff.1 whole
    -- an end beyond the signed range wraps around to a negative one
    have wraps : n.toBitVec.toInt ≤ n.toBitVec.toNat := by
      rw [BitVec.toInt_eq_toNat_cond]
      split
      · exact Int.le_refl _
      · omega
    rw [tiling, zero_add, ← Nat.cast_mul, ← uniform.extent n extent]
    exact wraps
  rw [struct, zero, places, uniform.cells_eq fun _ => id, Tiling.fillTo_of_le reached, tiling]
  have size : ((0 + aggregate.slots.length * width.toNat : Int) - 0).toNat =
      aggregate.slots.length * width.toNat := by
    rw [zero_add, sub_zero, ← Nat.cast_mul, Int.toNat_natCast]
  rw [size]

/-- Equal fields without gaps that are taken for an array are laid out as a structure of its
elements: of the same size, without filler and without remarks. -/
theorem struct_of_uniformArray?
    (ascending : aggregate.slots.Pairwise fun x y => x.offset < y.offset) {array : DataType}
    (collapsed : uniformArray? config aggregate = some array) (c : ClassId) :
    ∃ element n width size fields, array = .array element (some n) ∧
      element.size? config.pointerWidth = some width ∧
      struct config c aggregate = ⟨.struct size fields, []⟩ ∧
      Unrolls element n.toNat width fields ∧
      size.toNat = n.toNat * width ∧
      array.size? config.pointerWidth = some (n.toNat * width) ∧
      ∀ e, aggregate.extent = some e → e.toNat = n.toNat * width := by
  obtain ⟨element, width, uniform, rfl⟩ := uniform_of_uniformArray? collapsed
  have room := uniform.size_lt
  have count : (UInt64.ofNat aggregate.slots.length).toNat = aggregate.slots.length := by
    have bound := length_of_isRun uniform.run (uniform.width_pos ascending)
    exact UInt64.toNat_ofNat_of_lt' (by rw [UInt64.size]; omega)
  refine ⟨element, _, width.toNat, _, _, rfl, uniform.size, uniform.struct_eq ascending, ?_⟩
  rw [count]
  refine ⟨⟨List.length_map _, fun i lt => ?_⟩, ?_, ?_, uniform.extent⟩
  · have here := List.getElem?_eq_getElem lt
    refine ⟨DataType.observed aggregate.slots[i].offset element, ?_, ?_, rfl, rfl⟩
    · rw [List.getElem?_map, here]
      rfl
    · have offset := offset_of_isRun uniform.run here
      rwa [zero_add] at offset
  · exact UInt64.toNat_ofNat_of_lt' room
  · simp only [DataType.size?, uniform.size, count]
    rw [Nat.mul_comm, if_pos room]

end

/-- Three shorts, the last one accessed twice. -/
def shorts : Aggregate :=
  ⟨Slot.ofAccesses [⟨4, 2, .word 2⟩, ⟨0, 2, .word 2⟩, ⟨2, 2, .word 2⟩, ⟨4, 2, .word 2⟩], [], some 6⟩

/-- They are an array of three, and a structure of six bytes. -/
theorem struct_of_uniformArray?_shorts :
    uniformArray? .lp64 shorts = some (.array (.word 2) (some 3)) ∧
    ∃ element n width size fields,
      DataType.array (.word 2) (some 3) = .array element (some n) ∧
      element.size? Config.lp64.pointerWidth = some width ∧
      struct .lp64 ⟨0⟩ shorts = ⟨.struct size fields, []⟩ ∧
      Unrolls element n.toNat width fields ∧ size.toNat = n.toNat * width ∧
      DataType.size? Config.lp64.pointerWidth (.array (.word 2) (some 3)) =
        some (n.toNat * width) ∧
      ∀ e, shorts.extent = some e → e.toNat = n.toNat * width := by
  have uniform : uniformArray? .lp64 shorts = some (.array (.word 2) (some 3)) := by
    decide +kernel
  exact ⟨uniform, struct_of_uniformArray? (Slot.ascending_ofAccesses _) uniform ⟨0⟩⟩

end Layout

end TypeRecovery
