import TypeRecovery.Proofs.Resolution.Tiling

/-!
# Remarks on overlapping fields

A field that starts before the fields in front of it end is remarked on. The remark names the field
directly in front of it, which need not be the one that reaches into it (`overlaps_of_verdict`):
where a wide field contains two narrow ones, the narrow ones are named, and they have no byte in
common (`overlap_of_disjoint`).
-/

namespace TypeRecovery

namespace Layout

section
variable {c : ClassId} {cells : List Cell} {cursor : Int} {previous : Option Int64}
  {d : ClassId} {first second : Int64}

/-- The offset of the last cell. -/
def lastOffset (previous : Option Int64) (cells : List Cell) : Option Int64 :=
  cells.foldl (fun _ cell => some cell.offset) previous

/-- The last offset is that of the last cell. -/
lemma lastOffset_append_singleton (before : List Cell) (cell : Cell) :
    lastOffset previous (before ++ [cell]) = some cell.offset := by
  rw [lastOffset, List.foldl_append]
  rfl

/-- The remarks of a tiling, cell by cell. -/
lemma mem_remarks_tile {n : Remark} : n ∈ (tile c cursor previous cells).remarks ↔
    ∃ before cell later, cells = before ++ cell :: later ∧ (n ∈ cell.remarks ∨
      n ∈ overlapRemarks c (lastOffset previous before) (tile c cursor previous before).limit
        cell.offset) := by
  induction cells generalizing cursor previous with
  | nil => simp [tile]
  | cons cell rest ih =>
    rw [tile, List.mem_append, List.mem_append, ih]
    constructor
    · rintro (here | ⟨before, other, later, rfl, there⟩)
      · exact ⟨[], cell, rest, rfl, here⟩
      · exact ⟨cell :: before, other, later, rfl, there⟩
    · rintro ⟨before, other, later, split, there⟩
      cases before with
      | nil =>
        cases split
        exact .inl there
      | cons _ before =>
        cases split
        exact .inr ⟨before, other, later, rfl, there⟩

/-- A remark on an overlap names the field in front and the one that starts before that ends. -/
lemma mem_overlapRemarks {offset : Int64} :
    .overlappingFields d first second ∈ overlapRemarks c previous cursor offset ↔
      d = c ∧ previous = some first ∧ second = offset ∧ second.toInt < cursor := by
  cases previous with
  | none => simp [overlapRemarks]
  | some p =>
    by_cases inside : offset.toInt < cursor
    · simp only [overlapRemarks, if_pos inside, List.mem_singleton, Remark.overlappingFields.injEq,
        Option.some.injEq]
      constructor
      · rintro ⟨rfl, rfl, rfl⟩
        exact ⟨rfl, rfl, rfl, inside⟩
      · rintro ⟨rfl, rfl, rfl, _⟩
        exact ⟨rfl, rfl, rfl⟩
    · simp only [overlapRemarks, if_neg inside, List.not_mem_nil, false_iff]
      rintro ⟨_, _, rfl, within⟩
      exact inside within

/-- What a cell itself is remarked on for is no overlap. -/
lemma not_mem_remarks_cell {config : Config} {aggregate : Aggregate} {offset : Int64}
    {later : List Int64} :
    .overlappingFields d first second ∉ (cell config c aggregate offset later).remarks := by
  rw [cell_eq.2]
  simp only [slotType]
  split <;> simp

end

end Layout

namespace Evidence

/-- No part is accessed between two offsets that are. -/
structure Adjacent (e : Evidence) (first second : Int64) : Prop where
  lower : e.Accesses first
  upper : e.Accesses second
  lt : first < second
  none_between : ∀ offset, e.Accesses offset → offset ≤ first ∨ second ≤ offset

section
variable {config : Config} {c : ClassId} {types : VarId → Option DataType} {e : Evidence}
  {size : UInt64} {fields : List (Field DataType)} {remarks : List Remark}
  {front later : List Layout.Cell} {cell : Layout.Cell} {d : ClassId} {first second : Int64}

/-- The cells in front of a cell are those at lower offsets. -/
lemma mem_front (split : e.cells config c types = front ++ cell :: later) {x : Layout.Cell} :
    x ∈ front ↔ x ∈ e.cells config c types ∧ x.offset < cell.offset := by
  have ascending := @ascending_cells config c types e
  rw [split, List.pairwise_append, List.pairwise_cons] at ascending
  obtain ⟨_, ⟨above, _⟩, below⟩ := ascending
  rw [split, List.mem_append, List.mem_cons]
  constructor
  · intro mem
    exact ⟨.inl mem, below x mem cell List.mem_cons_self⟩
  · rintro ⟨mem | rfl | mem, lt⟩
    · exact mem
    · exact (Int64.lt_irrefl lt).elim
    · exact absurd lt (Int64.lt_asymm (above x mem))

/-- The last cell in front of a cell is at the offset directly before it. -/
lemma lastOffset_front (split : e.cells config c types = front ++ cell :: later) :
    Layout.lastOffset none front = some first ↔ e.Adjacent first cell.offset := by
  have upper : e.Accesses cell.offset :=
    (@exists_cell_iff config c types e _).1 ⟨cell, by simp [split], rfl⟩
  rcases List.eq_nil_or_concat front with rfl | ⟨before, lower, rfl⟩
  · -- nothing is accessed before the first cell
    refine ⟨nofun, fun adjacent => ?_⟩
    obtain ⟨x, mem, rfl⟩ := (@exists_cell_iff config c types e _).2 adjacent.lower
    cases (mem_front split).2 ⟨mem, adjacent.lt⟩
  · rw [List.concat_eq_append] at split ⊢
    have split' : e.cells config c types = before ++ lower :: cell :: later := by
      rw [split, List.append_assoc, List.singleton_append]
    obtain ⟨mem, lt⟩ := (mem_front split).1 (by simp : lower ∈ before ++ [lower])
    -- `lower` is the last cell in front, so it is the nearest one
    have nearest : ∀ x ∈ e.cells config c types, x.offset < cell.offset →
        x.offset ≤ lower.offset := by
      intro x inside below
      rcases List.mem_append.1 ((mem_front split).2 ⟨inside, below⟩) with front | last
      · exact Int64.le_of_lt ((mem_front split').1 front).2
      · rw [List.mem_singleton.1 last]
        exact Int64.le_refl _
    rw [Layout.lastOffset_append_singleton, Option.some_inj]
    constructor
    · rintro rfl
      refine ⟨exists_cell_iff.1 ⟨lower, mem, rfl⟩, upper, lt, fun offset accessed => ?_⟩
      obtain ⟨x, inside, rfl⟩ := (@exists_cell_iff config c types e _).2 accessed
      rw [or_iff_not_imp_right, Int64.not_le]
      exact nearest x inside
    · intro adjacent
      obtain ⟨x, inside, rfl⟩ := (@exists_cell_iff config c types e _).2 adjacent.lower
      have accessed : e.Accesses lower.offset := exists_cell_iff.1 ⟨lower, mem, rfl⟩
      rcases adjacent.none_between _ accessed with below | above
      · exact Int64.le_antisymm below (nearest x inside adjacent.lt)
      · exact absurd lt (Int64.not_lt.2 above)

/-- The remarks on overlaps, by the cells that are tiled. -/
lemma mem_remarks_tiling : .overlappingFields d first second ∈ (e.tiling config c types).remarks ↔
    d = c ∧ ∃ front cell later, e.cells config c types = front ++ cell :: later ∧
      cell.offset = second ∧ e.Adjacent first second ∧
        ∃ lower ∈ front, second.toInt < lower.limit := by
  rw [tiling, Layout.mem_remarks_tile]
  constructor
  · rintro ⟨front, cell, later, split, own | overlap⟩
    · -- a cell alone is remarked on for its alternatives only
      have mem : cell ∈ e.cells config c types := by simp [split]
      obtain ⟨_, _, _, _, rfl⟩ := Layout.mem_cells.1 mem
      exact absurd own Layout.not_mem_remarks_cell
    · obtain ⟨rfl, last, rfl, inside⟩ := Layout.mem_overlapRemarks.1 overlap
      have adjacent := (lastOffset_front split).1 last
      -- nothing starts before the start, so it is a cell that reaches beyond the offset
      rcases Layout.lt_limit_tile.1 inside with early | lower
      · have forward := start_le adjacent.upper
        omega
      · exact ⟨rfl, front, cell, later, split, rfl, adjacent, lower⟩
  · rintro ⟨rfl, front, cell, later, split, rfl, adjacent, lower⟩
    refine ⟨front, cell, later, split, .inr (Layout.mem_overlapRemarks.2 ?_)⟩
    exact ⟨rfl, (lastOffset_front split).2 adjacent, rfl, Layout.lt_limit_tile.2 (.inr lower)⟩

/-- A structure is remarked on for every field that starts inside of one in front of it, and for no
other. The remark names the field and the one directly in front of it. -/
lemma LaidOut.mem_remarks (laid : e.LaidOut config c types size fields remarks)
    (fits : e.Fits config types fields) : .overlappingFields d first second ∈ remarks ↔
      d = c ∧ e.Adjacent first second ∧
        ∃ f ∈ Field.observed fields, f.offset < second ∧ e.Covers config types f second.toInt := by
  rw [laid.struct_eq.2.2, mem_remarks_tiling, laid.exists_observed]
  refine and_congr_right fun _ => ?_
  constructor
  · rintro ⟨front, cell, later, split, rfl, adjacent, lower, mem, inside⟩
    obtain ⟨mem, lt⟩ := (mem_front split).1 mem
    rw [laid.limit_cell fits mem] at inside
    exact ⟨adjacent, lower, mem, lt, (Int64.lt_iff_toInt_lt.1 lt).le, inside⟩
  · rintro ⟨adjacent, lower, mem, lt, _, inside⟩
    obtain ⟨cell, here, rfl⟩ := (@exists_cell_iff config c types e _).2 adjacent.upper
    obtain ⟨front, later, split⟩ := List.append_of_mem here
    refine ⟨front, cell, later, split, rfl, adjacent, lower, (mem_front split).2 ⟨mem, lt⟩, ?_⟩
    rw [laid.limit_cell fits mem]
    exact inside

/-- An offset that is not the lowest one has one directly before it. -/
lemma exists_adjacent (config : Config) (c : ClassId) (types : VarId → Option DataType)
    (lower : e.Accesses first) (upper : e.Accesses second) (lt : first < second) :
    ∃ nearest, e.Adjacent nearest second := by
  obtain ⟨x, inside, rfl⟩ := (@exists_cell_iff config c types e _).2 lower
  obtain ⟨cell, here, rfl⟩ := (@exists_cell_iff config c types e _).2 upper
  obtain ⟨front, later, split⟩ := List.append_of_mem here
  rcases List.eq_nil_or_concat front with rfl | ⟨before, last, rfl⟩
  · cases (mem_front split).2 ⟨inside, lt⟩
  · rw [List.concat_eq_append] at split
    exact ⟨_, (lastOffset_front split).1 (Layout.lastOffset_append_singleton before last)⟩

/-- A remark on recursion is none on an overlap. -/
lemma not_mem_recursions : .overlappingFields d first second ∉ e.recursions types c := by
  have plain : ∀ offset v,
      Remark.overlappingFields d first second ∉ Inquiry.recursion types c offset v := by
    intro offset v
    rw [Inquiry.recursion]
    split <;> simp
  simp [recursions, plain]

/-- The remarks of a verdict on overlapping fields. There is one on every field that has a byte in
common with a field in front of it. -/
theorem overlaps_of_verdict (laid : e.LaidOut config c types size fields remarks)
    (strides : ∀ access ∈ e.elements, access.stride ≠ 0) (fits : e.Fits config types fields)
    (arena : Arena) :
    ∃ s, ResolveM.inquire (fun v => pure (types v)) (.verdict config c e) ⟨arena, #[]⟩ =
        .ok (.struct size fields) s ∧
      (∀ d first second, .overlappingFields d first second ∈ s.remarks ↔
        d = c ∧ e.Adjacent first second ∧ ∃ f ∈ Field.observed fields,
          f.offset < second ∧ e.Covers config types f second.toInt) ∧
      ∀ f ∈ Field.observed fields, ∀ g ∈ Field.observed fields, f.offset < g.offset →
        (∃ b, e.Covers config types f b ∧ e.Covers config types g b) →
          ∃ first, .overlappingFields c first g.offset ∈ s.remarks := by
  have noted : ∀ d first second, .overlappingFields d first second ∈
      #[] ++ (e.recursions types c ++ remarks).toArray ↔ d = c ∧ e.Adjacent first second ∧
        ∃ f ∈ Field.observed fields, f.offset < second ∧ e.Covers config types f second.toInt := by
    intro d first second
    rw [← laid.mem_remarks fits]
    simp [not_mem_recursions]
  have accessed : ∀ f ∈ Field.observed fields, e.Accesses f.offset := by
    intro f mem
    have observed : ∃ g ∈ Field.observed fields, g.offset = f.offset := ⟨f, mem, rfl⟩
    exact exists_cell_iff.1 (laid.exists_observed.1 observed)
  refine ⟨_, laid.inquire strides _, noted, ?_⟩
  -- a field in front that has a byte of `g` covers the start of `g`
  rintro f lower g upper lt ⟨b, ⟨_, before⟩, ⟨behind, _⟩⟩
  obtain ⟨nearest, adjacent⟩ :=
    exists_adjacent config c types (accessed f lower) (accessed g upper) lt
  have le := (Int64.lt_iff_toInt_lt.1 lt).le
  refine ⟨nearest, (noted c nearest g.offset).2 ⟨rfl, adjacent, f, lower, lt, le, ?_⟩⟩
  omega

end

/-- Two narrow parts inside of a wide one. -/
def nested : Evidence :=
  ofParts [⟨0, 8, ⟨0⟩⟩, ⟨2, 1, ⟨0⟩⟩, ⟨4, 1, ⟨0⟩⟩] [] none

/-- The wide part as a field. -/
def wide : Field DataType :=
  DataType.observed 0 (.word 8)

/-- A narrow part as a field. -/
def narrow (offset : Int64) : Field DataType :=
  DataType.observed offset (.word 1)

/-- The wide part and the two narrow ones are laid out as three fields, with two remarks. -/
lemma nested_laidOut : nested.LaidOut .lp64 ⟨0⟩ (fun _ => some .void) 8 [wide, narrow 2, narrow 4]
    [.overlappingFields ⟨0⟩ 0 2, .overlappingFields ⟨0⟩ 2 4] :=
  ⟨rfl, rfl, rfl, rfl, by decide +kernel⟩

/-- The second narrow field, which the wide one contains, is remarked on. -/
theorem overlaps_of_verdict_nested : ∃ s, ResolveM.inquire (fun _ => pure (some .void))
      (.verdict .lp64 ⟨0⟩ nested) ⟨default, #[]⟩ = .ok (.struct 8 [wide, narrow 2, narrow 4]) s ∧
    nested.Covers .lp64 (fun _ => some .void) wide 4 ∧
    ∃ first, .overlappingFields ⟨0⟩ first 4 ∈ s.remarks := by
  have fits : nested.Fits .lp64 (fun _ => some .void) [wide, narrow 2, narrow 4] :=
    ⟨nofun, by decide +kernel, by decide +kernel⟩
  have common : nested.Covers .lp64 (fun _ => some .void) wide 4 ∧
      nested.Covers .lp64 (fun _ => some .void) (narrow 4) 4 := by decide +kernel
  obtain ⟨s, run, _, each⟩ := overlaps_of_verdict nested_laidOut nofun fits default
  exact ⟨s, run, common.1,
    each wide (by decide +kernel) (narrow 4) (by decide +kernel) (by decide) ⟨4, common⟩⟩

/-- The remark on the second narrow field names the first one, which ends in front of it. -/
theorem overlap_of_disjoint : ∃ s, ResolveM.inquire (fun _ => pure (some .void))
      (.verdict .lp64 ⟨0⟩ nested) ⟨default, #[]⟩ = .ok (.struct 8 [wide, narrow 2, narrow 4]) s ∧
    .overlappingFields ⟨0⟩ 2 4 ∈ s.remarks ∧
    ∀ b, ¬(nested.Covers .lp64 (fun _ => some .void) (narrow 2) b ∧
      nested.Covers .lp64 (fun _ => some .void) (narrow 4) b) := by
  refine ⟨_, nested_laidOut.inquire nofun _, by decide +kernel, ?_⟩
  rintro b ⟨⟨_, before⟩, behind, _⟩
  have ends : (narrow 2).offset.toInt + nested.span .lp64 (fun _ => some .void) (narrow 2) = 3 := by
    decide +kernel
  have starts : (narrow 4).offset.toInt = 4 := by decide
  omega

end Evidence

end TypeRecovery
