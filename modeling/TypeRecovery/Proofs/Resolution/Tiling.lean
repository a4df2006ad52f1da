import Mathlib.Data.List.Pairwise
import Mathlib.Order.Bounds.Defs
import TypeRecovery.Proofs.Resolution.Accesses

/-!
# Tilings

The fields of a structure fill it without gaps. Fields that were accessed may overlap, but filler
overlaps nothing. `Fills` is kept when a cell is put behind the others, with the gap in front of it
filled (`Fills.cell`), and so by the tiling of any number of cells (`Fills.tiles`). The verdict on
an aggregate that is laid out as a structure is tiled (`verdict_tiles`).
-/

namespace TypeRecovery

namespace Layout

section
variable (span : Field DataType → Nat)

/-- The offset behind a field. -/
def stop (f : Field DataType) : Int :=
  f.offset.toInt + span f

/-- A field starts before another one, and ends before it if one of them is filler. -/
def Precedes (f g : Field DataType) : Prop :=
  f.offset < g.offset ∧ (f.padding = true ∨ g.padding = true → stop span f ≤ g.offset.toInt)

/-- Fields fill the bytes from one offset to another. -/
structure Fills (start : Int) (fields : List (Field DataType)) (limit : Int) : Prop where
  start_le : start ≤ limit
  precede : fields.Pairwise (Precedes span)
  within : ∀ f ∈ fields, 0 < span f ∧ stop span f ≤ limit
  filler : ∀ f ∈ fields, f.padding = true → ∃ n, f.type = .array .byte (some n) ∧ 0 < n
  covered : ∀ b, start ≤ b → b < limit → ∃ f ∈ fields, f.offset.toInt ≤ b ∧ b < stop span f

end

section
variable {span : Field DataType → Nat} {start limit : Int} {fields : List (Field DataType)}

/-- No fields fill nothing. -/
lemma Fills.nil : Fills span start [] start :=
  ⟨Int.le_refl _, .nil, nofun, nofun, fun b low high => by omega⟩

/-- A field that joins on is put behind the others. -/
lemma Fills.snoc (fills : Fills span start fields limit) {f : Field DataType}
    (behind : ∀ g ∈ fields, Precedes span g f) (joins : f.offset.toInt ≤ limit) (room : 0 < span f)
    (filler : f.padding = true → ∃ n, f.type = .array .byte (some n) ∧ 0 < n) :
    Fills span start (fields ++ [f]) (max limit (stop span f)) := by
  constructor
  case start_le => exact fills.start_le.trans (le_max_left _ _)
  case precede =>
    rw [List.pairwise_append]
    refine ⟨fills.precede, List.pairwise_singleton _ _, fun g mem h last => ?_⟩
    rw [List.mem_singleton.1 last]
    exact behind g mem
  case within =>
    intro g mem
    rcases List.mem_append.1 mem with mem | mem
    · exact ⟨(fills.within g mem).1, (fills.within g mem).2.trans (le_max_left _ _)⟩
    · rw [List.mem_singleton.1 mem]
      exact ⟨room, le_max_right _ _⟩
  case filler =>
    intro g mem
    rcases List.mem_append.1 mem with mem | mem
    · exact fills.filler g mem
    · rw [List.mem_singleton.1 mem]
      exact filler
  case covered =>
    intro b low high
    by_cases old : b < limit
    · obtain ⟨g, mem, covers⟩ := fills.covered b low old
      exact ⟨g, List.mem_append_left _ mem, covers⟩
    · -- the new field reaches down to the old limit
      exact ⟨f, by simp, by omega, (lt_max_iff.1 high).resolve_left old⟩

/-- Filler from one offset to another ends there. -/
lemma of_mem_fillerTo (filler : ∀ offset n, span (DataType.filler offset n) = n.toNat) {stop : Int}
    (low : -2 ^ 63 ≤ limit) (high : stop < 2 ^ 63) {f : Field DataType}
    (mem : f ∈ fillerTo limit stop) :
    limit < stop ∧ f.padding = true ∧ f.offset.toInt = limit ∧ Layout.stop span f = stop ∧
      ∃ n, f.type = .array .byte (some n) ∧ 0 < n := by
  rw [fillerTo] at mem
  split at mem
  · rename_i gap
    rw [List.mem_singleton.1 mem]
    have offset : (Int64.ofInt limit).toInt = limit := Int64.toInt_ofInt_of_le low (by omega)
    have length : (UInt64.ofNat (stop - limit).toNat).toNat = (stop - limit).toNat :=
      UInt64.toNat_ofNat_of_lt' (by rw [UInt64.size]; omega)
    refine ⟨gap, rfl, offset, ?_, _, rfl, ?_⟩
    · rw [Layout.stop, filler, length]
      show (Int64.ofInt limit).toInt + _ = _
      omega
    · rw [UInt64.lt_iff_toNat_lt, length]
      show 0 < _
      omega
  · cases mem

/-- Fields that are filled up to an offset fill the bytes up to it. -/
lemma Fills.fill (fills : Fills span start fields limit)
    (filler : ∀ offset n, span (DataType.filler offset n) = n.toNat) (low : -2 ^ 63 ≤ start)
    {stop : Int} (high : stop < 2 ^ 63) :
    Fills span start (fields ++ fillerTo limit stop) (max limit stop) := by
  have low := low.trans fills.start_le
  by_cases gap : limit < stop
  · obtain ⟨f, single⟩ : ∃ f, fillerTo limit stop = [f] := ⟨_, if_pos gap⟩
    obtain ⟨_, padding, offset, last, shape⟩ :=
      of_mem_fillerTo filler low high (single ▸ List.mem_singleton_self f)
    rw [single, ← last]
    apply fills.snoc
    · intro g mem
      have within := fills.within g mem
      rw [Layout.stop] at within
      refine ⟨Int64.lt_iff_toInt_lt.2 (by omega), fun _ => ?_⟩
      rw [offset]
      exact within.2
    · exact offset.le
    · rw [Layout.stop] at last
      omega
    · exact fun _ => shape
  · have none : fillerTo limit stop = [] := if_neg gap
    rw [none, List.append_nil, max_eq_left (Int.not_lt.1 gap)]
    exact fills

/-- Filler has no byte in common with another field. -/
lemma Fills.apart (fills : Fills span start fields limit) {f g : Field DataType} (mem : f ∈ fields)
    (padding : f.padding = true) (inside : g ∈ fields) (other : g ≠ f) (b : Int) :
    ¬((f.offset.toInt ≤ b ∧ b < stop span f) ∧ g.offset.toInt ≤ b ∧ b < stop span g) := by
  have symm : Std.Symm fun x y => Precedes span x y ∨ Precedes span y x := ⟨fun _ _ => Or.symm⟩
  have either : fields.Pairwise fun x y => Precedes span x y ∨ Precedes span y x :=
    fills.precede.imp Or.inl
  have ordered := either.forall mem inside other.symm
  rcases ordered with ⟨_, ends⟩ | ⟨_, ends⟩
  · have before := ends (.inl padding)
    omega
  · have before := ends (.inr padding)
    omega

/-- Cells whose bytes can be tiled. -/
structure Tileable (span : Field DataType → Nat) (cells : List Cell) : Prop where
  ascending : cells.Pairwise fun x y => x.offset < y.offset
  span : ∀ cell ∈ cells, span cell.field = cell.size
  size : ∀ cell ∈ cells, 0 < cell.size ∧ cell.size < 2 ^ 63

/-- A cell that can be tiled ends where its field does. -/
lemma Tileable.limit_eq {cells : List Cell} (tileable : Tileable span cells) :
    ∀ cell ∈ cells, cell.limit = stop span cell.field := by
  intro cell mem
  rw [Cell.limit, stop, Int64.toInt_ofNat_of_lt (tileable.size cell mem).2, tileable.span cell mem]
  rfl

/-- Filler up to an offset precedes what starts there or behind. -/
lemma precedes_of_mem_fillerTo (filler : ∀ offset n, span (DataType.filler offset n) = n.toNat)
    (low : -2 ^ 63 ≤ limit) {offset : Int64} {f g : Field DataType}
    (mem : f ∈ fillerTo limit offset.toInt) (le : offset ≤ g.offset) : Precedes span f g := by
  obtain ⟨gap, _, here, last, _⟩ := of_mem_fillerTo filler low offset.toInt_lt mem
  rw [Int64.le_iff_toInt_le] at le
  refine ⟨Int64.lt_iff_toInt_lt.2 ?_, fun _ => ?_⟩
  · omega
  · rw [last]
    exact le

/-- The gap in front of a cell is filled, and the cell is put behind it. -/
lemma Fills.cell (fills : Fills span start fields limit)
    (filler : ∀ offset n, span (DataType.filler offset n) = n.toNat) (low : -2 ^ 63 ≤ start)
    {cell : Cell} (room : 0 < span cell.field) (ends : cell.limit = stop span cell.field)
    (behind : ∀ f ∈ fields, Precedes span f cell.field) :
    Fills span start (fields ++ fillerTo limit cell.offset.toInt ++ [cell.field])
      (max limit cell.limit) := by
  have forward : cell.offset.toInt ≤ stop span cell.field := by
    show cell.offset.toInt ≤ cell.offset.toInt + _
    omega
  have edge : max (max limit cell.offset.toInt) (stop span cell.field) = max limit cell.limit := by
    rw [ends, max_assoc, max_eq_right forward]
  rw [← edge]
  refine (fills.fill filler low cell.offset.toInt_lt).snoc ?_ (le_max_right _ _) room nofun
  intro f mem
  rcases List.mem_append.1 mem with mem | mem
  · exact behind f mem
  · exact precedes_of_mem_fillerTo filler (low.trans fills.start_le) mem (Int64.le_refl _)

/-- A tiling goes on where the fields in front of it end. -/
lemma Fills.tiles {c : ClassId} {cells : List Cell} {previous : Option Int64}
    (fills : Fills span start fields limit) (tileable : Tileable span cells)
    (filler : ∀ offset n, span (DataType.filler offset n) = n.toNat) (low : -2 ^ 63 ≤ start)
    (behind : ∀ f ∈ fields, ∀ cell ∈ cells, Precedes span f cell.field) :
    Fills span start (fields ++ (tile c limit previous cells).fields)
      (tile c limit previous cells).limit := by
  induction cells generalizing fields limit previous with
  | nil =>
    rw [tile, List.append_nil]
    exact fills
  | cons cell later ih =>
    have ends := tileable.limit_eq cell List.mem_cons_self
    obtain ⟨ascending, spans, sizes⟩ := tileable
    rw [List.pairwise_cons] at ascending
    rw [List.forall_mem_cons] at spans sizes
    have room : 0 < span cell.field := spans.1 ▸ sizes.1.1
    have next := fills.cell filler low room ends fun f mem => behind f mem cell List.mem_cons_self
    rw [tile, ← List.singleton_append, ← List.append_assoc, ← List.append_assoc]
    apply ih next ⟨ascending.2, spans.2, sizes.2⟩
    -- all that is there now precedes the later cells: the old fields, the filler and the cell
    intro f mem other inside
    have before := ascending.1 other inside
    rw [List.mem_append, List.mem_append, List.mem_singleton] at mem
    rcases mem with (mem | mem) | rfl
    · exact behind f mem other (List.mem_cons_of_mem _ inside)
    · exact precedes_of_mem_fillerTo filler (low.trans fills.start_le) mem (Int64.le_of_lt before)
    · refine ⟨before, fun padded => ?_⟩
      rcases padded with padded | padded <;> exact absurd padded Bool.false_ne_true

/-- A tiling ends where the last cell does. -/
lemma lt_limit_tile {c : ClassId} {cells : List Cell} {cursor x : Int} {previous : Option Int64} :
    x < (tile c cursor previous cells).limit ↔ x < cursor ∨ ∃ cell ∈ cells, x < cell.limit := by
  induction cells generalizing cursor previous with
  | nil => simp [tile]
  | cons cell later ih =>
    rw [tile, ih, lt_max_iff, or_assoc]
    simp only [List.exists_mem_cons_iff]

end

end Layout

/-! ## Structures -/

namespace Evidence

section
variable (config : Config) (types : VarId → Option DataType) (e : Evidence)

/-- The number of bytes of a field. -/
def span (field : Field DataType) : Nat :=
  if field.padding then (field.type.size? config.pointerWidth).getD 0
  else e.reach config types field

/-- A byte belongs to a field. -/
def Covers (field : Field DataType) (byte : Int) : Prop :=
  field.offset.toInt ≤ byte ∧ byte < field.offset.toInt + e.span config types field

instance (field : Field DataType) (byte : Int) : Decidable (Covers config types e field byte) :=
  inferInstanceAs (Decidable (_ ∧ _))

/-- The sizes and offsets of fields are in the signed range. -/
structure Fits (fields : List (Field DataType)) : Prop where
  extent : ∀ n, e.extent = some n → n.toNat < 2 ^ 63
  size : ∀ f ∈ Field.observed fields, e.reach config types f < 2 ^ 63
  stop : ∀ f ∈ Field.observed fields, f.offset.toInt + e.reach config types f < 2 ^ 63

/-- The fields of a structure are what was accessed, with the gaps between them filled. -/
structure Tiles (size : UInt64) (fields : List (Field DataType)) : Prop where
  observed : ∀ offset, (∃ f ∈ Field.observed fields, f.offset = offset) ↔ e.Accesses offset
  ascending : fields.Pairwise fun f g => f.offset < g.offset
  filler : ∀ f ∈ fields, f.padding = true → ∃ n, f.type = .array .byte (some n) ∧ 0 < n
  /-- Filler overlaps nothing. -/
  apart : ∀ f ∈ fields, f.padding = true → ∀ g ∈ fields, g ≠ f →
    ∀ b, ¬(e.Covers config types f b ∧ e.Covers config types g b)
  /-- There are no gaps. -/
  covered : ∀ b, e.start ≤ b → b < e.start + size.toNat →
    (∃ f ∈ Field.observed fields, e.Covers config types f b) ∨
      ∃! f, f ∈ fields ∧ f.padding = true ∧ e.Covers config types f b
  limit : IsGreatest {b : Int | (∃ n, e.extent = some n ∧ b = n.toNat) ∨
    ∃ f ∈ Field.observed fields, b = f.offset.toInt + e.reach config types f}
    (e.start + size.toNat)

end

section
variable {config : Config} {c : ClassId} {types : VarId → Option DataType} {e : Evidence}
  {size : UInt64} {fields : List (Field DataType)} {remarks : List Remark} {offset : Int64}

/-- The start of a structure is in the signed range. -/
lemma low_start : -2 ^ 63 ≤ e.start :=
  le_start.2 ⟨by omega, fun offset _ => offset.le_toInt⟩

/-- An aggregate is accessed somewhere. -/
lemma exists_access (aggregate : e.isAggregate = true) : ∃ offset, e.Accesses offset := by
  rw [isAggregate, Bool.or_eq_true, Bool.not_eq_true', Bool.not_eq_true', List.isEmpty_eq_false_iff,
    List.isEmpty_eq_false_iff] at aggregate
  rcases aggregate with some | some
  · obtain ⟨access, mem⟩ := List.exists_mem_of_ne_nil _ some
    exact ⟨_, .inl ⟨access, mem, rfl⟩⟩
  · obtain ⟨access, mem⟩ := List.exists_mem_of_ne_nil _ some
    exact ⟨_, .inr ⟨access, mem, rfl⟩⟩

/-- Filler has as many bytes as it was made for. -/
lemma span_filler (offset : Int64) (n : UInt64) :
    e.span config types (DataType.filler offset n) = n.toNat := by
  have size : DataType.size? config.pointerWidth (.array .byte (some n)) = some n.toNat := by
    have small : 1 * n.toNat < UInt64.size := by
      rw [Nat.one_mul]
      exact n.toNat_lt
    show (if 1 * n.toNat < UInt64.size then some (1 * n.toNat) else none) = _
    rw [if_pos small, Nat.one_mul]
  show (DataType.size? config.pointerWidth (.array .byte (some n))).getD 0 = _
  rw [size]
  rfl

/-- The cells of a structure that fits can be tiled. -/
lemma LaidOut.tileable (laid : e.LaidOut config c types size fields remarks)
    (fits : e.Fits config types fields)
    (nonempty : ∀ f ∈ Field.observed fields, 0 < e.reach config types f) :
    Layout.Tileable (e.span config types) (e.cells config c types) := by
  constructor
  case ascending => exact ascending_cells
  case span => exact fun cell mem => (size_of_mem_cells fits.extent mem).symm
  case size =>
    intro cell mem
    rw [size_of_mem_cells fits.extent mem]
    exact ⟨nonempty _ (laid.field_mem mem), fits.size _ (laid.field_mem mem)⟩

/-- The fields of a structure fill it. -/
lemma LaidOut.fills (laid : e.LaidOut config c types size fields remarks)
    (fits : e.Fits config types fields)
    (nonempty : ∀ f ∈ Field.observed fields, 0 < e.reach config types f) :
    Layout.Fills (e.span config types) e.start fields (e.filling config c types).limit := by
  have tiled : Layout.Fills (e.span config types) e.start (e.tiling config c types).fields
      (e.tiling config c types).limit :=
    Layout.Fills.nil.tiles (laid.tileable fits nonempty) span_filler low_start nofun
  rw [laid.struct_eq.2.1, filling, endBound_eq fits.extent]
  cases whole : e.extent with
  | none => exact tiled
  | some n =>
    have high : (n.toNat : Int) < 2 ^ 63 := by
      have small := fits.extent n whole
      omega
    exact tiled.fill span_filler low_start high

/-- The offset behind a cell. -/
lemma LaidOut.limit_cell (laid : e.LaidOut config c types size fields remarks)
    (fits : e.Fits config types fields) {cell : Layout.Cell} (mem : cell ∈ e.cells config c types) :
    cell.limit = cell.offset.toInt + e.reach config types cell.field := by
  have small := fits.size cell.field (laid.field_mem mem)
  rw [Layout.Cell.limit, size_of_mem_cells fits.extent mem, Int64.toInt_ofNat_of_lt small]

/-- The offset behind a structure. -/
lemma LaidOut.lt_limit (laid : e.LaidOut config c types size fields remarks)
    (fits : e.Fits config types fields) (x : Int) :
    x < (e.filling config c types).limit ↔ x < e.start ∨
      (∃ f ∈ Field.observed fields, x < f.offset.toInt + e.reach config types f) ∨
        ∃ n, e.extent = some n ∧ x < n.toNat := by
  have filled : x < (e.filling config c types).limit ↔
      x < (e.tiling config c types).limit ∨ ∃ n, e.extent = some n ∧ x < n.toNat := by
    rw [filling, endBound_eq fits.extent]
    cases e.extent with
    | none => simp [Layout.Tiling.fillTo]
    | some n => simp [Layout.Tiling.fillTo]
  have tiled : x < (e.tiling config c types).limit ↔ x < e.start ∨
      ∃ f ∈ Field.observed fields, x < f.offset.toInt + e.reach config types f := by
    rw [tiling, Layout.lt_limit_tile, laid.exists_observed]
    refine or_congr_right (exists_congr fun cell => and_congr_right fun mem => ?_)
    rw [laid.limit_cell fits mem]
    rfl
  rw [filled, tiled, or_assoc]

/-- A structure has as many bytes as there are between its start and its limit. -/
lemma LaidOut.limit_eq (laid : e.LaidOut config c types size fields remarks)
    (fits : e.Fits config types fields) (forward : e.start ≤ (e.filling config c types).limit) :
    e.start + size.toNat = (e.filling config c types).limit := by
  have low := @low_start e
  -- the limit is in the signed range, so the size does not wrap around
  have high : ¬2 ^ 63 - 1 < (e.filling config c types).limit := by
    rw [laid.lt_limit fits]
    rintro (beyond | ⟨f, mem, beyond⟩ | ⟨n, extent, beyond⟩)
    · have early := (le_start.1 (Int.le_refl e.start)).1
      omega
    · have small := fits.stop f mem
      omega
    · have small := fits.extent n extent
      omega
  rw [laid.struct_eq.1, UInt64.toNat_ofNat_of_lt' (by rw [UInt64.size]; omega)]
  omega

/-- A structure ends where its last field or the whole aggregate does. -/
lemma LaidOut.isGreatest_limit (laid : e.LaidOut config c types size fields remarks)
    (fits : e.Fits config types fields)
    (nonempty : ∀ f ∈ Field.observed fields, 0 < e.reach config types f) :
    IsGreatest {b : Int | (∃ n, e.extent = some n ∧ b = n.toNat) ∨
      ∃ f ∈ Field.observed fields, b = f.offset.toInt + e.reach config types f}
      (e.filling config c types).limit := by
  have behind := laid.lt_limit fits
  generalize (e.filling config c types).limit = limit at behind
  have upper : limit ∈ upperBounds {b : Int | (∃ n, e.extent = some n ∧ b = n.toNat) ∨
      ∃ f ∈ Field.observed fields, b = f.offset.toInt + e.reach config types f} := by
    intro b reached
    by_contra beyond
    -- otherwise the limit would be below itself
    refine absurd ((behind limit).2 ?_) (Int.lt_irrefl limit)
    rcases reached with ⟨n, extent, rfl⟩ | ⟨f, mem, rfl⟩
    · exact .inr (.inr ⟨n, extent, Int.not_le.1 beyond⟩)
    · exact .inr (.inl ⟨f, mem, Int.not_le.1 beyond⟩)
  refine ⟨?_, upper⟩
  -- the start is not the end, as something is accessed
  obtain ⟨offset, accessed⟩ := exists_access laid.accessed
  obtain ⟨f, mem, here⟩ : ∃ f ∈ Field.observed fields, f.offset = offset :=
    laid.exists_observed.2 (exists_cell_iff.2 accessed)
  have room := nonempty f mem
  have within := upper (.inr ⟨f, mem, rfl⟩)
  have forward := start_le accessed
  rcases (behind (limit - 1)).1 (by omega) with early | ⟨f, mem, last⟩ | ⟨n, extent, last⟩
  · rw [here] at within
    omega
  · have le := upper (.inr ⟨f, mem, rfl⟩)
    exact .inr ⟨f, mem, by omega⟩
  · have le := upper (.inl ⟨n, extent, rfl⟩)
    exact .inl ⟨n, extent, by omega⟩

/-- The verdict on an aggregate that is laid out as a structure is a structure without gaps, of what
was accessed and filler. -/
theorem verdict_tiles (laid : e.LaidOut config c types size fields remarks)
    (strides : ∀ access ∈ e.elements, access.stride ≠ 0) (fits : e.Fits config types fields)
    (nonempty : ∀ f ∈ Field.observed fields, 0 < e.reach config types f) (s : Resolution) :
    (∃ s', ResolveM.inquire (fun v => pure (types v)) (.verdict config c e) s =
      .ok (.struct size fields) s') ∧ e.Tiles config types size fields := by
  refine ⟨⟨_, laid.inquire strides s⟩, ?_⟩
  have fills := laid.fills fits nonempty
  have whole := laid.limit_eq fits fills.start_le
  constructor
  case observed =>
    intro offset
    rw [← @exists_cell_iff config c types, laid.exists_observed]
    rfl
  case ascending => exact fills.precede.imp And.left
  case filler => exact fills.filler
  case apart => exact fun f mem padding g inside other => fills.apart mem padding inside other
  case covered =>
    intro b low high
    obtain ⟨f, mem, covers⟩ := fills.covered b low (whole ▸ high)
    cases padding : f.padding with
    | false => exact .inl ⟨f, List.mem_filter.2 ⟨mem, by rw [padding]; rfl⟩, covers⟩
    | true =>
      refine .inr ⟨f, ⟨mem, padding, covers⟩, ?_⟩
      rintro g ⟨inside, _, both⟩
      by_contra other
      exact fills.apart mem padding inside other b ⟨covers, both⟩
  case limit =>
    rw [whole]
    exact laid.isGreatest_limit fits nonempty

end

/-- A part in front of the start, two at the start, one inside of them, and elements at the end. -/
def mixed : Evidence :=
  ofParts [⟨-8, 8, ⟨0⟩⟩, ⟨0, 4, ⟨0⟩⟩, ⟨0, 8, ⟨0⟩⟩, ⟨2, 1, ⟨0⟩⟩] [⟨16, 4, 4, ⟨0⟩⟩] (some 40)

/-- The fields that it is laid out in. -/
def mixedFields : List (Field DataType) :=
  [DataType.observed (-8) (.word 8), DataType.observed 0 (.union [.word 4, .word 8]),
    DataType.observed 2 (.word 1), DataType.filler 8 8,
    DataType.observed 16 (.array (.word 4) (some 6))]

/-- The structure starts at -8 and has 48 bytes. -/
theorem verdict_tiles_mixed :
    mixed.LaidOut .lp64 ⟨0⟩ (fun _ => some .void) 48 mixedFields
      [.fieldUnion ⟨0⟩ 0 2, .overlappingFields ⟨0⟩ 0 2] ∧ mixed.start = -8 ∧
      mixed.Tiles .lp64 (fun _ => some .void) 48 mixedFields := by
  have laid : mixed.LaidOut .lp64 ⟨0⟩ (fun _ => some .void) 48 mixedFields
      [.fieldUnion ⟨0⟩ 0 2, .overlappingFields ⟨0⟩ 0 2] :=
    ⟨rfl, rfl, rfl, rfl, by decide +kernel⟩
  have extent : ∀ n, mixed.extent = some n → n.toNat < 2 ^ 63 := by
    rintro n ⟨⟩
    decide
  have fits : mixed.Fits .lp64 (fun _ => some .void) mixedFields :=
    ⟨extent, by decide +kernel, by decide +kernel⟩
  have nonempty : ∀ f ∈ Field.observed mixedFields,
      0 < mixed.reach .lp64 (fun _ => some .void) f := by decide +kernel
  exact ⟨laid, rfl, (verdict_tiles laid (by decide) fits nonempty default).2⟩

end Evidence

end TypeRecovery
