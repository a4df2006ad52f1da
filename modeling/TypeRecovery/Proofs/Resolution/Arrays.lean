import TypeRecovery.Proofs.Resolution.Tiling

/-!
# The lengths of arrays

Elements that are accessed at variable indices form an array in front of the next part that is
accessed, or of the end of the aggregate. It has as many elements as there are strides in between
(`arrays_of_verdict`), and so it ends there unless its elements are larger than the stride. Where
accesses are at least as wide as the stride, they can be: then the array goes on behind the end
(`array_beyond_bound`).
-/

namespace TypeRecovery

/-- A type has another one among its alternatives, or is that type. -/
def DataType.Offers (t u : DataType) : Prop :=
  t = u ∨ ∃ ts, t = .union ts ∧ u ∈ ts

namespace Layout

/-- A slot offers each of its alternatives. -/
lemma offers_slotType {c : ClassId} {offset : Int64} {alternatives : List DataType} {t : DataType}
    (mem : t ∈ alternatives) : (slotType c offset alternatives).type.Offers t := by
  simp only [slotType]
  split
  · exact .inl (List.mem_singleton.1 mem).symm
  · exact .inr ⟨_, rfl, mem⟩

/-- The number of elements of a row that end before a bound, if there are any. -/
def rowLength (row : Row) (bound : Option Int) : Option UInt64 :=
  ((bound.map fun b => (b - row.offset.toInt).toNat / row.stride.toNat).filter
    fun n => decide (0 < n)).map UInt64.ofNat

/-- A row has as many elements as there are whole strides before the bound. -/
lemma rowLength_eq_some {row : Row} (stride : row.stride ≠ 0) {bound : Option Int}
    (room : ∀ b, bound = some b → b < 2 ^ 63) {n : UInt64} :
    rowLength row bound = some n ↔ 0 < n ∧ ∃ b, bound = some b ∧
      n.toNat * row.stride.toNat ≤ b - row.offset.toInt ∧
      b - row.offset.toInt < (n.toNat + 1) * row.stride.toNat := by
  have positive : 0 < row.stride.toNat := by
    rw [Nat.pos_iff_ne_zero]
    exact fun zero => stride (UInt32.toNat_inj.1 zero)
  have low := row.offset.le_toInt
  simp only [rowLength, Option.map_eq_some_iff, Option.filter_eq_some_iff, decide_eq_true_eq]
  constructor
  · rintro ⟨_, ⟨⟨b, rfl, rfl⟩, some⟩, rfl⟩
    have high := room b rfl
    -- no element ends before a bound that lies in front of the row
    have forward : 0 ≤ b - row.offset.toInt := by
      by_contra backward
      rw [Int.toNat_of_nonpos (by omega), Nat.zero_div] at some
      exact absurd some (Nat.lt_irrefl 0)
    obtain ⟨bytes, e⟩ := Int.eq_ofNat_of_zero_le forward
    rw [e, Int.toNat_natCast] at some ⊢
    have count : (UInt64.ofNat (bytes / row.stride.toNat)).toNat = bytes / row.stride.toNat := by
      apply UInt64.toNat_ofNat_of_lt'
      apply (Nat.div_le_self _ _).trans_lt
      rw [UInt64.size]
      omega
    refine ⟨?_, b, rfl, ?_⟩
    · rw [UInt64.lt_iff_toNat_lt, count]
      exact some
    · rw [count, e]
      norm_cast
      exact ⟨Nat.div_mul_le_self _ _, (Nat.div_lt_iff_lt_mul positive).1 (Nat.lt_succ_self _)⟩
  · rintro ⟨some, b, rfl, before, behind⟩
    obtain ⟨bytes, e⟩ := Int.eq_ofNat_of_zero_le (Int.le_trans (Int.natCast_nonneg _) before)
    rw [e] at before behind
    norm_cast at before behind
    refine ⟨n.toNat, ⟨⟨b, rfl, ?_⟩, UInt64.lt_iff_toNat_lt.1 some⟩, UInt64.ofNat_toNat⟩
    rw [e, Int.toNat_natCast]
    exact Nat.div_eq_of_lt_le before behind

end Layout

/-- The first access with a key is a first access. -/
lemma Inquiry.mem_firstAccesses_of_find? {α κ : Type} [DecidableEq κ] {key : α → κ} {l : List α}
    {k : κ} {x : α} (found : (l.find? fun y => key y = k) = some x) : x ∈ firstAccesses key l := by
  induction l with
  | nil => cases found
  | cons y l ih =>
    by_cases same : key y = k
    · rw [List.find?_cons_of_pos (by simpa using same)] at found
      cases found
      exact List.mem_cons_self
    · rw [List.find?_cons_of_neg (by simpa using same)] at found
      have here : key x = k := by simpa using List.find?_some found
      refine List.mem_cons_of_mem _ (List.mem_filter.2 ⟨ih found, ?_⟩)
      simpa [here] using Ne.symm same

/-- What is accessed is not larger than the elements if they have filler. -/
lemma Row.size?_elementType {stride : UInt32} {width : UInt8} (narrow : width.toNat < stride.toNat)
    (t : DataType) (pointerWidth : UInt8) :
    (Row.elementType stride width t).size? pointerWidth = some stride.toNat := by
  rw [Row.elementType, if_pos narrow]
  show some (UInt64.ofNat stride.toNat).toNat = _
  rw [UInt64.toNat_ofNat_of_lt' (stride.toNat_lt.trans (by decide))]

namespace Evidence

/-- The array that an access at a variable index is to. -/
structure ArrayOf (config : Config) (types : VarId → Option DataType) (e : Evidence)
    (access : ElementAccess) (element : DataType) (length : Option UInt64) : Prop where
  /-- The elements are those of the first access to the same part. -/
  elements : ∃ first, (e.elements.find? fun other => other.key = access.key) = some first ∧
    element = (first.row types).element
  /-- There are as many as there are whole strides in front of the bound. -/
  count : ∀ n, length = some n ↔ 0 < n ∧ ∃ b, e.bound? access.offset.toInt = some b ∧
    n.toNat * access.stride.toNat ≤ b - access.offset.toInt ∧
    b - access.offset.toInt < (n.toNat + 1) * access.stride.toNat
  /-- The array ends there, unless accesses are as wide as the stride and elements are larger. -/
  within : ∀ n b k, length = some n → e.bound? access.offset.toInt = some b →
    element.size? config.pointerWidth = some k →
    (access.width.toNat < access.stride.toNat ∨ k ≤ access.stride.toNat) →
      n.toNat * k ≤ b - access.offset.toInt

section
variable {config : Config} {c : ClassId} {types : VarId → Option DataType} {e : Evidence}
  {size : UInt64} {fields : List (Field DataType)} {remarks : List Remark}

/-- The bound of an array is in the signed range if the size of the whole is. -/
lemma bound?_lt (extent : ∀ n, e.extent = some n → n.toNat < 2 ^ 63) {offset b : Int}
    (bound : e.bound? offset = some b) : b < 2 ^ 63 := by
  rw [bound?, Option.or_eq_some_iff] at bound
  rcases bound with next | ⟨_, whole⟩
  · obtain ⟨mem, _⟩ := List.min?_eq_some_iff.1 next
    obtain ⟨place, _, rfl⟩ := mem_positions.1 (List.mem_filter.1 mem).1
    exact place.toInt_lt
  · obtain ⟨whole, _⟩ := Option.filter_eq_some_iff.1 whole
    obtain ⟨n, told, rfl⟩ := Option.map_eq_some_iff.1 whole
    have small := extent n told
    omega

/-- Every row is an alternative of the field at its offset, as an array. -/
lemma LaidOut.offers_array (laid : e.LaidOut config c types size fields remarks)
    (extent : ∀ n, e.extent = some n → n.toNat < 2 ^ 63) {row : Row} (mem : row ∈ e.rows types) :
    ∃ f ∈ Field.observed fields, f.offset = row.offset ∧
      f.type.Offers
        (.array row.element (Layout.rowLength row (e.bound? row.offset.toInt))) := by
  have accessed : e.Accesses row.offset := by
    obtain ⟨access, first, rfl⟩ := List.mem_map.1 mem
    exact .inr ⟨access, Inquiry.mem_of_mem_firstAccesses first, rfl⟩
  obtain ⟨cell, made, here⟩ := (@exists_cell_iff config c types e _).2 accessed
  obtain ⟨before, offset, later, places, rfl⟩ := Layout.mem_cells.1 made
  have here : offset = row.offset := here
  refine laid.exists_observed.2 ⟨_, made, here, ?_⟩
  show (Layout.cell config c (e.aggregate types) offset later).type.Offers _
  rw [Layout.cell_eq.1, bound?_eq extent places, here]
  exact Layout.offers_slotType (Layout.mem_alternativesAt.2 (.inr ⟨row, mem, rfl, rfl⟩))

/-- A row that an access is to makes up its array. -/
lemma arrayOf_row (extent : ∀ n, e.extent = some n → n.toNat < 2 ^ 63)
    {access first : ElementAccess} (stride : access.stride ≠ 0)
    (found : (e.elements.find? fun other => other.key = access.key) = some first) :
    e.ArrayOf config types access (first.row types).element
      (Layout.rowLength (first.row types) (e.bound? access.offset.toInt)) := by
  have same : first.key = access.key := by simpa using List.find?_some found
  obtain ⟨offset, same⟩ := Prod.mk.inj same
  obtain ⟨step, width⟩ := Prod.mk.inj same
  have offset : (first.row types).offset = access.offset := offset
  have step : (first.row types).stride = access.stride := step
  have count : ∀ n, Layout.rowLength (first.row types) (e.bound? access.offset.toInt) = some n ↔
      0 < n ∧ ∃ b, e.bound? access.offset.toInt = some b ∧
        n.toNat * access.stride.toNat ≤ b - access.offset.toInt ∧
        b - access.offset.toInt < (n.toNat + 1) * access.stride.toNat := by
    intro n
    rw [Layout.rowLength_eq_some (step ▸ stride) fun b => bound?_lt extent, offset, step]
  refine ⟨⟨first, found, rfl⟩, count, fun n b k known bound size narrow => ?_⟩
  obtain ⟨_, b', bound', before, _⟩ := (count n).1 known
  cases bound.symm.trans bound'
  -- narrow accesses are filled up to the stride
  have small : k ≤ access.stride.toNat := by
    rcases narrow with narrow | small
    · rw [← width, ← step] at narrow
      have filled := Row.size?_elementType narrow
        (Inquiry.knownType types first.width first.value) config.pointerWidth
      cases size.symm.trans filled
      rw [step]
    · exact small
  have less := Nat.mul_le_mul_left n.toNat small
  calc (n.toNat * k : Int) ≤ n.toNat * access.stride.toNat := by exact_mod_cast less
    _ ≤ b - access.offset.toInt := before

/-- In an aggregate that is laid out as a structure, every access at a variable index is to an array
that has no more elements than there are strides in front of the next part. -/
theorem arrays_of_verdict (laid : e.LaidOut config c types size fields remarks)
    (strides : ∀ access ∈ e.elements, access.stride ≠ 0)
    (extent : ∀ n, e.extent = some n → n.toNat < 2 ^ 63) (s : Resolution) :
    (∃ s', ResolveM.inquire (fun v => pure (types v)) (.verdict config c e) s =
      .ok (.struct size fields) s') ∧
    ∀ access ∈ e.elements, ∃ f ∈ Field.observed fields, f.offset = access.offset ∧
      ∃ element length, f.type.Offers (.array element length) ∧
        e.ArrayOf config types access element length := by
  refine ⟨⟨_, laid.inquire strides s⟩, fun access mem => ?_⟩
  have some : (e.elements.find? fun other => other.key = access.key).isSome := by
    rw [List.find?_isSome]
    exact ⟨access, mem, decide_eq_true rfl⟩
  obtain ⟨first, found⟩ := Option.isSome_iff_exists.1 some
  have same : first.key = access.key := by simpa using List.find?_some found
  have offset : (first.row types).offset = access.offset := congrArg Prod.fst same
  have row : first.row types ∈ e.rows types :=
    List.mem_map_of_mem (Inquiry.mem_firstAccesses_of_find? found)
  obtain ⟨f, observed, here, offers⟩ := laid.offers_array extent row
  rw [offset] at here offers
  exact ⟨f, observed, here, _, _, offers, arrayOf_row extent (strides access mem) found⟩

end

/-- Elements with filler in front of a part, and elements behind it up to the end. -/
def rowed : Evidence :=
  ofParts [⟨24, 8, ⟨0⟩⟩] [⟨0, 8, 4, ⟨0⟩⟩, ⟨32, 4, 4, ⟨0⟩⟩] (some 42)

/-- The fields that they are laid out in. -/
def rowedFields : List (Field DataType) :=
  [DataType.observed 0 (.array (.struct 8 [DataType.observed 0 (.word 4), DataType.filler 4 4])
      (some 3)),
    DataType.observed 24 (.word 8), DataType.observed 32 (.array (.word 4) (some 2)),
    DataType.filler 40 2]

/-- The ten bytes in front of the end have room for two elements. -/
theorem arrays_of_verdict_rowed : rowed.bound? 32 = some 42 ∧
    ∃ f ∈ Field.observed rowedFields, f.offset = 32 ∧
      ∃ element length, f.type.Offers (.array element length) ∧
        rowed.ArrayOf .lp64 (fun _ => some .void) ⟨32, 4, 4, ⟨0⟩⟩ element length := by
  have laid : rowed.LaidOut .lp64 ⟨0⟩ (fun _ => some .void) 42 rowedFields [] :=
    ⟨rfl, rfl, rfl, rfl, by decide +kernel⟩
  have extent : ∀ n, rowed.extent = some n → n.toNat < 2 ^ 63 := by
    rintro n ⟨⟩
    decide
  refine ⟨by decide +kernel, ?_⟩
  exact (arrays_of_verdict laid (by decide) extent default).2 ⟨32, 4, 4, ⟨0⟩⟩ (by decide)

/-- Elements of two bytes, one byte apart. -/
def crowded : Evidence :=
  ofParts [] [⟨0, 1, 2, ⟨0⟩⟩] (some 4)

/-- The array of four elements has eight bytes, but only four belong to the aggregate. -/
theorem array_beyond_bound : ∃ s, ResolveM.inquire (fun _ => pure (some .void))
      (.verdict .lp64 ⟨0⟩ crowded) default =
        .ok (.struct 8 [DataType.observed 0 (.array (.word 2) (some 4))]) s ∧
    crowded.bound? 0 = some 4 ∧ DataType.size? 8 (.word 2) = some 2 ∧ ¬(4 * 2 : Int) ≤ 4 - 0 := by
  have laid : crowded.LaidOut .lp64 ⟨0⟩ (fun _ => some .void) 8
      [DataType.observed 0 (.array (.word 2) (some 4))] [] :=
    ⟨rfl, rfl, rfl, rfl, by decide +kernel⟩
  exact ⟨_, laid.inquire (by decide) _, by decide +kernel, rfl, by decide⟩

end Evidence

end TypeRecovery
