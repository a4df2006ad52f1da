import Mathlib.Data.List.Nodup
import TypeRecovery.Proofs.DataType.Codec
import TypeRecovery.Proofs.Resolution.Overlaps
import TypeRecovery.Proofs.Signatures

/-!
# How deep verdicts nest

The type of a value is flat: a scalar, a pointer, or a union of such. So an aggregate holds flat
types, rows of structures around a flat type, and unions of these, and a function takes and gives flat
types. No verdict nests deeper than that, whatever the evidence is, and its remarks do not count further
than widths and strides tell accesses apart, and than calls pass arguments
(`Inquiry.verdict_shallow`).
-/

namespace TypeRecovery

/-- The positions and counts of a remark are numbers of 64 bits. -/
def Remark.Counts : Remark → Prop
  | .kindConflict _ scalarAt pointerAt => scalarAt < UInt64.size ∧ pointerAt < UInt64.size
  | .fieldUnion _ _ alternatives => alternatives < UInt64.size
  | .divergentArity _ arities => ∀ n ∈ arities, n < UInt64.size
  | .paramConflict _ index => index < UInt64.size
  | _ => True

/-! ## Flat types -/

namespace DataType

variable {t u : DataType} {ts : List DataType}

/-- A type without parts. -/
inductive Atomic : DataType → Prop
  | boolean : Atomic .boolean
  | integer {width sign} : Atomic (.integer width sign)
  | pointer {target} : Atomic (.pointer target)

/-- A type of values: its alternatives have no parts. -/
structure Flat (t : DataType) : Prop where
  normal : t.Normal
  atomic : ∀ x ∈ t.leaves, x.Atomic

/-- A type without parts takes two levels of nesting. -/
lemma Atomic.nests (atomic : t.Atomic) : t.Nests 2 := by
  cases atomic with
  | boolean => exact .boolean
  | integer => exact .integer
  | pointer => exact .pointer

/-- What covers a type without parts has no parts. -/
lemma Atomic.of_covers (atomic : u.Atomic) (covers : Covers t u) : t.Atomic := by
  cases atomic with
  | boolean =>
    cases covers with
    | same => exact .boolean
    | boolean => exact .integer
  | integer =>
    cases covers with
    | same => exact .integer
    | integer => exact .integer
  | pointer =>
    cases covers with
    | same => exact .pointer
    | pointer => exact .pointer

/-- A flat type is a union at most, and the alternatives of a union are no unions. -/
lemma Flat.nests (flat : t.Flat) : Nests 5 t := by
  cases t with
  | void => exact .void
  | union ts =>
    refine .union fun x mem => (flat.atomic x ?_).nests
    rw [leaves, leavesList_eq, List.mem_flatMap]
    refine ⟨x, mem, ?_⟩
    rw [leaves_eq_singleton.2 (flat.normal.2.1 x mem)]
    exact List.mem_singleton_self x
  | _ => exact (flat.atomic _ (List.mem_singleton_self _)).nests.mono (by decide)

/-- A join of flat types is flat. -/
lemma flat_joinAll (each : ∀ t ∈ ts, t.Flat) : (joinAll ts).Flat := by
  refine ⟨normal_joinAll ts, ?_⟩
  have leaves := domain.leaves_collect ts
  rw [← joinAll_eq_collect] at leaves
  show ∀ x ∈ domain.leaves (joinAll ts), x.Atomic
  rw [leaves]
  refine Alternatives.forall_mem_insertAll ?_ (List.forall_mem_nil _) fun x mem => ?_
  · exact fun first _ merged => first.of_covers (covers_of_merge? merged).1
  · obtain ⟨t, inside, leaf⟩ := List.mem_flatMap.1 mem
    exact (each t inside).atomic x leaf

end DataType

/-- The type of a value is flat. -/
lemma Inquiry.valueType_flat (config : Config) (e : Evidence) (target : ClassId) :
    (valueType config e target).Flat := by
  refine ⟨valueType_normal config e target, ?_⟩
  have integer : (integerType config e).Atomic := .integer
  have pointer : (DataType.pointer target).Atomic := .pointer
  have pair : ∀ {x y : DataType}, x.leaves = [x] → y.leaves = [y] → x.Atomic → y.Atomic →
      ∀ z ∈ (DataType.union [x, y]).leaves, z.Atomic := by
    intro x y single single' first last
    rw [DataType.leaves, DataType.leavesList_eq, List.flatMap_cons, List.flatMap_singleton, single,
      single']
    exact List.forall_mem_cons.2 ⟨first, List.forall_mem_singleton.2 last⟩
  rw [valueType]
  split
  · rw [pointerVerdict]
    split
    · dsimp only
      split
      · exact pair rfl rfl integer pointer
      · exact pair rfl rfl pointer integer
    · exact List.forall_mem_singleton.2 pointer
  · rw [scalarType]
    split
    · exact List.forall_mem_singleton.2 integer
    split
    · exact List.forall_mem_singleton.2 .boolean
    split
    · exact List.forall_mem_singleton.2 integer
    · exact List.forall_mem_nil _

/-! ## Layouts -/

/-- No list gets longer when repetitions are left out. -/
lemma Ascending.length_distinct_le {α : Type} [DecidableEq α] (xs : List α) :
    (distinct xs).length ≤ xs.length :=
  (List.subperm_of_subset (nodup_distinct xs) fun _ => mem_of_mem_distinct).length_le

/-- The parts of an aggregate are flat, or structures around a flat type, and there are not too many
of them at one offset. -/
structure Aggregate.Shallow (aggregate : Aggregate) : Prop where
  slots : ∀ slot ∈ aggregate.slots, ∀ t ∈ slot.alternatives, t.Nests 5
  rows : ∀ row ∈ aggregate.rows, row.element.Nests 9
  few : ∀ slot ∈ aggregate.slots, slot.alternatives.length ≤ UInt8.size
  sparse : ∀ offset, (aggregate.rows.filter fun row => row.offset = offset).length ≤
    UInt32.size * UInt8.size

/-- A synthesis that nests no deeper than so many levels. -/
structure Synthesis.Shallow (levels : Nat) (synthesis : Synthesis) : Prop where
  type : synthesis.type.Nests levels
  remarks : ∀ n ∈ synthesis.remarks, n.Counts

namespace Layout

variable {config : Config} {c : ClassId} {aggregate : Aggregate} {offset : Int64}

/-- A slot takes three levels more than its alternatives. -/
lemma slotType_shallow {levels : Nat} {alternatives : List DataType}
    (each : ∀ t ∈ alternatives, t.Nests levels) (few : alternatives.length < UInt64.size) :
    (slotType c offset alternatives).Shallow (levels + 3) := by
  simp only [slotType]
  split
  · rename_i t
    exact ⟨(each t (List.mem_singleton_self t)).mono (Nat.le_add_right _ _), by simp⟩
  · exact ⟨.union each, List.forall_mem_singleton.2 few⟩

/-- A part that stands alone takes no more than 18 levels. -/
lemma lone?_shallow (shallow : aggregate.Shallow) {synthesis : Synthesis}
    (lone : lone? config c aggregate = some synthesis) : synthesis.Shallow 18 := by
  rw [lone?] at lone
  split at lone
  · rename_i slot _ slots _
    have mem : slot ∈ aggregate.slots := by simp [slots]
    split at lone
    · cases lone
      have few : slot.alternatives.length < UInt64.size :=
        Nat.lt_of_le_of_lt (shallow.few slot mem) (by decide)
      have whole : (slotType c 0 slot.alternatives).Shallow 8 :=
        slotType_shallow (shallow.slots slot mem) few
      exact ⟨whole.type.mono (by decide), whole.remarks⟩
    · cases lone
  · rename_i row _ _ rows
    have element := shallow.rows row (by simp [rows])
    split at lone
    · split at lone
      · cases lone
        exact ⟨element.mono (by decide), by simp⟩
      · cases lone
        exact ⟨(DataType.Nests.array element).mono (by decide), by simp⟩
    · cases lone
  · cases lone

/-- An array of equal fields takes no more than 18 levels. -/
lemma uniformArray?_nests (shallow : aggregate.Shallow) {array : DataType}
    (collapsed : uniformArray? config aggregate = some array) : array.Nests 18 := by
  obtain ⟨element, width, uniform, rfl⟩ := uniform_of_uniformArray? collapsed
  obtain ⟨slot, mem, type⟩ := uniform.exists_slot
  have flat := shallow.slots slot mem element (type ▸ List.mem_singleton_self _)
  exact (DataType.Nests.array flat).mono (by decide)

/-- The alternatives at one offset can be counted in 64 bits. -/
lemma length_alternativesAt (shallow : aggregate.Shallow) {bound : Option Int} :
    (alternativesAt aggregate offset bound).length < UInt64.size := by
  have sparse := shallow.sparse offset
  have few : ((aggregate.slots.find? fun slot => slot.offset = offset).getD
      ⟨offset, [], 0⟩).alternatives.length ≤ UInt8.size := by
    cases found : aggregate.slots.find? fun slot => slot.offset = offset with
    | none => exact Nat.zero_le _
    | some slot => exact shallow.few slot (List.mem_of_find?_eq_some found)
  have distinct := Ascending.length_distinct_le (((aggregate.slots.find? fun slot =>
    slot.offset = offset).getD ⟨offset, [], 0⟩).alternatives ++
      (aggregate.rows.filter fun row => row.offset = offset).map (rowArray · bound))
  rw [List.length_append, List.length_map] at distinct
  calc (alternativesAt aggregate offset bound).length
    _ ≤ UInt8.size + UInt32.size * UInt8.size := Nat.le_trans distinct (Nat.add_le_add few sparse)
    _ < UInt64.size := by decide

/-- A cell takes no more than 14 levels, and its remarks count no further than 64 bits. -/
lemma cell_shallow (shallow : aggregate.Shallow) {later : List Int64} :
    (cell config c aggregate offset later).type.Nests 14 ∧
      ∀ n ∈ (cell config c aggregate offset later).remarks, n.Counts := by
  rw [cell_eq.1, cell_eq.2]
  have each : ∀ t ∈ alternativesAt aggregate offset (bound? aggregate offset later), t.Nests 11 := by
    intro t mem
    rcases mem_alternativesAt.1 mem with ⟨slot, found, inside⟩ | ⟨row, inside, _, rfl⟩
    · exact (shallow.slots slot (List.mem_of_find?_eq_some found) t inside).mono (by decide)
    · exact .array (shallow.rows row inside)
  have whole : (slotType c offset _).Shallow 14 :=
    slotType_shallow each (length_alternativesAt shallow)
  exact ⟨whole.type, whole.remarks⟩

/-- Filler takes no more than 14 levels. -/
lemma nests_of_mem_fillerTo {start stop : Int} {field : Field DataType}
    (mem : field ∈ fillerTo start stop) : field.type.Nests 14 := by
  rw [fillerTo] at mem
  split at mem
  · rw [List.mem_singleton.1 mem]
    exact .array .integer
  · cases mem

/-- The fields of a tiling take no more than 14 levels. -/
lemma nests_of_mem_tile {cells : List Cell} (each : ∀ cell ∈ cells, cell.type.Nests 14)
    {cursor : Int} {previous : Option Int64} :
    ∀ field ∈ (tile c cursor previous cells).fields, field.type.Nests 14 := by
  induction cells generalizing cursor previous with
  | nil => exact List.forall_mem_nil _
  | cons cell later ih =>
    rw [List.forall_mem_cons] at each
    intro field mem
    rcases List.mem_append.1 mem with mem | mem
    · exact nests_of_mem_fillerTo mem
    rcases List.mem_cons.1 mem with rfl | mem
    · exact each.1
    · exact ih each.2 field mem

/-- A structure takes no more than 18 levels. -/
lemma struct_shallow (shallow : aggregate.Shallow) : (struct config c aggregate).Shallow 18 := by
  have cells : ∀ cell ∈ cells config c aggregate (offsets aggregate),
      cell.type.Nests 14 ∧ ∀ n ∈ cell.remarks, n.Counts := by
    intro cell mem
    obtain ⟨_, _, _, _, rfl⟩ := mem_cells.1 mem
    exact cell_shallow shallow
  constructor
  · refine .struct fun field mem => ?_
    have tiled : ∀ field ∈ (tile c (start (offsets aggregate)) none
        (Layout.cells config c aggregate (offsets aggregate))).fields, field.type.Nests 14 :=
      nests_of_mem_tile fun cell mem => (cells cell mem).1
    cases stop : endBound aggregate with
    | none =>
      rw [stop] at mem
      exact tiled field mem
    | some e =>
      rw [stop] at mem
      rcases List.mem_append.1 mem with mem | mem
      · exact tiled field mem
      · exact nests_of_mem_fillerTo mem
  · intro n mem
    have tiled : n ∈ (tile c (start (offsets aggregate)) none
        (Layout.cells config c aggregate (offsets aggregate))).remarks := by
      rw [struct] at mem
      cases stop : endBound aggregate with
      | none => rwa [stop] at mem
      | some e => rwa [stop] at mem
    obtain ⟨_, cell, _, split, left | left⟩ := mem_remarks_tile.1 tiled
    · exact (cells cell (split ▸ by simp)).2 n left
    · rw [overlapRemarks.eq_def] at left
      split at left
      · split at left
        · rw [List.mem_singleton.1 left]
          trivial
        · cases left
      · cases left

/-- A layout takes no more than 18 levels. -/
lemma synthesize_shallow (shallow : aggregate.Shallow) :
    (synthesize config c aggregate).Shallow 18 := by
  rw [synthesize]
  cases lone : lone? config c aggregate with
  | some synthesis => exact lone?_shallow shallow lone
  | none =>
    cases uniform : uniformArray? config aggregate with
    | some array => exact ⟨uniformArray?_nests shallow uniform, List.forall_mem_nil _⟩
    | none => exact struct_shallow shallow

end Layout

/-! ## Parts of an aggregate -/

namespace Inquiry

variable {α κ : Type} [DecidableEq κ] {key : α → κ}

/-- No two first accesses are to the same part. -/
lemma pairwise_firstAccesses (l : List α) :
    (firstAccesses key l).Pairwise fun x y => key x ≠ key y := by
  induction l with
  | nil => exact .nil
  | cons x l ih =>
    refine .cons (fun y mem => ?_) (ih.filter _)
    exact Ne.symm (of_decide_eq_true (List.mem_filter.1 mem).2)

/-- There are no more first accesses than numbers that tell their parts apart. -/
lemma length_firstAccesses {l : List α} {p : α → Bool} (code : α → Nat) {bound : Nat}
    (small : ∀ x, code x < bound)
    (tells : ∀ x y, p x = true → p y = true → code x = code y → key x = key y) :
    ((firstAccesses key l).filter p).length ≤ bound := by
  have nodup : (((firstAccesses key l).filter p).map code).Nodup := by
    refine List.pairwise_map.2 ?_
    refine ((pairwise_firstAccesses l).filter p).imp_of_mem fun {x y} mem mem' apart same => ?_
    exact apart (tells x y (List.mem_filter.1 mem).2 (List.mem_filter.1 mem').2 same)
  have inside : ((firstAccesses key l).filter p).map code ⊆ List.range bound := by
    intro n mem
    obtain ⟨x, _, rfl⟩ := List.mem_map.1 mem
    exact List.mem_range.2 (small x)
  have le := (List.subperm_of_subset nodup inside).length_le
  rwa [List.length_map, List.length_range] at le

end Inquiry

namespace Evidence

variable {types : VarId → DataType} {e : Evidence}

/-- No value whose type is known contains the aggregate. -/
lemma recursions_eq_nil {c : ClassId} : e.recursions (fun v => some (types v)) c = [] := by
  rw [recursions, List.append_eq_nil_iff, List.flatMap_eq_nil_iff, List.flatMap_eq_nil_iff]
  exact ⟨fun _ _ => rfl, fun _ _ => rfl⟩

/-- The type of an accessed value takes no more than 5 levels. -/
lemma knownType_nests {v : VarId} (flat : (types v).Flat) (width : UInt8) :
    (Inquiry.knownType (fun v => some (types v)) width v).Nests 5 := by
  rw [Inquiry.knownType]
  split
  · exact .integer
  · rename_i same
    cases same
    exact flat.nests
  · exact .integer

/-- An element takes no more than 9 levels, filler included. -/
lemma elementType_nests {t : DataType} (flat : t.Nests 5) (stride : UInt32) (width : UInt8) :
    (Row.elementType stride width t).Nests 9 := by
  rw [Row.elementType]
  split
  · refine .struct (List.forall_mem_cons.2 ⟨flat, List.forall_mem_singleton.2 ?_⟩)
    exact .array .integer
  · exact flat.mono (by decide)

/-- Accesses of one offset differ in their widths, and elements also in their strides. -/
lemma aggregate_shallow (fields : ∀ access ∈ e.fields, (types access.value).Flat)
    (elements : ∀ access ∈ e.elements, (types access.value).Flat) :
    (e.aggregate fun v => some (types v)).Shallow where
  slots := by
    apply Inquiry.alternatives_ofAccesses
    intro typed mem
    obtain ⟨access, first, rfl⟩ := List.mem_map.1 mem
    exact knownType_nests (fields access (Inquiry.mem_of_mem_firstAccesses first)) _
  rows := by
    intro row mem
    obtain ⟨access, first, rfl⟩ := List.mem_map.1 mem
    exact elementType_nests
      (knownType_nests (elements access (Inquiry.mem_of_mem_firstAccesses first)) _) _ _
  few := by
    intro slot mem
    obtain ⟨offset, _, rfl⟩ := List.mem_map.1 mem
    refine Nat.le_trans (Ascending.length_distinct_le _) ?_
    rw [List.length_map, List.filter_map, List.length_map]
    -- first accesses to one offset differ in their widths
    refine Inquiry.length_firstAccesses (fun access => access.width.toNat)
      (fun access => access.width.toNat_lt) fun x y here here' same => ?_
    exact Prod.ext ((of_decide_eq_true here).trans (of_decide_eq_true here').symm)
      (UInt8.toNat_inj.1 same)
  sparse := by
    intro offset
    show (((Inquiry.firstAccesses ElementAccess.key e.elements).map _).filter _).length ≤ _
    rw [List.filter_map, List.length_map]
    -- a stride and a width make one number, which tells the parts at one offset apart
    refine Inquiry.length_firstAccesses
      (fun access => access.stride.toNat * UInt8.size + access.width.toNat)
      (fun access => ?_) fun x y here here' same => ?_
    · have stride := access.stride.toNat_lt
      have width := access.width.toNat_lt
      simp only [UInt32.size, UInt8.size] at *
      omega
    · have width := x.width.toNat_lt
      have width' := y.width.toNat_lt
      have strides : x.stride.toNat = y.stride.toNat := by
        simp only [UInt8.size] at same
        omega
      have widths : x.width.toNat = y.width.toNat := by
        rw [strides] at same
        omega
      exact Prod.ext ((of_decide_eq_true here).trans (of_decide_eq_true here').symm)
        (Prod.ext (UInt32.toNat_inj.1 strides) (UInt8.toNat_inj.1 widths))

end Evidence

/-! ## Verdicts -/

namespace Precedence

variable {constraints : List Constraint} {c : ClassId}

/-- The remarks on a value count no further than the positions of its evidence. -/
lemma remarks_count (positions : ∀ constraint ∈ constraints, constraint.position < UInt64.size) :
    ∀ n ∈ remarks c (.gather constraints), n.Counts := by
  intro n mem
  rw [remarks] at mem
  split at mem
  · cases mem
  rename_i seen _ pointer
  rcases List.mem_append.1 mem with mem | mem
  · obtain ⟨step, _, rfl⟩ := Option.map_eq_some_iff.1 (Option.mem_toList.1 mem)
    trivial
  · obtain ⟨scalar, strong, rfl⟩ := Option.map_eq_some_iff.1 (Option.mem_toList.1 mem)
    obtain ⟨first, found, rfl⟩ := Option.map_eq_some_iff.1 strong
    obtain ⟨constraint, inside, points⟩ := List.exists_of_findSome?_eq_some pointer
    obtain ⟨_, _, same⟩ := Option.map_eq_some_iff.1 points
    cases same
    exact ⟨positions first (List.mem_of_find?_eq_some found), positions constraint inside⟩

end Precedence

namespace Inquiry

variable {config : Config} {c : ClassId} {typeOf : VarId → DataType} {classOf : VarId → ClassId}

/-- An inquiry of which only matters how far its remarks count. -/
def Scope.counting : Scope where
  asked _ _ := True
  unanswered _ := True
  remarks := Remark.Counts

/-- The remarks on a function count no further than the arguments of its calls. -/
lemma functionType_counts {sites : List CallSite}
    (arities : ∀ site ∈ sites, site.args.length < UInt64.size) :
    (functionType c sites).Asks .counting fun _ => True := by
  have small : ∀ n ∈ Ascending.distinct (sites.map fun site => site.args.length),
      n < UInt64.size := by
    intro n mem
    obtain ⟨site, inside, rfl⟩ := List.mem_map.1 (Ascending.mem_of_mem_distinct mem)
    exact arities site inside
  apply (passedTypes_asks fun _ _ => trivial).bind
  intro _ _
  dsimp only
  split
  · exact .answer trivial
  · rename_i arity single
    rw [single] at small
    have params : ∀ index ∈ List.range arity,
        (paramType c sites index).Asks .counting fun _ => True := by
      intro index mem
      apply (passedTypes_asks fun _ _ => trivial).bind
      intro _ _
      dsimp only
      split
      · exact .remark (Nat.lt_trans (List.mem_range.1 mem) (small arity (List.mem_singleton_self _)))
          (.answer trivial)
      · exact .answer trivial
    apply (Asks.mapM params).bind
    exact fun _ _ => .answer trivial
  · exact .remark small (.answer trivial)

/-- The remarks on a class that is called count no further than the arguments of its calls. -/
lemma verdict_counts {e : Evidence} (called : e.callSites ≠ [])
    (arities : ∀ site ∈ e.callSites, site.args.length < UInt64.size) :
    (verdict config c e).Asks .counting fun _ => True := by
  have some : (!e.callSites.isEmpty) = true := by simpa using called
  rw [verdict, if_pos some]
  cases e.isAggregate with
  | false => exact functionType_counts arities
  | true => exact .remark trivial (functionType_counts arities)

/-- A signature of flat types takes no more than 8 levels. -/
lemma nests_of_signs {sites : List CallSite} {remarks : List Remark} {t : DataType}
    (signs : Signs typeOf c sites remarks t)
    (args : ∀ site ∈ sites, ∀ v ∈ site.args, (typeOf v).Flat)
    (results : ∀ site ∈ sites, ∀ v ∈ site.result, (typeOf v).Flat) : t.Nests 8 := by
  have result : (DataType.joinAll (used typeOf sites)).Flat := by
    refine DataType.flat_joinAll fun t mem => ?_
    obtain ⟨v, used, rfl⟩ := List.mem_map.1 mem
    obtain ⟨site, inside, gives⟩ := List.mem_filterMap.1 used
    exact results site inside v gives
  cases signs with
  | agreed _ _ =>
    refine .function (fun t mem => ?_) result.nests
    obtain ⟨index, _, rfl⟩ := List.mem_map.1 mem
    refine (DataType.flat_joinAll fun t mem => ?_).nests
    obtain ⟨v, passes, rfl⟩ := List.mem_map.1 mem
    obtain ⟨site, inside, found⟩ := List.mem_filterMap.1 passes
    exact args site inside v (List.mem_of_getElem? found)
  | diverged _ _ _ _ => exact .function (List.forall_mem_nil _) result.nests

/-- The verdict on a class that is neither called nor accessed in parts is the type of a value. -/
lemma verdict_value {e : Evidence} (uncalled : e.callSites = []) (whole : e.isAggregate = false) :
    ∃ target, ((verdict config c e).outcome typeOf classOf).1 =
      some (valueType config e target) := by
  rw [verdict, uncalled, whole]
  cases pointer : e.pointer with
  | none =>
    refine ⟨⟨0⟩, ?_⟩
    rw [valueType, pointer]
    rfl
  | some pair =>
    obtain ⟨seen, target⟩ := pair
    refine ⟨classOf target, ?_⟩
    rw [valueType, pointer]
    show ((pointerType config c e seen target).outcome typeOf classOf).1 =
      some (pointerVerdict config e seen (classOf target))
    rw [pointerType, pointerVerdict]
    cases e.steps.find? fun step => decide (1 < step.toInt.natAbs) <;> cases e.strongScalar <;> rfl

/-- A verdict on values of flat types. -/
lemma verdict_shallow {constraints : List Constraint} {t : DataType} {remarks : List Remark}
    (flat : ∀ {v}, Mentions constraints v false → (typeOf v).Flat)
    (strides : ∀ constraint ∈ constraints, ∀ access ∈ constraint.fact.element?, access.stride ≠ 0)
    (positions : ∀ constraint ∈ constraints, constraint.position < UInt64.size)
    (arities : ∀ constraint ∈ constraints, ∀ site ∈ constraint.fact.callSite?,
      site.args.length < UInt64.size)
    (judged : (verdict config c (.gather constraints)).outcome typeOf classOf = (some t, remarks)) :
    (Synthesis.mk t remarks).Shallow 18 := by
  by_cases called : (Evidence.gather constraints).callSites = []
  · cases accessed : (Evidence.gather constraints).isAggregate with
    | true =>
      have nonzero : ∀ access ∈ (Evidence.gather constraints).elements, access.stride ≠ 0 := by
        intro access mem
        obtain ⟨constraint, inside, fact⟩ := List.mem_map.1 (mem_elements.1 mem)
        exact strides constraint inside access (Fact.element?_eq_some.2 fact)
      have shallow : ((Evidence.gather constraints).aggregate fun v => some (typeOf v)).Shallow := by
        refine Evidence.aggregate_shallow (fun access mem => flat ?_) fun access mem => flat ?_
        · exact mentions_of_fact (mem_fields.1 mem) (List.mem_singleton_self _)
        · exact mentions_of_fact (mem_elements.1 mem) (List.mem_singleton_self _)
      have synthesis : (Layout.synthesize config c _).Shallow 18 := Layout.synthesize_shallow shallow
      have ends := @aggregateType_ends (fun v => some (typeOf v)) _ nonzero config c
      rw [verdict, called, accessed] at judged
      rw [Evidence.recursions_eq_nil, List.nil_append] at ends
      cases judged.symm.trans ends.outcome
      exact synthesis
    | false =>
      obtain ⟨target, answer⟩ :=
        @verdict_value config c typeOf classOf _ called accessed
      have left := @Precedence.remarks_verdict config c _ called accessed typeOf classOf
      rw [judged] at answer left
      cases answer
      cases left
      exact ⟨(valueType_flat config _ target).nests.mono (by decide),
        Precedence.remarks_count positions⟩
  · obtain ⟨left, u, ends, signs⟩ := verdict_ends config typeOf c called
    have small : ∀ site ∈ (Evidence.gather constraints).callSites,
        site.args.length < UInt64.size := by
      intro site mem
      obtain ⟨constraint, inside, fact⟩ := List.mem_map.1 (mem_callSites.1 mem)
      exact arities constraint inside site (by rw [fact]; rfl)
    have counts : ∀ n ∈ ((verdict config c _).outcome typeOf classOf).2, n.Counts :=
      (verdict_counts called small).remarks_outcome
    cases judged.symm.trans ends.outcome
    rw [judged] at counts
    refine ⟨(nests_of_signs signs ?_ ?_).mono (by decide), counts⟩
    · intro site mem v inside
      apply flat (mentions_of_fact (mem_callSites.1 mem) _)
      exact List.mem_map_of_mem (List.mem_append_left _ inside)
    · intro site mem v inside
      apply flat (mentions_of_fact (mem_callSites.1 mem) _)
      exact List.mem_map_of_mem (List.mem_append_right _ (Option.mem_toList.2 inside))

end Inquiry

end TypeRecovery
