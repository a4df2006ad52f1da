import Mathlib.Order.Defs.LinearOrder
import TypeRecovery.Proofs.Resolution.Verdict
import TypeRecovery.Resolution.Resolver

/-!
# Aggregates whose values are known

An inquiry that is answered from known types ends with one answer and leaves its remarks (`Ends`),
and resolution finds both (`Ends.inquire`). For a class that is accessed in parts, the answer is the
layout of an aggregate that is read off the evidence (`Evidence.aggregate`). Where this layout is a
structure, `LaidOut.inquire` says what the verdict is, and `reach` how many bytes belong to a field.
-/

namespace TypeRecovery

/-! ## Inquiries into known types -/

namespace Inquiry

/-- An inquiry that is answered from known types leaves remarks and ends with an answer. It asks for
no classes. -/
inductive Ends (types : VarId → Option DataType) {α : Type} : Inquiry α → List Remark → α → Prop
  | answer (r) : Ends types (.answer r) [] r
  | remark {n next remarks r} : Ends types next remarks r →
    Ends types (.remark n next) (n :: remarks) r
  | askType {v next remarks r} : Ends types (next (types v)) remarks r →
    Ends types (.askType v next) remarks r

section
variable {types : VarId → Option DataType} {α β : Type}

/-- Two inquiries in a row end with the answer of the second one, and leave the remarks of both. -/
lemma Ends.bind {x : Inquiry α} {f : α → Inquiry β} {before after : List Remark} {a : α} {b : β}
    (first : x.Ends types before a) (last : (f a).Ends types after b) :
    (x >>= f).Ends types (before ++ after) b := by
  induction first with
  | answer => exact last
  | remark _ ih => exact .remark (ih last)
  | askType _ ih => exact .askType (ih last)

/-- An inquiry whose answer is mapped leaves the same remarks. -/
lemma Ends.map {x : Inquiry α} {remarks : List Remark} {a : α} (ends : x.Ends types remarks a)
    (g : α → β) : (x >>= fun a => .answer (g a)).Ends types remarks (g a) := by
  have mapped := ends.bind (f := fun a => .answer (g a)) (.answer (g a))
  rwa [List.append_nil] at mapped

/-- An inquiry for each member of a list ends with all answers, and leaves all remarks in order. -/
lemma Ends.mapM {f : α → Inquiry β} {remarks : α → List Remark} {g : α → β}
    (each : ∀ x, (f x).Ends types (remarks x) (g x)) (l : List α) :
    (l.mapM f).Ends types (l.flatMap remarks) (l.map g) := by
  -- the answers so far are generalized, as the loop carries them along
  suffices h : ∀ done, (List.mapM.loop f l done).Ends types (l.flatMap remarks)
      (done.reverse ++ l.map g) from h []
  induction l with
  | nil =>
    intro done
    rw [List.map_nil, List.append_nil]
    exact .answer _
  | cons x l ih =>
    intro done
    have rest := ih (g x :: done)
    rw [List.reverse_cons, List.append_assoc] at rest
    exact (each x).bind rest

/-- Leaving remarks ends with these remarks. -/
lemma leaveAll_ends (remarks : List Remark) : (leaveAll remarks).Ends types remarks () := by
  induction remarks with
  | nil => exact .answer ()
  | cons n remarks ih => exact .remark ih

/-- Resolution finds the answer of an inquiry and notes its remarks behind those that were left
before. -/
lemma Ends.inquire {x : Inquiry α} {remarks : List Remark} {r : α} (ends : x.Ends types remarks r)
    (s : Resolution) : ResolveM.inquire (fun v => pure (types v)) x s =
      .ok r { s with remarks := s.remarks ++ remarks.toArray } := by
  induction ends generalizing s with
  | answer =>
    rw [Array.append_empty]
    rfl
  | @remark n next remarks r _ ih =>
    have rest := ih { s with remarks := s.remarks.push n }
    have noted : s.remarks.push n ++ remarks.toArray = s.remarks ++ (n :: remarks).toArray := by
      apply Array.toList_inj.1
      simp
    rw [noted] at rest
    exact rest
  | askType _ ih => exact ih s

/-! ## Parts -/

/-- The type of a value in an aggregate, where the types of values are known. -/
def knownType (types : VarId → Option DataType) (width : UInt8) (v : VarId) : DataType :=
  match types v with
  | some .void => .word width
  | some t => t
  | none => .word width

/-- The remark on a value that would contain the aggregate. -/
def recursion (types : VarId → Option DataType) (c : ClassId) (offset : Int64) (v : VarId) :
    List Remark :=
  match types v with
  | some _ => []
  | none => [.recursiveLayout c offset]

/-- The type of an accessed value is known, or there is a remark on recursion. -/
lemma accessedType_ends (c : ClassId) (offset : Int64) (width : UInt8) (v : VarId) :
    (accessedType c offset width v).Ends types (recursion types c offset v)
      (knownType types width v) := by
  apply Ends.askType
  rw [recursion, knownType]
  cases types v with
  | none => exact .remark (.answer _)
  | some t => cases t <;> exact .answer _

end

end Inquiry

section
variable (types : VarId → Option DataType)

/-- An access at a fixed offset, with the type of its value. -/
def FieldAccess.typed (access : FieldAccess) : TypedAccess :=
  ⟨access.offset, access.width, Inquiry.knownType types access.width access.value⟩

/-- The elements that are accessed at a variable index. -/
def ElementAccess.row (access : ElementAccess) : Row :=
  ⟨access.offset, Row.elementType access.stride access.width
    (Inquiry.knownType types access.width access.value), access.stride⟩

namespace Evidence

/-- The rows of elements, in the order of first sight. -/
def rows (e : Evidence) : List Row :=
  (Inquiry.firstAccesses ElementAccess.key e.elements).map (·.row types)

/-- What the evidence tells of an aggregate. -/
def aggregate (e : Evidence) : Aggregate where
  slots := Slot.ofAccesses ((Inquiry.firstAccesses FieldAccess.key e.fields).map (·.typed types))
  rows := e.rows types
  extent := e.extent

/-- The remarks on values that would contain the aggregate. -/
def recursions (c : ClassId) (e : Evidence) : List Remark :=
  ((Inquiry.firstAccesses FieldAccess.key e.fields).flatMap fun access =>
    Inquiry.recursion types c access.offset access.value) ++
  (Inquiry.firstAccesses ElementAccess.key e.elements).flatMap fun access =>
    Inquiry.recursion types c access.offset access.value

end Evidence

end

namespace Inquiry

variable {types : VarId → Option DataType}

/-- A field has the type of its value. -/
lemma fieldType_ends (c : ClassId) (access : FieldAccess) : (fieldType c access).Ends types
    (recursion types c access.offset access.value) (access.typed types) :=
  (accessedType_ends c access.offset access.width access.value).map
    (TypedAccess.mk access.offset access.width)

/-- A row has the type of its value for its elements. -/
lemma elementType_ends (c : ClassId) (access : ElementAccess) : (elementType c access).Ends types
    (recursion types c access.offset access.value) (access.row types) :=
  (accessedType_ends c access.offset access.width access.value).map
    fun type => Row.mk access.offset (Row.elementType access.stride access.width type) access.stride

/-- The type of an aggregate is the layout of what the evidence tells. -/
lemma aggregateType_ends {e : Evidence} (strides : ∀ access ∈ e.elements, access.stride ≠ 0)
    (config : Config) (c : ClassId) : (aggregateType config c e).Ends types
      (e.recursions types c ++ (Layout.synthesize config c (e.aggregate types)).remarks)
      (Layout.synthesize config c (e.aggregate types)).type := by
  have divides : Layout.dividesByZero (e.aggregate types) ≠ true := by
    intro divides
    obtain ⟨row, mem, zero⟩ := Layout.exists_zero_of_dividesByZero divides
    obtain ⟨access, first, rfl⟩ := List.mem_map.1 mem
    exact strides access (mem_of_mem_firstAccesses first) zero
  rw [Evidence.recursions, List.append_assoc, aggregateType]
  apply (Ends.mapM (fieldType_ends c) _).bind
  apply (Ends.mapM (elementType_ends c) _).bind
  show (if Layout.dividesByZero (e.aggregate types) then _ else _ : Inquiry DataType).Ends _ _ _
  rw [if_neg divides]
  exact (leaveAll_ends _).map fun _ => (Layout.synthesize config c (e.aggregate types)).type

end Inquiry

/-! ## Aggregates that are structures -/

namespace Evidence

/-- A class that is accessed in parts is laid out as a structure. -/
structure LaidOut (config : Config) (c : ClassId) (types : VarId → Option DataType) (e : Evidence)
    (size : UInt64) (fields : List (Field DataType)) (remarks : List Remark) : Prop where
  uncalled : e.callSites = []
  accessed : e.isAggregate = true
  parted : Layout.lone? config c (e.aggregate types) = none
  uneven : Layout.uniformArray? config (e.aggregate types) = none
  struct : Layout.struct config c (e.aggregate types) = ⟨.struct size fields, remarks⟩

section
variable {config : Config} {c : ClassId} {types : VarId → Option DataType} {e : Evidence}
  {size : UInt64} {fields : List (Field DataType)} {remarks : List Remark}

/-- The verdict on a class that is laid out as a structure. -/
lemma LaidOut.inquire (laid : e.LaidOut config c types size fields remarks)
    (strides : ∀ access ∈ e.elements, access.stride ≠ 0) (s : Resolution) :
    ResolveM.inquire (fun v => pure (types v)) (.verdict config c e) s =
      .ok (.struct size fields)
        { s with remarks := s.remarks ++ (e.recursions types c ++ remarks).toArray } := by
  have synthesis : Layout.synthesize config c (e.aggregate types) =
      ⟨.struct size fields, remarks⟩ := by
    rw [Layout.synthesize, laid.parted]
    dsimp only
    rw [laid.uneven]
    exact laid.struct
  have ends := (@Inquiry.aggregateType_ends types e strides config c).inquire s
  rw [synthesis] at ends
  rw [Inquiry.verdict, laid.uncalled, laid.accessed]
  exact ends

/-- Evidence of accesses only. -/
def ofParts (fields : List FieldAccess) (elements : List ElementAccess) (extent : Option UInt64) :
    Evidence where
  callSites := []
  fields
  elements
  extent
  pointer := none
  strongScalar := none
  width := none
  signed := false
  unsigned := false
  boolean := false
  counter := false
  steps := []

/-! ## The bytes of a field -/

/-- The offsets of all accesses. -/
def positions (e : Evidence) : List Int :=
  e.fields.map (·.offset.toInt) ++ e.elements.map (·.offset.toInt)

/-- Where the structure starts: at zero, or at the lowest offset if that is negative. -/
def start (e : Evidence) : Int :=
  e.positions.foldl min 0

/-- The next offset that is accessed or, behind the last one, the size of the whole. -/
def bound? (e : Evidence) (offset : Int) : Option Int :=
  (e.positions.filter (offset < ·)).min?.or
    ((e.extent.map fun n => (n.toNat : Int)).filter (offset < ·))

/-- The number of bytes of the widest access at a fixed offset. -/
def widest (e : Evidence) (offset : Int64) : Nat :=
  (e.fields.filter fun access => access.offset = offset).foldl
    (fun n access => max n access.width.toNat) 0

/-- The number of bytes of the longest array at an offset. -/
def longest (config : Config) (types : VarId → Option DataType) (e : Evidence) (offset : Int64) :
    Nat :=
  ((e.rows types).filter fun row => row.offset = offset).foldl
    (fun n row => max n (Layout.rowSize config row (Layout.rowArray row (e.bound? offset.toInt)))) 0

/-- The number of bytes that belong to a field: its type, the accesses and the arrays have room. -/
def reach (config : Config) (types : VarId → Option DataType) (e : Evidence)
    (field : Field DataType) : Nat :=
  max ((field.type.size? config.pointerWidth).getD 0)
    (max (e.widest field.offset) (e.longest config types field.offset))

/-- The positions are the offsets that are accessed. -/
lemma mem_positions {p : Int} :
    p ∈ e.positions ↔ ∃ offset, e.Accesses offset ∧ offset.toInt = p := by
  simp only [positions, List.mem_append, List.mem_map, Accesses]
  constructor
  · rintro (⟨access, mem, rfl⟩ | ⟨access, mem, rfl⟩)
    · exact ⟨_, .inl ⟨access, mem, rfl⟩, rfl⟩
    · exact ⟨_, .inr ⟨access, mem, rfl⟩, rfl⟩
  · rintro ⟨_, ⟨access, mem, rfl⟩ | ⟨access, mem, rfl⟩, rfl⟩
    · exact .inl ⟨access, mem, rfl⟩
    · exact .inr ⟨access, mem, rfl⟩

/-- The aggregate of the evidence is accessed where the evidence says. -/
lemma accesses_aggregate {offset : Int64} :
    (e.aggregate types).Accesses offset ↔ e.Accesses offset := by
  refine or_congr ?_ ?_
  · constructor
    · rintro ⟨slot, mem, rfl⟩
      obtain ⟨offset, listed, rfl⟩ := List.mem_map.1 mem
      obtain ⟨typed, inside, rfl⟩ :=
        List.mem_map.1 ((Ascending.mem_ofList Layout.offset_total).1 listed)
      obtain ⟨access, first, rfl⟩ := List.mem_map.1 inside
      exact ⟨access, Inquiry.mem_of_mem_firstAccesses first, rfl⟩
    · rintro ⟨access, mem, rfl⟩
      obtain ⟨first, inside, same⟩ := Inquiry.exists_firstAccess FieldAccess.key mem
      obtain ⟨slot, made, here⟩ :=
        Inquiry.exists_slot (List.mem_map_of_mem (f := FieldAccess.typed types) inside)
      exact ⟨slot, made, here.trans (congrArg Prod.fst same)⟩
  · constructor
    · rintro ⟨row, mem, rfl⟩
      obtain ⟨access, first, rfl⟩ := List.mem_map.1 mem
      exact ⟨access, Inquiry.mem_of_mem_firstAccesses first, rfl⟩
    · rintro ⟨access, mem, rfl⟩
      obtain ⟨first, inside, same⟩ := Inquiry.exists_firstAccess ElementAccess.key mem
      exact ⟨_, List.mem_map_of_mem inside, congrArg Prod.fst same⟩

end

end Evidence

namespace Layout

/-- The offsets of an aggregate are in ascending order. -/
lemma ascending_offsets (aggregate : Aggregate) : (offsets aggregate).Pairwise (· < ·) := by
  refine (Ascending.ascending_ofList offset_total ?_ _).imp of_decide_eq_true
  intro x y z first last
  exact decide_eq_true (Int64.lt_trans (of_decide_eq_true first) (of_decide_eq_true last))

/-- A running maximum is bounded by whatever bounds all that it runs over. -/
lemma foldl_max_le {α : Type} {f : α → Nat} {l : List α} {m n : Nat} :
    l.foldl (fun k x => max k (f x)) m ≤ n ↔ m ≤ n ∧ ∀ x ∈ l, f x ≤ n := by
  induction l generalizing m with
  | nil => simp
  | cons x l ih => rw [List.foldl_cons, ih, max_le_iff, List.forall_mem_cons, and_assoc]

/-- A running minimum is bounded by whatever bounds all that it runs over. -/
lemma le_foldl_min {l : List Int} {m n : Int} : n ≤ l.foldl min m ↔ n ≤ m ∧ ∀ x ∈ l, n ≤ x := by
  induction l generalizing m with
  | nil => simp
  | cons x l ih => rw [List.foldl_cons, ih, le_min_iff, List.forall_mem_cons, and_assoc]

end Layout

namespace Evidence

section
variable {config : Config} {c : ClassId} {types : VarId → Option DataType} {e : Evidence}

/-- The offsets of the layout are those that are accessed. -/
lemma mem_offsets {offset : Int64} :
    offset ∈ Layout.offsets (e.aggregate types) ↔ e.Accesses offset :=
  Layout.mem_offsets.trans accesses_aggregate

/-- A structure starts no earlier than a number if all offsets and zero come no earlier. -/
lemma le_start {n : Int} :
    n ≤ e.start ↔ n ≤ 0 ∧ ∀ offset, e.Accesses offset → n ≤ offset.toInt := by
  rw [start, Layout.le_foldl_min]
  refine and_congr_right fun _ => ⟨fun each offset mem => ?_, fun each p mem => ?_⟩
  · exact each _ (mem_positions.2 ⟨offset, mem, rfl⟩)
  · obtain ⟨offset, accessed, rfl⟩ := mem_positions.1 mem
    exact each offset accessed

/-- No access comes before the start of the structure. -/
lemma start_le {offset : Int64} (accessed : e.Accesses offset) : e.start ≤ offset.toInt :=
  (le_start.1 (Int.le_refl _)).2 offset accessed

/-- The layout starts where the structure does. -/
lemma start_eq : Layout.start (Layout.offsets (e.aggregate types)) = e.start := by
  have ascending := Layout.ascending_offsets (e.aggregate types)
  apply eq_of_forall_le_iff
  intro n
  simp only [le_start, ← @mem_offsets types]
  generalize Layout.offsets (e.aggregate types) = places at ascending
  cases places with
  | nil => simp [Layout.start]
  | cons first later =>
    rw [Layout.start, le_min_iff, List.forall_mem_cons, and_comm]
    refine and_congr_right fun _ => ⟨fun low => ⟨low, fun offset mem => ?_⟩, And.left⟩
    -- the first offset is the lowest one
    have behind := Int64.lt_iff_toInt_lt.1 (List.rel_of_pairwise_cons ascending mem)
    omega

/-- The layout ends at the size of the whole, if that is in the signed range. -/
lemma endBound_eq (extent : ∀ n, e.extent = some n → n.toNat < 2 ^ 63) :
    Layout.endBound (e.aggregate types) = e.extent.map fun n => (n.toNat : Int) := by
  show e.extent.map _ = _
  cases whole : e.extent with
  | none => rfl
  | some n =>
    have small : 2 * n.toBitVec.toNat < 2 ^ 64 := by
      have small := extent n whole
      rw [← UInt64.toNat_toBitVec] at small
      omega
    exact congrArg some (BitVec.toInt_eq_toNat_of_lt small)

/-- Where an array at an offset ends, as the layout finds it. -/
lemma bound?_eq (extent : ∀ n, e.extent = some n → n.toNat < 2 ^ 63) {before later : List Int64}
    {offset : Int64} (places : Layout.offsets (e.aggregate types) = before ++ offset :: later) :
    Layout.bound? (e.aggregate types) offset later = e.bound? offset.toInt := by
  have ascending := Layout.ascending_offsets (e.aggregate types)
  rw [places, List.pairwise_append, List.pairwise_cons] at ascending
  obtain ⟨_, ⟨behind, sorted⟩, front⟩ := ascending
  -- what is accessed behind the offset is what comes later in the list
  have passed : ∀ p, p ∈ e.positions.filter (offset.toInt < ·) ↔
      ∃ next ∈ later, next.toInt = p := by
    intro p
    rw [List.mem_filter, mem_positions, decide_eq_true_eq]
    constructor
    · rintro ⟨⟨next, accessed, rfl⟩, beyond⟩
      refine ⟨next, ?_, rfl⟩
      have mem := (@mem_offsets types e next).2 accessed
      rw [places, List.mem_append, List.mem_cons] at mem
      rcases mem with mem | rfl | mem
      · have below := Int64.lt_iff_toInt_lt.1 (front next mem offset List.mem_cons_self)
        omega
      · omega
      · exact mem
    · rintro ⟨next, mem, rfl⟩
      refine ⟨⟨next, (@mem_offsets types e next).1 ?_, rfl⟩,
        Int64.lt_iff_toInt_lt.1 (behind next mem)⟩
      simp [places, mem]
  rw [bound?]
  cases later with
  | nil =>
    have none : e.positions.filter (offset.toInt < ·) = [] := by
      rw [List.eq_nil_iff_forall_not_mem]
      intro p mem
      obtain ⟨_, inside, _⟩ := (passed p).1 mem
      cases inside
    rw [none, ← @endBound_eq types e extent]
    rfl
  | cons next later =>
    have first : (e.positions.filter (offset.toInt < ·)).min? = some next.toInt := by
      rw [List.min?_eq_some_iff]
      refine ⟨(passed _).2 ⟨next, List.mem_cons_self, rfl⟩, fun p mem => ?_⟩
      obtain ⟨other, inside, rfl⟩ := (passed p).1 mem
      rcases List.mem_cons.1 inside with rfl | inside
      · exact Int.le_refl _
      · have behind := Int64.lt_iff_toInt_lt.1 (List.rel_of_pairwise_cons sorted inside)
        omega
    rw [first]
    rfl

/-- The widest of the typed accesses at an offset. -/
lemma width_ofAccesses (typed : List TypedAccess) (offset : Int64) :
    (((Slot.ofAccesses typed).find? fun slot => slot.offset = offset).getD ⟨offset, [], 0⟩).width =
      (typed.filter fun access => access.offset = offset).foldl
        (fun w access => max w access.width) 0 := by
  rw [Slot.ofAccesses, List.find?_map]
  cases found : (Ascending.ofList (fun a b => decide (a < b)) (typed.map (·.offset))).find? _ with
  | none =>
    have none : (typed.filter fun access => access.offset = offset) = [] := by
      rw [List.filter_eq_nil_iff]
      intro access mem here
      have listed := List.mem_map_of_mem (f := TypedAccess.offset) mem
      exact List.find?_eq_none.1 found _ ((Ascending.mem_ofList Layout.offset_total).2 listed) here
    rw [none]
    rfl
  | some other =>
    have holds := List.find?_some found
    have same : other = offset := of_decide_eq_true holds
    rw [same]
    rfl

/-- The running maximum of widths is that of their numbers. -/
lemma toNat_foldl_max (typed : List TypedAccess) (w : UInt8) :
    (typed.foldl (fun w access => max w access.width) w).toNat =
      typed.foldl (fun n access => max n access.width.toNat) w.toNat := by
  induction typed generalizing w with
  | nil => rfl
  | cons access typed ih => rw [List.foldl_cons, List.foldl_cons, ih, UInt8.toNat_max]

/-- The slot at an offset has the width of the widest access there. -/
lemma widest_eq (offset : Int64) : (((e.aggregate types).slots.find? fun slot =>
    slot.offset = offset).getD ⟨offset, [], 0⟩).width.toNat = e.widest offset := by
  rw [aggregate, width_ofAccesses, toNat_foldl_max]
  apply eq_of_forall_ge_iff
  intro n
  simp only [widest, Layout.foldl_max_le, List.mem_filter, decide_eq_true_eq]
  refine and_congr_right fun _ => ?_
  constructor
  · rintro each access ⟨mem, here⟩
    obtain ⟨first, inside, same⟩ := Inquiry.exists_firstAccess FieldAccess.key mem
    obtain ⟨offset', width⟩ := Prod.mk.inj same
    rw [← width]
    exact each _ ⟨List.mem_map_of_mem inside, offset'.trans here⟩
  · rintro each typed ⟨mem, here⟩
    obtain ⟨access, first, rfl⟩ := List.mem_map.1 mem
    exact each access ⟨Inquiry.mem_of_mem_firstAccesses first, here⟩

/-- The size of a cell is the number of bytes that belong to its field. -/
lemma size_cell {offset : Int64} {later : List Int64}
    (bound : Layout.bound? (e.aggregate types) offset later = e.bound? offset.toInt) :
    (Layout.cell config c (e.aggregate types) offset later).size =
      e.reach config types (Layout.cell config c (e.aggregate types) offset later).field := by
  -- a maximum is known by its upper bounds, so that the order of the folds does not matter
  apply eq_of_forall_ge_iff
  intro n
  have place : (Layout.cell config c (e.aggregate types) offset later).field.offset = offset := rfl
  rw [reach, place, longest, ← bound, ← @widest_eq types e offset]
  simp only [max_le_iff, Layout.foldl_max_le, Nat.zero_le, true_and]
  show max _ (List.foldl _ _ _) ≤ n ↔ _
  rw [max_le_iff, List.foldl_map, Layout.foldl_max_le]
  rfl

end

end Evidence

namespace Layout

variable {config : Config} {c : ClassId} {aggregate : Aggregate}

/-- Every cell is made for an offset, given the offsets behind it. -/
lemma mem_cells {cell : Cell} {offsets : List Int64} : cell ∈ cells config c aggregate offsets ↔
    ∃ before offset later, offsets = before ++ offset :: later ∧
      cell = Layout.cell config c aggregate offset later := by
  induction offsets with
  | nil => simp [cells]
  | cons offset later ih =>
    rw [cells, List.mem_cons, ih]
    constructor
    · rintro (rfl | ⟨before, other, rest, rfl, rfl⟩)
      · exact ⟨[], offset, later, rfl, rfl⟩
      · exact ⟨offset :: before, other, rest, rfl, rfl⟩
    · rintro ⟨before, other, rest, split, rfl⟩
      cases before with
      | nil =>
        cases split
        exact .inl rfl
      | cons _ before =>
        cases split
        exact .inr ⟨before, other, rest, rfl, rfl⟩

/-- There is one cell for each offset, in order. -/
lemma offsets_cells (offsets : List Int64) :
    (cells config c aggregate offsets).map (·.offset) = offsets := by
  induction offsets with
  | nil => rfl
  | cons offset later ih => rw [cells, List.map_cons, ih]; rfl

end Layout

namespace Evidence

/-- The cells that the structure of an aggregate is made of. -/
def cells (config : Config) (c : ClassId) (types : VarId → Option DataType) (e : Evidence) :
    List Layout.Cell :=
  Layout.cells config c (e.aggregate types) (Layout.offsets (e.aggregate types))

/-- The tiling of the cells. -/
def tiling (config : Config) (c : ClassId) (types : VarId → Option DataType) (e : Evidence) :
    Layout.Tiling :=
  Layout.tile c e.start none (e.cells config c types)

/-- The tiling of the cells, filled up to the end of the aggregate. -/
def filling (config : Config) (c : ClassId) (types : VarId → Option DataType) (e : Evidence) :
    Layout.Tiling :=
  (e.tiling config c types).fillTo (Layout.endBound (e.aggregate types))

section
variable {config : Config} {c : ClassId} {types : VarId → Option DataType} {e : Evidence}
  {size : UInt64} {fields : List (Field DataType)} {remarks : List Remark}

/-- The cells of an aggregate are at the offsets of its layout. -/
lemma offsets_cells :
    (e.cells config c types).map (·.offset) = Layout.offsets (e.aggregate types) :=
  Layout.offsets_cells _

/-- The cells of an aggregate are in ascending order. -/
lemma ascending_cells : (e.cells config c types).Pairwise fun x y => x.offset < y.offset := by
  have ascending := Layout.ascending_offsets (e.aggregate types)
  rwa [← @offsets_cells config c, List.pairwise_map] at ascending

/-- There is a cell wherever there is an access. -/
lemma exists_cell_iff {offset : Int64} :
    (∃ cell ∈ e.cells config c types, cell.offset = offset) ↔ e.Accesses offset := by
  rw [← @mem_offsets types, ← @offsets_cells config c, List.mem_map]

/-- The cells of an aggregate have the bytes that belong to their fields. -/
lemma size_of_mem_cells (extent : ∀ n, e.extent = some n → n.toNat < 2 ^ 63) {cell : Layout.Cell}
    (mem : cell ∈ e.cells config c types) : cell.size = e.reach config types cell.field := by
  obtain ⟨before, offset, later, places, rfl⟩ := Layout.mem_cells.1 mem
  exact size_cell (bound?_eq extent places)

/-- What a structure is made of. -/
lemma LaidOut.struct_eq (laid : e.LaidOut config c types size fields remarks) :
    size = UInt64.ofNat ((e.filling config c types).limit - e.start).toNat ∧
      fields = (e.filling config c types).fields ∧
      remarks = (e.tiling config c types).remarks := by
  have struct := laid.struct
  rw [Layout.struct, @start_eq types] at struct
  obtain ⟨type, noted⟩ := Synthesis.mk.inj struct
  obtain ⟨whole, parts⟩ := DataType.struct.inj type
  refine ⟨whole.symm, parts.symm, noted.symm.trans ?_⟩
  cases Layout.endBound (e.aggregate types) <;> rfl

/-- The fields of a structure that are not filler are the cells. -/
lemma LaidOut.observed_eq (laid : e.LaidOut config c types size fields remarks) :
    Field.observed fields = (e.cells config c types).map Layout.Cell.field := by
  rw [laid.struct_eq.2.1, filling, Layout.observed_fillTo, tiling, Layout.observed_tile]

/-- Every cell is a field of the structure. -/
lemma LaidOut.field_mem (laid : e.LaidOut config c types size fields remarks)
    {cell : Layout.Cell} (mem : cell ∈ e.cells config c types) :
    cell.field ∈ Field.observed fields := by
  rw [laid.observed_eq]
  exact List.mem_map_of_mem mem

/-- The fields of a structure that are not filler are those of its cells. -/
lemma LaidOut.exists_observed (laid : e.LaidOut config c types size fields remarks)
    {P : Field DataType → Prop} :
    (∃ f ∈ Field.observed fields, P f) ↔ ∃ cell ∈ e.cells config c types, P cell.field := by
  rw [laid.observed_eq]
  simp

end

end Evidence

end TypeRecovery
