import Mathlib.Data.List.Pairwise
import Mathlib.Data.List.TakeDrop
import Mathlib.Data.List.TakeWhile
import Mathlib.Order.Interval.Set.Defs
import TypeRecovery.MemoryMap

/-!
# Mapped segments

A memory map is made by offering segments to it, one after the other. It keeps its segments in order
and apart, so the two neighbours of a new segment tell whether it is apart from all of them, and the
last segment that starts no later than an address is the only one that can contain it
(`exact_offerAll`).

A segment that reaches the last address ends there and does not contain it. So every byte of a
segment is located in it but the one at the last address (`locate_of_covers`), and two segments can
both have that one (`lastByte_unlocated`).
-/

namespace TypeRecovery

section
variable {α : Type} {r : α → α → Prop} {p : α → Bool} {l : List α} {x y : α}

/-- What `dropWhile` leaves of a list fails the predicate, if that never holds again after it
failed. -/
lemma not_of_mem_dropWhile (falls : l.Pairwise fun x y => p y = true → p x = true)
    (mem : y ∈ l.dropWhile p) : p y = false := by
  induction l with
  | nil => cases mem
  | cons x l ih =>
    rw [List.pairwise_cons] at falls
    cases first : p x with
    | true =>
      rw [List.dropWhile_cons_of_pos first] at mem
      exact ih falls.2 mem
    | false =>
      rw [List.dropWhile_cons_of_neg (by simp [first])] at mem
      rcases List.mem_cons.1 mem with rfl | mem
      · exact first
      · cases again : p y with
        | false => rfl
        | true => exact absurd (falls.1 y mem again) (by simp [first])

/-- Such a predicate cuts the list in two. -/
lemma exists_span (falls : l.Pairwise fun x y => p y = true → p x = true) :
    ∃ below above, l.span p = (below, above) ∧ l = below ++ above ∧
      (∀ x ∈ below, p x = true) ∧ ∀ x ∈ above, p x = false := by
  refine ⟨l.takeWhile p, l.dropWhile p, List.span_eq_takeWhile_dropWhile p l,
    List.takeWhile_append_dropWhile.symm, ?_, ?_⟩
  · intro x mem
    exact List.mem_takeWhile_imp mem
  · intro x mem
    exact not_of_mem_dropWhile falls mem

/-- All members of a list are related to its last one. -/
lemma eq_or_rel_of_getLast? (pairwise : l.Pairwise r) (last : l.getLast? = some y) (mem : x ∈ l) :
    x = y ∨ r x y := by
  obtain ⟨front, rfl⟩ := List.getLast?_eq_some_iff.1 last
  rcases List.mem_append.1 mem with mem | mem
  · exact .inr ((List.pairwise_append.1 pairwise).2.2 x mem y (List.mem_singleton_self y))
  · exact .inl (List.mem_singleton.1 mem)

/-- A list that has a member has a last one. -/
lemma exists_getLast? (mem : x ∈ l) : ∃ y, l.getLast? = some y :=
  Option.isSome_iff_exists.1 (List.getLast?_isSome.2 (List.ne_nil_of_mem mem))

end

/-! ## The addresses of a segment -/

namespace Segment

variable {s t : Segment} {address : UInt64}

/-- The addresses from the start of a segment to its end. -/
def range (s : Segment) : Set Nat :=
  Set.Ico s.start.toNat s.limit

/-- No segment reaches beyond the last address. -/
lemma limit_lt (s : Segment) : s.limit < UInt64.size := by
  have positive : 0 < UInt64.size := by decide
  rw [limit]
  omega

/-- A segment contains the addresses of its range. -/
lemma contains_iff : s.contains address = true ↔ address.toNat ∈ s.range := by
  simp [contains, range]

/-- An address that a segment contains does not come before its start. -/
lemma start_le_of_contains (holds : s.contains address = true) : s.start ≤ address :=
  UInt64.le_iff_toNat_le.2 (contains_iff.1 holds).1

/-- No address is in the ranges of both segments. -/
def Apart (s t : Segment) : Prop :=
  ∀ address ∈ s.range, address ∉ t.range

/-- Segments that are apart are so in either order. -/
lemma Apart.symm (apart : s.Apart t) : t.Apart s :=
  fun address mem mem' => apart address mem' mem

/-- Segments are apart if the later one starts where the earlier one ends, or behind. -/
lemma apart_iff : s.Apart t ↔ min s.limit t.limit ≤ max s.start.toNat t.start.toNat := by
  constructor
  · intro apart
    have start := apart (max s.start.toNat t.start.toNat)
    simp only [range, Set.mem_Ico] at start
    omega
  · intro below address mem mem'
    obtain ⟨start, reach⟩ := mem
    obtain ⟨start', reach'⟩ := mem'
    omega

/-- A size other than zero is a positive number. -/
lemma toNat_size_ne_zero (sized : s.size ≠ 0) : s.size.toNat ≠ 0 :=
  fun zero => sized (UInt64.toNat_inj.1 zero)

/-- A segment that has a size starts below its limit, unless it starts at the last address. -/
lemma start_lt_limit (sized : s.size ≠ 0) (before : s.start.toNat < UInt64.size - 1) :
    s.start.toNat < s.limit := by
  have positive := toNat_size_ne_zero sized
  rw [limit]
  omega

/-- Segments that have a size overlap if they share an address. One that starts at the last address
contains none, and overlaps no other. -/
lemma overlaps_iff (sized : s.size ≠ 0) (sized' : t.size ≠ 0) :
    s.overlaps t = true ↔ ¬ s.Apart t := by
  have bound := s.limit_lt
  have bound' := t.limit_lt
  have reach := start_lt_limit sized
  have reach' := start_lt_limit sized'
  rw [apart_iff]
  simp only [overlaps, Bool.and_eq_true, decide_eq_true_eq]
  omega

/-- Segments that do not overlap are apart. -/
lemma apart_of_overlaps_eq_false (sized : s.size ≠ 0) (sized' : t.size ≠ 0)
    (free : s.overlaps t = false) : s.Apart t := by
  by_contra shared
  rw [(overlaps_iff sized sized').2 shared] at free
  cases free

end Segment

namespace MemoryMap

/-! ## Offers -/

/-- The map after a segment was offered to it. One that cannot be mapped changes nothing. -/
def offer (m : MemoryMap) (s : Segment) : MemoryMap :=
  match m.add s with
  | .ok n => n
  | .error _ => m

/-- The map after segments were offered to it, one after the other. -/
def offerAll (m : MemoryMap) (offers : List Segment) : MemoryMap :=
  offers.foldl offer m

/-- The segments have a size, are in the order of their addresses, and share no address. -/
structure WellFormed (m : MemoryMap) : Prop where
  sized : ∀ s ∈ m.segments, s.size ≠ 0
  sorted : m.segments.Pairwise fun s t => s.start ≤ t.start
  apart : m.segments.Pairwise fun s t => s.Apart t

/-- What can come of a segment that is offered to a map. -/
inductive Outcome (m : MemoryMap) (s : Segment) : Except MapError MemoryMap → Prop
  | empty : s.size = 0 → Outcome m s (.error (.empty s.name))
  | overlapping {t} : s.size ≠ 0 → t ∈ m.segments → ¬ t.Apart s →
    Outcome m s (.error (.overlapping t.name s.name))
  | mapped {below above} : s.size ≠ 0 → m.segments = below ++ above →
    (∀ t ∈ below, t.start ≤ s.start) → (∀ t ∈ above, s.start ≤ t.start) →
    (∀ t ∈ m.segments, t.Apart s) → Outcome m s (.ok ⟨below ++ s :: above⟩)

section
variable {m n : MemoryMap} {s t : Segment} {below above : List Segment} {address : UInt64}

/-- Both parts of a map that is in order are so. -/
lemma WellFormed.of_append (wf : WellFormed ⟨below ++ above⟩) :
    WellFormed ⟨below⟩ ∧ WellFormed ⟨above⟩ := by
  obtain ⟨sized, sorted, apart⟩ := wf
  rw [List.forall_mem_append] at sized
  rw [List.pairwise_append] at sorted apart
  exact ⟨⟨sized.1, sorted.1, apart.1⟩, ⟨sized.2, sorted.2.1, apart.2.1⟩⟩

/-- If the last segment below a new one does not overlap it, none of those below does: they end where
that one starts. -/
lemma WellFormed.apart_below (wf : WellFormed ⟨below⟩) (sized : s.size ≠ 0)
    (low : ∀ t ∈ below, t.start < s.start)
    (free : ∀ q, below.getLast? = some q → q.overlaps s = false) (mem : t ∈ below) :
    t.Apart s := by
  obtain ⟨q, last⟩ := exists_getLast? mem
  have mem' := List.mem_of_getLast? last
  have sized' := wf.sized q mem'
  by_cases e : t = q
  · subst e
    exact Segment.apart_of_overlaps_eq_false sized' sized (free t last)
  · have order := (eq_or_rel_of_getLast? wf.sorted last mem).resolve_left e
    have apart := (eq_or_rel_of_getLast? wf.apart last mem).resolve_left e
    have before := low q mem'
    rw [UInt64.le_iff_toNat_le] at order
    rw [UInt64.lt_iff_toNat_lt] at before
    have bound := s.start.toNat_lt_size
    have reach := Segment.start_lt_limit sized' (by omega)
    rw [Segment.apart_iff] at apart ⊢
    omega

/-- If the first segment above a new one does not overlap it, none of those above does: it ends before
that one starts. -/
lemma WellFormed.apart_above (wf : WellFormed ⟨above⟩) (sized : s.size ≠ 0)
    (high : ∀ t ∈ above, s.start ≤ t.start)
    (free : ∀ q, above.head? = some q → q.overlaps s = false) (mem : t ∈ above) :
    t.Apart s := by
  cases above with
  | nil => cases mem
  | cons q above =>
    have sized' := wf.sized q List.mem_cons_self
    have apart := Segment.apart_of_overlaps_eq_false sized' sized (free q rfl)
    rcases List.mem_cons.1 mem with rfl | mem
    · exact apart
    · have order := (List.pairwise_cons.1 wf.sorted).1 t mem
      have before := high q List.mem_cons_self
      rw [UInt64.le_iff_toNat_le] at order before
      have bound := s.limit_lt
      have reach := Segment.start_lt_limit sized'
      rw [Segment.apart_iff] at apart ⊢
      omega

/-- The neighbours of a new segment answer for all segments. -/
lemma WellFormed.apart_of_neighbours (wf : WellFormed ⟨below ++ above⟩) (sized : s.size ≠ 0)
    (low : ∀ t ∈ below, t.start < s.start) (high : ∀ t ∈ above, s.start ≤ t.start)
    (free : ∀ t ∈ below.getLast?.toList ++ above.head?.toList, t.overlaps s = false) :
    ∀ t ∈ below ++ above, t.Apart s := by
  simp only [List.forall_mem_append, Option.mem_toList] at free ⊢
  obtain ⟨wf_below, wf_above⟩ := wf.of_append
  constructor
  · intro t mem
    exact wf_below.apart_below sized low free.1 mem
  · intro t mem
    exact wf_above.apart_above sized high free.2 mem

/-- The neighbours of a new segment are segments of the map. -/
lemma mem_of_neighbour (mem : t ∈ below.getLast?.toList ++ above.head?.toList) :
    t ∈ below ++ above := by
  rcases List.mem_append.1 mem with mem | mem
  · exact List.mem_append_left _ (List.mem_of_getLast? (Option.mem_toList.1 mem))
  · exact List.mem_append_right _ (List.mem_of_head? (Option.mem_toList.1 mem))

/-- Adding a segment has one of the listed outcomes. -/
lemma WellFormed.outcome (wf : m.WellFormed) (s : Segment) : m.Outcome s (m.add s) := by
  rw [add]
  split
  · rename_i zero
    exact .empty zero
  · rename_i sized
    obtain ⟨below, above, cut, split, low, high⟩ := exists_span (l := m.segments)
      (p := fun t => decide (t.start < s.start)) (wf.sorted.imp fun le lt =>
        decide_eq_true (UInt64.lt_of_le_of_lt le (of_decide_eq_true lt)))
    simp only [decide_eq_true_eq, decide_eq_false_iff_not, UInt64.not_lt] at low high
    have whole : WellFormed ⟨below ++ above⟩ := by
      rw [← split]
      exact wf
    rw [cut]
    dsimp only
    split
    · rename_i t found
      have mem := mem_of_neighbour (List.mem_of_find?_eq_some found)
      have overlap := List.find?_some found
      have shared := (Segment.overlaps_iff (whole.sized t mem) sized).1 overlap
      exact .overlapping sized (split ▸ mem) shared
    · rename_i missed
      have free := whole.apart_of_neighbours sized low high fun t mem => by
        simpa using List.find?_eq_none.1 missed t mem
      exact .mapped sized split (fun t mem => UInt64.le_of_lt (low t mem)) high (split ▸ free)

/-- Whatever comes of adding a segment is one of the listed outcomes. -/
lemma WellFormed.outcome_of_add (wf : m.WellFormed) {result : Except MapError MemoryMap}
    (added : m.add s = result) : m.Outcome s result :=
  added ▸ wf.outcome s

/-- A relation extends to a member that is put between two parts of a list, if that is related to
both. -/
lemma pairwise_insert {r : Segment → Segment → Prop} (pairwise : (below ++ above).Pairwise r)
    (low : ∀ t ∈ below, r t s) (high : ∀ t ∈ above, r s t) : (below ++ s :: above).Pairwise r := by
  rw [List.pairwise_append] at pairwise ⊢
  obtain ⟨pairwise_below, pairwise_above, across⟩ := pairwise
  refine ⟨pairwise_below, List.pairwise_cons.2 ⟨high, pairwise_above⟩, ?_⟩
  intro t mem
  rw [List.forall_mem_cons]
  exact ⟨low t mem, across t mem⟩

/-- A map is in order after it took a segment. -/
lemma WellFormed.mapped (wf : m.WellFormed) (out : m.Outcome s (.ok n)) : n.WellFormed := by
  obtain ⟨sized, sorted, apart⟩ := wf
  cases out with
  | @mapped below above sized_s split low high free =>
    rw [split] at sized sorted apart free
    rw [List.forall_mem_append] at sized free
    refine ⟨?_, pairwise_insert sorted low high, pairwise_insert apart free.1 ?_⟩
    · rw [List.forall_mem_append, List.forall_mem_cons]
      exact ⟨sized.1, sized_s, sized.2⟩
    · intro t mem
      exact (free.2 t mem).symm

/-- An offer leaves a map well-formed, whether it is taken or not. -/
lemma WellFormed.offer (wf : m.WellFormed) (s : Segment) : (m.offer s).WellFormed := by
  rw [MemoryMap.offer]
  cases added : m.add s with
  | error e => exact wf
  | ok n => exact wf.mapped (wf.outcome_of_add added)

/-- Offers leave a map in order. -/
lemma WellFormed.offerAll (wf : m.WellFormed) (offers : List Segment) :
    (m.offerAll offers).WellFormed := by
  induction offers generalizing m with
  | nil => exact wf
  | cons s offers ih => exact ih (wf.offer s)

/-- A map that is made by offers is in order. -/
lemma wellFormed_offerAll (offers : List Segment) : (empty.offerAll offers).WellFormed :=
  WellFormed.offerAll ⟨List.forall_mem_nil _, .nil, .nil⟩ offers

/-- A segment is added if it has a size and is apart from all segments of the map. -/
lemma WellFormed.add_ok_iff (wf : m.WellFormed) :
    (∃ n, m.add s = .ok n) ↔ s.size ≠ 0 ∧ ∀ t ∈ m.segments, t.Apart s := by
  constructor
  · rintro ⟨n, added⟩
    cases wf.outcome_of_add added with
    | mapped sized _ _ _ free => exact ⟨sized, free⟩
  · rintro ⟨sized, free⟩
    cases added : m.add s with
    | ok n => exact ⟨n, rfl⟩
    | error e =>
      cases wf.outcome_of_add added with
      | empty zero => exact absurd zero sized
      | overlapping _ mem shared => exact absurd (free _ mem) shared

/-- A map that took a segment has it and those that it had. -/
lemma WellFormed.perm_of_add_ok (wf : m.WellFormed) (added : m.add s = .ok n) :
    n.segments.Perm (s :: m.segments) := by
  cases wf.outcome_of_add added with
  | mapped _ split _ _ _ =>
    rw [split]
    exact List.perm_middle

/-- A segment is refused for its size or for a segment that it shares an address with, and the error
tells which. -/
lemma WellFormed.of_add_error (wf : m.WellFormed) {e : MapError} (refused : m.add s = .error e) :
    s.size = 0 ∧ e = .empty s.name ∨
      ∃ t ∈ m.segments, ¬ t.Apart s ∧ e = .overlapping t.name s.name := by
  cases wf.outcome_of_add refused with
  | empty zero => exact .inl ⟨zero, rfl⟩
  | overlapping _ mem shared => exact .inr ⟨_, mem, shared, rfl⟩

/-! ## Lookups -/

/-- A segment that contains an address is the last one that starts no later. -/
lemma WellFormed.getLast?_of_contains (wf : m.WellFormed) (mem : t ∈ m.segments)
    (holds : t.contains address = true) :
    (m.segments.takeWhile fun s => decide (s.start ≤ address)).getLast? = some t := by
  have inside : t ∈ m.segments.takeWhile fun s => decide (s.start ≤ address) := by
    rw [← List.takeWhile_append_dropWhile (p := fun s => decide (s.start ≤ address))
      (l := m.segments)] at mem
    refine (List.mem_append.1 mem).resolve_right fun above => ?_
    have fails := not_of_mem_dropWhile (wf.sorted.imp fun le le' => ?_) above
    · exact of_decide_eq_false fails (Segment.start_le_of_contains holds)
    · exact decide_eq_true (UInt64.le_trans le (of_decide_eq_true le'))
  obtain ⟨q, last⟩ := exists_getLast? inside
  by_cases e : t = q
  · rw [last, e]
  · -- the last one would start inside the segment that contains the address
    have sub := List.takeWhile_sublist (l := m.segments) fun s => decide (s.start ≤ address)
    have order := (eq_or_rel_of_getLast? (wf.sorted.sublist sub) last inside).resolve_left e
    have apart := (eq_or_rel_of_getLast? (wf.apart.sublist sub) last inside).resolve_left e
    have mem' := List.mem_of_getLast? last
    have start : q.start ≤ address := by
      have holds := List.mem_takeWhile_imp mem'
      exact of_decide_eq_true holds
    obtain ⟨_, before⟩ := Segment.contains_iff.1 holds
    rw [UInt64.le_iff_toNat_le] at order start
    have bound := t.limit_lt
    have reach := Segment.start_lt_limit (wf.sized q (sub.subset mem')) (by omega)
    rw [Segment.apart_iff] at apart
    omega

/-- A lookup finds the segment that contains the address. -/
lemma WellFormed.segmentFor?_eq_some (wf : m.WellFormed) :
    m.segmentFor? address = some t ↔ t ∈ m.segments ∧ t.contains address = true := by
  constructor
  · intro found
    rw [segmentFor?] at found
    split at found
    · rename_i q last
      split at found
      · rename_i holds
        cases found
        exact ⟨(List.takeWhile_sublist _).subset (List.mem_of_getLast? last), holds⟩
      · cases found
    · cases found
  · rintro ⟨mem, holds⟩
    rw [segmentFor?, wf.getLast?_of_contains mem holds]
    exact if_pos holds

/-- No two segments of a map contain one address. -/
lemma WellFormed.contains_once (wf : m.WellFormed) (address : UInt64) :
    m.segments.Pairwise fun s t => ¬ (s.contains address = true ∧ t.contains address = true) := by
  refine wf.apart.imp fun apart both => ?_
  rw [Segment.contains_iff, Segment.contains_iff] at both
  exact apart _ both.1 both.2

end

/-- The segments of a map are in order and apart, one more is mapped if and only if it is apart from
all of them, and a lookup finds the segment that contains the address. -/
structure Exact (m : MemoryMap) : Prop where
  sorted : m.segments.Pairwise fun s t => s.start ≤ t.start
  apart : m.segments.Pairwise fun s t => s.Apart t
  add_ok_iff : ∀ s, (∃ n, m.add s = .ok n) ↔
    s.size ≠ 0 ∧ ∀ t ∈ m.segments, t.Apart s
  /-- A segment that is mapped joins the others. -/
  of_add_ok : ∀ {s n}, m.add s = .ok n → m.offer s = n ∧ n.segments.Perm (s :: m.segments)
  /-- One that is not mapped changes nothing, and the error names a segment that it overlaps. -/
  of_add_error : ∀ {s e}, m.add s = .error e → m.offer s = m ∧
    (s.size = 0 ∧ e = .empty s.name ∨
      ∃ t ∈ m.segments, ¬ t.Apart s ∧ e = .overlapping t.name s.name)
  segmentFor?_iff : ∀ {address t},
    m.segmentFor? address = some t ↔ t ∈ m.segments ∧ t.contains address = true
  contains_once : ∀ address, m.segments.Pairwise fun s t =>
    ¬ (s.contains address = true ∧ t.contains address = true)

/-- The checks and the lookups of a map that is in order are exact. -/
lemma WellFormed.exact {m : MemoryMap} (wf : m.WellFormed) : m.Exact where
  sorted := wf.sorted
  apart := wf.apart
  add_ok_iff _ := wf.add_ok_iff
  of_add_ok added := ⟨by rw [MemoryMap.offer, added], wf.perm_of_add_ok added⟩
  of_add_error refused := ⟨by rw [MemoryMap.offer, refused], wf.of_add_error refused⟩
  segmentFor?_iff := wf.segmentFor?_eq_some
  contains_once := wf.contains_once

/-- Whatever segments are offered to an empty map, and whichever of them it takes, its checks and its
lookups are exact. -/
theorem exact_offerAll (offers : List Segment) : (empty.offerAll offers).Exact :=
  (wellFormed_offerAll offers).exact

/-! ## The bytes of a segment -/

/-- The last address. -/
def lastAddress : UInt64 :=
  0xffffffffffffffff

end MemoryMap

namespace Segment

variable {s : Segment} {address : UInt64}

/-- A byte of the segment is at an address. -/
def Covers (s : Segment) (address : UInt64) : Prop :=
  s.start ≤ address ∧ address - s.start < s.size

instance : Decidable (s.Covers address) :=
  inferInstanceAs (Decidable (_ ∧ _))

/-- The bytes of a segment are at the addresses from its start to the end that its size gives. -/
lemma covers_iff : s.Covers address ↔
    s.start.toNat ≤ address.toNat ∧ address.toNat < s.start.toNat + s.size.toNat := by
  rw [Covers, UInt64.le_iff_toNat_le, UInt64.lt_iff_toNat_lt]
  refine and_congr_right fun start => ?_
  rw [UInt64.toNat_sub_of_le _ _ (UInt64.le_iff_toNat_le.2 start)]
  omega

/-- Every address but the last one is less than the greatest number of 64 bits. -/
lemma ne_lastAddress_iff : address ≠ MemoryMap.lastAddress ↔ address.toNat < UInt64.size - 1 := by
  have last : MemoryMap.lastAddress.toNat = UInt64.size - 1 := rfl
  have bound := address.toNat_lt_size
  rw [ne_eq, ← UInt64.toNat_inj]
  omega

/-- A segment contains all of its bytes but the one at the last address. -/
lemma contains_iff_covers : s.contains address = true ↔
    s.Covers address ∧ address ≠ MemoryMap.lastAddress := by
  rw [contains_iff, covers_iff, ne_lastAddress_iff, range, Set.mem_Ico, limit]
  omega

end Segment

namespace MemoryMap

section
variable {m : MemoryMap} {s : Segment} {address : UInt64}

/-- An address that is in a segment is located by its distance from the start. -/
lemma locate_of_some (found : m.segmentFor? address = some s) :
    m.locate address = ⟨s.name, address - s.start, some s.size⟩ := by
  rw [locate, found]

/-- An address that is in no segment is located by itself. -/
lemma locate_of_none (missed : m.segmentFor? address = none) :
    m.locate address = ⟨unmapped, address, none⟩ := by
  rw [locate, missed]

end

/-- A byte of a segment is located in it, and is a byte of no other segment, unless it is the byte at
the last address: that one is located in no segment. -/
theorem locate_of_covers {offers : List Segment} {s : Segment}
    (mem : s ∈ (empty.offerAll offers).segments) {address : UInt64} (covers : s.Covers address) :
    (address ≠ lastAddress →
      (empty.offerAll offers).locate address = ⟨s.name, address - s.start, some s.size⟩ ∧
        (empty.offerAll offers).segments.Pairwise fun t u =>
          ¬ (t.Covers address ∧ u.Covers address)) ∧
      (address = lastAddress →
        (empty.offerAll offers).locate address = ⟨unmapped, lastAddress, none⟩) := by
  have wf := wellFormed_offerAll offers
  constructor
  · intro inner
    have contains_of_covers : ∀ {t : Segment}, t.Covers address → t.contains address = true :=
      fun covers => Segment.contains_iff_covers.2 ⟨covers, inner⟩
    constructor
    · apply locate_of_some
      exact wf.segmentFor?_eq_some.2 ⟨mem, contains_of_covers covers⟩
    · refine (wf.contains_once address).imp fun once both => once ?_
      exact ⟨contains_of_covers both.1, contains_of_covers both.2⟩
  · rintro rfl
    apply locate_of_none
    rw [Option.eq_none_iff_forall_ne_some]
    intro t found
    have holds := (wf.segmentFor?_eq_some.1 found).2
    exact (Segment.contains_iff_covers.1 holds).2 rfl

/-- The last sixteen addresses. -/
def top : Segment :=
  ⟨"top", 0xfffffffffffffff0, 16⟩

/-- Of the last sixteen addresses, the last one is located in no segment. -/
theorem locate_of_covers_top :
    (empty.offerAll [top]).locate 0xfffffffffffffffe = ⟨"top", 14, some 16⟩ ∧
      (empty.offerAll [top]).locate lastAddress = ⟨"globals", lastAddress, none⟩ := by
  have mem : top ∈ (empty.offerAll [top]).segments := by decide
  constructor
  · exact ((locate_of_covers mem (by decide)).1 (by decide)).1
  · exact (locate_of_covers mem (by decide)).2 rfl

/-- The byte at the last address is not located in its segment, and two segments can have it. -/
theorem lastByte_unlocated :
    (top.start.toNat + top.size.toNat ≤ UInt64.size ∧ top ∈ (empty.offerAll [top]).segments ∧
      top.Covers lastAddress ∧ (empty.offerAll [top]).locate lastAddress ≠
        ⟨top.name, lastAddress - top.start, some top.size⟩) ∧
    (empty.offerAll [⟨"a", lastAddress, 1⟩, ⟨"b", lastAddress, 1⟩]).segments =
        [⟨"b", lastAddress, 1⟩, ⟨"a", lastAddress, 1⟩] ∧
      Segment.Covers ⟨"a", lastAddress, 1⟩ lastAddress ∧
      Segment.Covers ⟨"b", lastAddress, 1⟩ lastAddress := by
  refine ⟨⟨?_, ?_, ?_, ?_⟩, ?_, ?_, ?_⟩ <;> decide

end MemoryMap

end TypeRecovery
