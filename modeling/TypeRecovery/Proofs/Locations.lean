import Mathlib.Data.List.Nodup
import TypeRecovery.Proofs.GlobalAccess
import TypeRecovery.Proofs.MemoryMap

/-!
# Locations of addresses

What is known of global memory is kept by the name of a segment and an offset in it. A map takes
segments whatever their names are, so that two segments can have one name, and a segment can have the
name of what is not mapped. Locations identify addresses if and only if that does no harm
(`locate_injective_iff`). Where it does, two addresses get one entry (`twins_mixed`).
-/

namespace TypeRecovery

namespace MemoryMap

/-- Names tell segments apart, from each other and from what is not mapped. -/
structure Unambiguous (m : MemoryMap) : Prop where
  /-- The segments that contain an address have different names. -/
  names : ((m.segments.filter fun s => s.start ≠ lastAddress).map (·.name)).Nodup
  /-- Where a segment has the name of what is not mapped, its offsets are addresses that are
  mapped. -/
  offsets : ∀ s ∈ m.segments, s.name = unmapped → ∀ address, s.contains address = true →
    (m.segmentFor? (address - s.start)).isSome = true

section
variable {m : MemoryMap} {s t : Segment} {a b : UInt64}

/-- A segment that does not start at the last address contains its start. -/
lemma WellFormed.contains_start (wf : m.WellFormed) (mem : s ∈ m.segments)
    (inner : s.start ≠ lastAddress) : s.contains s.start = true := by
  have positive := Segment.toNat_size_ne_zero (wf.sized s mem)
  rw [Segment.contains_iff_covers, Segment.covers_iff]
  exact ⟨⟨le_rfl, by omega⟩, inner⟩

/-- A segment that contains an address does not start at the last one. -/
lemma start_ne_of_contains (holds : s.contains a = true) : s.start ≠ lastAddress := by
  have start := Segment.start_le_of_contains holds
  have inner := (Segment.contains_iff_covers.1 holds).2
  rw [Segment.ne_lastAddress_iff] at inner ⊢
  rw [UInt64.le_iff_toNat_le] at start
  omega

/-- Segments that contain addresses are told apart by their names. -/
lemma Unambiguous.eq_of_name (una : m.Unambiguous) (mem : s ∈ m.segments)
    (holds : s.contains a = true) (mem' : t ∈ m.segments) (holds' : t.contains b = true)
    (named : s.name = t.name) : s = t := by
  refine List.inj_on_of_nodup_map una.names (List.mem_filter.2 ⟨mem, ?_⟩)
    (List.mem_filter.2 ⟨mem', ?_⟩) named
  · exact decide_eq_true (start_ne_of_contains holds)
  · exact decide_eq_true (start_ne_of_contains holds')

/-- What is mapped is not located where something is that is not. -/
lemma Unambiguous.apart (una : m.Unambiguous) (mem : s ∈ m.segments) (holds : s.contains a = true)
    (missed : m.segmentFor? b = none) (named : s.name = unmapped) : a - s.start ≠ b := by
  intro same
  have mapped := una.offsets s mem named a holds
  rw [same, missed] at mapped
  cases mapped

/-- Where names are unambiguous, different addresses have different locations. -/
lemma Unambiguous.injective (una : m.Unambiguous) (wf : m.WellFormed)
    (segment : (m.locate a).segment = (m.locate b).segment)
    (offset : (m.locate a).offset = (m.locate b).offset) : a = b := by
  cases found : m.segmentFor? a with
  | none =>
    rw [locate_of_none found] at segment offset
    cases found' : m.segmentFor? b with
    | none =>
      rw [locate_of_none found'] at offset
      exact offset
    | some t =>
      obtain ⟨mem, holds⟩ := wf.segmentFor?_eq_some.1 found'
      rw [locate_of_some found'] at segment offset
      exact (una.apart mem holds found segment.symm offset.symm).elim
  | some s =>
    obtain ⟨mem, holds⟩ := wf.segmentFor?_eq_some.1 found
    rw [locate_of_some found] at segment offset
    cases found' : m.segmentFor? b with
    | none =>
      rw [locate_of_none found'] at segment offset
      exact (una.apart mem holds found' segment offset).elim
    | some t =>
      obtain ⟨mem', holds'⟩ := wf.segmentFor?_eq_some.1 found'
      rw [locate_of_some found'] at segment offset
      obtain rfl := una.eq_of_name mem holds mem' holds' segment
      exact (UInt64.sub_left_inj s.start).1 offset

/-- Where names are ambiguous, two addresses have one location. -/
lemma WellFormed.unambiguous (wf : m.WellFormed)
    (injective : ∀ {a b}, (m.locate a).segment = (m.locate b).segment →
      (m.locate a).offset = (m.locate b).offset → a = b) : m.Unambiguous where
  names := by
    rw [List.Nodup, List.pairwise_map, List.pairwise_filter]
    refine wf.apart.imp_of_mem fun {s t} mem mem' apart inner inner' named => ?_
    -- both are located at their start
    have holds := wf.contains_start mem (of_decide_eq_true inner)
    have holds' := wf.contains_start mem' (of_decide_eq_true inner')
    have located := locate_of_some (wf.segmentFor?_eq_some.2 ⟨mem, holds⟩)
    have located' := locate_of_some (wf.segmentFor?_eq_some.2 ⟨mem', holds'⟩)
    have start : s.start = t.start := by
      apply injective <;> simp only [located, located', named, UInt64.sub_self]
    rw [Segment.contains_iff] at holds holds'
    exact apart _ holds (start ▸ holds')
  offsets := by
    intro s mem named address holds
    rw [Option.isSome_iff_ne_none]
    intro missed
    have found := wf.segmentFor?_eq_some.2 ⟨mem, holds⟩
    have same : address = address - s.start := by
      apply injective <;> simp only [locate_of_some found, locate_of_none missed, named]
    rw [← same, found] at missed
    cases missed

/-- Addresses have one place if they have one segment and one offset. -/
lemma place_eq_iff : m.place a = m.place b ↔
    (m.locate a).segment = (m.locate b).segment ∧ (m.locate a).offset = (m.locate b).offset := by
  constructor
  · intro same
    injection same with segment offset
    exact ⟨segment, congrArg Int64.toUInt64 offset⟩
  · rintro ⟨segment, offset⟩
    rw [place, place, segment, offset]

end

/-- Different addresses have different locations, and so different places, if and only if names are
unambiguous. -/
theorem locate_injective_iff (offers : List Segment) :
    ((∀ a b, a ≠ b →
        ((empty.offerAll offers).locate a).segment ≠ ((empty.offerAll offers).locate b).segment ∨
          ((empty.offerAll offers).locate a).offset ≠ ((empty.offerAll offers).locate b).offset) ↔
        (empty.offerAll offers).Unambiguous) ∧
      (Function.Injective (empty.offerAll offers).place ↔ (empty.offerAll offers).Unambiguous) := by
  have wf := wellFormed_offerAll offers
  refine ⟨⟨fun differ => ?_, fun una a b ne => ?_⟩, ⟨fun injective => ?_, fun una a b same => ?_⟩⟩
  · apply wf.unambiguous
    intro a b segment offset
    by_contra ne
    rcases differ a b ne with ne | ne
    · exact ne segment
    · exact ne offset
  · by_contra same
    rw [not_or, not_ne_iff, not_ne_iff] at same
    exact ne (una.injective wf same.1 same.2)
  · apply wf.unambiguous
    intro a b segment offset
    exact injective (place_eq_iff.2 ⟨segment, offset⟩)
  · rw [place_eq_iff] at same
    exact una.injective wf same.1 same.2

/-- Two segments with one name. -/
def twins : List Segment :=
  [⟨"data", 0, 1⟩, ⟨"data", 16, 1⟩]

/-- A function that loads a byte. -/
def loader (name : String) (address : UInt64) : FunctionTrace :=
  ⟨name, ⟨[⟨0, 0, .load (.address address) 0 1, none⟩]⟩⟩

/-- The starts of two segments with one name have one location, and share an entry in the report of a
program. -/
theorem twins_mixed :
    (empty.offerAll twins).segments = twins ∧
      ((empty.offerAll twins).locate 0).segment = ((empty.offerAll twins).locate 16).segment ∧
      ((empty.offerAll twins).locate 0).offset = ((empty.offerAll twins).locate 16).offset ∧
      (Program.analyze (empty.offerAll twins) .lp64 [loader "first" 0, loader "second" 16]).globals =
        [⟨"data", 0, .integer 1 .unknown, ["first", "second"]⟩] := by
  refine ⟨by decide, by decide, by decide, by decide +kernel⟩

end MemoryMap

end TypeRecovery
