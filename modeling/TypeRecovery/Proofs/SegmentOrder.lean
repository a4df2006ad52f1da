import TypeRecovery.Proofs.Json.Decoding
import TypeRecovery.Proofs.MemoryMap

/-!
# The order of segments

A list of segments can be mapped if all of them have a size and no two of them share an address, in
whatever order they come (`ofSegments_ok_iff`). Segments that end before the last address start at
different addresses if they are apart, so a map is known by the segments that it has
(`WellFormed.eq_of_perm`): it does not depend on their order, and it is its own reading, in every
format that keeps values of few levels (`run_print_of_ofSegments`).
-/

namespace TypeRecovery

open Decoder

/-- A segment is read back. -/
lemma Segment.reads {limit levels : Nat} (s : Segment) :
    Reads (limit + 1) (levels + 1) Segment.decoder s.toJson s := by
  refine Reads.record ((Reads.string s.name).required.and <| (Reads.uint64 s.start).required.and <|
    (Reads.uint64 s.size).required.and .nil) rfl (by decide) ?_
  rintro room _ ⟨_, _, rfl, name, _, _, rfl, start, _, _, rfl, size, rfl⟩
  simp only [name, start, size]
  rfl

namespace Segment

/-- A segment that ends before the last address. -/
def Bounded (s : Segment) : Prop :=
  s.start.toNat + s.size.toNat < UInt64.size

instance (s : Segment) : Decidable s.Bounded :=
  inferInstanceAs (Decidable (_ < _))

/-- A bounded segment that has a size starts below its limit. -/
lemma Bounded.start_lt_limit {s : Segment} (bounded : s.Bounded) (sized : s.size ≠ 0) :
    s.start.toNat < s.limit := by
  have positive := toNat_size_ne_zero sized
  rw [Bounded] at bounded
  rw [limit]
  omega

/-- Segments that start at the same address share it. -/
lemma Bounded.not_apart {s t : Segment} (bounded : s.Bounded) (bounded' : t.Bounded)
    (sized : s.size ≠ 0) (sized' : t.size ≠ 0) (same : s.start = t.start) : ¬ s.Apart t := by
  intro apart
  refine apart s.start.toNat ⟨Nat.le_refl _, bounded.start_lt_limit sized⟩ ⟨?_, ?_⟩
  · rw [same]
  · rw [same]
    exact bounded'.start_lt_limit sized'

instance : Std.Symm Apart where
  symm _ _ := Apart.symm

end Segment

namespace MemoryMap

/-- All segments have a size, and no two of them share an address. -/
def Mappable (segments : List Segment) : Prop :=
  (∀ s ∈ segments, s.size ≠ 0) ∧ segments.Pairwise Segment.Apart

/-- Segments can be mapped in any order if they can be so in one. -/
lemma Mappable.perm {segments segments' : List Segment} (perm : segments.Perm segments')
    (mappable : Mappable segments) : Mappable segments' := by
  refine ⟨fun s mem => mappable.1 s (perm.mem_iff.2 mem), ?_⟩
  exact (perm.pairwise_iff Segment.Apart.symm).1 mappable.2

/-- The segments of a map can be mapped. -/
lemma WellFormed.mappable {m : MemoryMap} (wf : m.WellFormed) : Mappable m.segments :=
  ⟨wf.sized, wf.apart⟩

/-- The empty map is in order. -/
lemma wellFormed_empty : empty.WellFormed :=
  ⟨List.forall_mem_nil _, .nil, .nil⟩

/-! ## Lists of segments -/

section
variable {m n : MemoryMap} {segments : List Segment}

/-- A map that took all segments of a list has them and those that it had. -/
lemma WellFormed.of_foldlM_ok (wf : m.WellFormed) (added : segments.foldlM add m = .ok n) :
    n.WellFormed ∧ n.segments.Perm (segments ++ m.segments) := by
  induction segments generalizing m with
  | nil =>
    cases added
    exact ⟨wf, .refl _⟩
  | cons s segments ih =>
    rw [List.foldlM_cons] at added
    cases first : m.add s with
    | error e =>
      rw [first] at added
      cases added
    | ok next =>
      rw [first] at added
      obtain ⟨wf', perm⟩ := ih (wf.mapped (wf.outcome_of_add first)) added
      refine ⟨wf', perm.trans ?_⟩
      exact ((wf.perm_of_add_ok first).append_left segments).trans List.perm_middle

/-- A map takes segments that share no address with each other nor with those that it has. -/
lemma WellFormed.exists_foldlM_ok (wf : m.WellFormed) (mappable : Mappable (segments ++ m.segments)) :
    ∃ n, segments.foldlM add m = .ok n := by
  induction segments generalizing m with
  | nil => exact ⟨m, rfl⟩
  | cons s segments ih =>
    have free : ∀ t ∈ m.segments, t.Apart s := by
      intro t mem
      exact ((List.pairwise_cons.1 mappable.2).1 t (List.mem_append_right _ mem)).symm
    obtain ⟨next, first⟩ := wf.add_ok_iff.2 ⟨mappable.1 s List.mem_cons_self, free⟩
    have perm : (s :: segments ++ m.segments).Perm (segments ++ next.segments) :=
      (((wf.perm_of_add_ok first).append_left segments).trans List.perm_middle).symm
    obtain ⟨n, others⟩ := ih (wf.mapped (wf.outcome_of_add first)) (mappable.perm perm)
    refine ⟨n, ?_⟩
    rw [List.foldlM_cons, first]
    exact others

/-- A map that is made from segments is in order and has these segments. -/
lemma of_ofSegments_ok (made : ofSegments segments = .ok m) :
    m.WellFormed ∧ m.segments.Perm segments := by
  obtain ⟨wf, perm⟩ := wellFormed_empty.of_foldlM_ok made
  refine ⟨wf, ?_⟩
  rwa [empty, List.append_nil] at perm

/-- Segments are mapped if they have sizes and no two of them share an address. -/
lemma ofSegments_ok_iff : (∃ m, ofSegments segments = .ok m) ↔ Mappable segments := by
  constructor
  · rintro ⟨m, made⟩
    obtain ⟨wf, perm⟩ := of_ofSegments_ok made
    exact wf.mappable.perm perm
  · intro mappable
    refine wellFormed_empty.exists_foldlM_ok ?_
    rwa [empty, List.append_nil]

/-- Segments that cannot be mapped are refused. -/
lemma exists_error_of_not_mappable (clash : ¬ Mappable segments) :
    ∃ e, ofSegments segments = .error e := by
  cases made : ofSegments segments with
  | error e => exact ⟨e, rfl⟩
  | ok m => exact absurd (ofSegments_ok_iff.1 ⟨m, made⟩) clash

/-- A map of bounded segments is known by the segments that it has. -/
lemma WellFormed.eq_of_perm (wf : m.WellFormed) (wf' : n.WellFormed)
    (bounded : ∀ s ∈ m.segments, s.Bounded) (perm : m.segments.Perm n.segments) : m = n := by
  have same : m.segments = n.segments := by
    refine perm.eq_of_pairwise ?_ wf.sorted wf'.sorted
    intro s t mem mem' le ge
    by_contra ne
    have start : s.start = t.start := UInt64.le_antisymm le ge
    have mem' := perm.mem_iff.2 mem'
    exact (bounded s mem).not_apart (bounded t mem') (wf.sized s mem) (wf.sized t mem') start
      (wf.apart.forall mem mem' ne)
  cases m
  cases n
  exact congrArg MemoryMap.mk same

/-- A map of bounded segments is made from them in any order. -/
lemma ofSegments_eq_of_perm {segments' : List Segment} (bounded : ∀ s ∈ segments, s.Bounded)
    (perm : segments.Perm segments') (made : ofSegments segments = .ok m) :
    ofSegments segments' = .ok m := by
  obtain ⟨wf, same⟩ := of_ofSegments_ok made
  obtain ⟨n, made'⟩ := ofSegments_ok_iff.2 (wf.mappable.perm (same.trans perm))
  obtain ⟨wf', same'⟩ := of_ofSegments_ok made'
  have eq : m = n := by
    refine wf.eq_of_perm wf' (fun s mem => bounded s (same.mem_iff.1 mem)) ?_
    exact (same.trans perm).trans same'.symm
  rw [made', eq]

/-- A map that is made from its own segments is read from its JSON form. -/
lemma reads_of_ofSegments {limit levels : Nat} (made : ofSegments m.segments = .ok m) :
    Reads (limit + 2) (levels + 2) decoder m.toJson m := by
  refine (Reads.ofList fun s _ => s.reads).filterMap ?_
  rw [made]
  rfl

/-- A map that is made from its own segments is read back from what is printed of it, whatever the
format. -/
lemma run_print_of_ofSegments {τ : Type} (format : Json.Format τ)
    (made : ofSegments m.segments = .ok m) :
    (format.read (format.print m.toJson)).bind decoder.run = some m :=
  (reads_of_ofSegments made).run_print format

end

/-- The order of bounded segments does not matter: they are mapped in any order or in none, the
result is the same map, and it is read back from its JSON form and from the text of that. -/
theorem ofSegments_perm {segments segments' : List Segment} (bounded : ∀ s ∈ segments, s.Bounded)
    (perm : segments.Perm segments') :
    (¬ Mappable segments ∧ (∃ e, ofSegments segments = .error e) ∧
      ∃ e, ofSegments segments' = .error e) ∨
    Mappable segments ∧ ∃ m, ofSegments segments = .ok m ∧ ofSegments segments' = .ok m ∧
      ofSegments m.segments = .ok m ∧ decoder.run m.toJson = some m ∧
      ∀ layout, (Json.read (m.toJson.textIn layout)).bind decoder.run = some m := by
  by_cases mappable : Mappable segments
  · right
    obtain ⟨m, made⟩ := ofSegments_ok_iff.2 mappable
    have own : ofSegments m.segments = .ok m :=
      ofSegments_eq_of_perm bounded (of_ofSegments_ok made).2.symm made
    have reads : Reads (depthLimit + 1) depthLimit decoder m.toJson m := reads_of_ofSegments own
    refine ⟨mappable, m, made, ofSegments_eq_of_perm bounded perm made, own, ?_, ?_⟩
    · exact reads.found (Nat.le_refl _) (Nat.lt_succ_self _)
    · exact fun layout => run_print_of_ofSegments (.text layout) own
  · left
    refine ⟨mappable, exists_error_of_not_mappable mappable, exists_error_of_not_mappable ?_⟩
    exact fun mappable' => mappable (mappable'.perm perm.symm)

/-- Two segments next to each other. -/
def code : Segment :=
  ⟨"code", 0x1000, 0x1000⟩

def data : Segment :=
  ⟨"data", 0x2000, 0x800⟩

/-- The two neighbours are mapped in either order, and the map is read back. -/
theorem ofSegments_perm_neighbours :
    (∀ s ∈ [data, code], s.Bounded) ∧ [data, code].Perm [code, data] ∧
      ∃ m, ofSegments [data, code] = .ok m ∧ ofSegments [code, data] = .ok m ∧
        m.segments = [code, data] ∧ decoder.run m.toJson = some m := by
  have bounded : ∀ s ∈ [data, code], s.Bounded := by decide
  have perm : [data, code].Perm [code, data] := .swap ..
  refine ⟨bounded, perm, ?_⟩
  have made : ofSegments [data, code] = .ok ⟨[code, data]⟩ := by decide
  rcases ofSegments_perm bounded perm with ⟨-, ⟨e, failed⟩, -⟩ | ⟨-, m, first, second, -, back, -⟩
  · rw [made] at failed
    cases failed
  · refine ⟨m, first, second, ?_, back⟩
    rw [made] at first
    cases first
    rfl

end MemoryMap

end TypeRecovery
