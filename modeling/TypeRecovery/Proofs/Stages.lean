import TypeRecovery.Analysis
import TypeRecovery.Proofs.Collection
import TypeRecovery.Proofs.Resolution.Resolver

/-!
# The stages of an analysis

Collecting, closing, resolving, listing: what one stage leaves is what the next one needs. Once a
trace is collected, an analysis fails for elements with a stride of zero only, and `Lists` tells what
its listing is made from.
-/

namespace TypeRecovery

/-- The collection of a trace is sorted. -/
lemma ArenaM.collect_sorted {memory : MemoryMap} {t : Trace} {s : Collection} {a : Arena}
    (run : ArenaM.collect memory t .empty = .ok s a) : s.Sorted [] ∧ a = s.arena := by
  rw [ArenaM.collect] at run
  cases walked : CollectM.trace memory t (.start .empty) with
  | error e s => rw [walked] at run; cases run
  | ok r s =>
    rw [walked] at run
    cases run
    exact ⟨(CollectM.trace_reaches Collection.start_sorted walked).sorted, rfl⟩

/-- A remark on a live class that is not about recursion; the variable that it names exists. -/
structure Arena.Notes (a : Arena) (n : Remark) : Prop where
  subject : n.subject ∈ a.liveIds
  calm : n.isRecursion = false
  unknown : ∀ v ∈ n.unknown?, v.index < a.size

namespace Analysis

/-- Remarks on a lack of evidence are about members of live classes. -/
lemma notes_unassigned {a : Arena} {log} (co : a.Coherent log) : ∀ n ∈ unassigned a, a.Notes n := by
  intro n mem
  obtain ⟨record, live, e⟩ := List.mem_filterMap.1 mem
  split at e
  · obtain ⟨v, first, rfl⟩ := Option.map_eq_some_iff.1 e
    have member := List.mem_of_head? first
    rw [(co.records_live live).members, Arena.mem_followers] at member
    refine ⟨List.mem_map_of_mem live, rfl, ?_⟩
    rintro u ⟨⟩
    exact member.1
  · cases e

/-- What a listing is made from. The arena `a` that was collected is closed, which gives `c`; then
every class gets a verdict and is frozen, which gives `d`. -/
structure Lists (config : Config) (a : Arena) (log : List Constraint) (c d : Arena)
    (remarks : List Remark) : Prop where
  collected : a.Coherent log
  sorted : c.Sorted log []
  bounded : c.Bounded
  unjudged : c.Unjudged
  congruent : ∀ x y, c.SameClass x y ↔ a.Congruent x y
  store : c.store = a.store
  retouches : c.Retouches d
  entails : ∀ record ∈ d.liveClasses, ∃ t, record.dataType = some t ∧
    c.Entails log config record.id t
  frozen : ∀ record ∈ d.liveClasses, record.state = .finalized
  /-- The remarks are those of the resolution, none of which is on a lack of evidence, and those on
  the classes without evidence. -/
  resolution : ∃ notes b, ArenaM.resolveAll config c = .ok notes b ∧ c.Retouches b ∧
    d = b.finalizeAll ∧ remarks = notes ++ unassigned b ∧ ∀ n ∈ notes, n.unknown? = none
  notes : ∀ n ∈ remarks, c.Notes n

section
variable {config : Config} {a c d : Arena} {log : List Constraint} {remarks : List Remark}

/-- What is listed is coherent with what was collected. -/
lemma Lists.coherent (lists : Lists config a log c d remarks) : d.Coherent log :=
  lists.retouches.coherent lists.sorted.coherent

/-- No variable is made after the collection. -/
lemma Lists.size (lists : Lists config a log c d remarks) : d.size = a.size := by
  rw [lists.retouches.size]
  simp only [Arena.size, lists.store]

/-- Nothing is merged after the closure. -/
lemma Lists.leaderOf (lists : Lists config a log c d remarks) (i : Nat) :
    d.forest.leaderOf i = c.forest.leaderOf i :=
  lists.retouches.forest.leaderOf_eq lists.sorted.coherent.forest.toRanked i

end

/-- What was collected is closed, resolved and listed. -/
lemma run_concludes {memory : MemoryMap} {config : Config} {function : String} {t : Trace}
    {s : Collection} {a start : Arena} {fails : Prop}
    (collected : ArenaM.collect memory t .empty = .ok s a)
    (zero : ∀ v access, a.Holds v (.element access) → access.stride = 0 → fails) :
    Concludes fails (fun l d => ∃ log c remarks, Lists config a log c d remarks ∧
      l = Listing.ofArena function d remarks) (run memory config function t start) := by
  have reset : ArenaM.reset start = .ok () .empty := rfl
  rw [run, bind_of_ok reset, bind_of_ok collected]
  obtain ⟨so, rfl⟩ := ArenaM.collect_sorted collected
  obtain ⟨log, sorted⟩ := so.arena
  obtain ⟨k, c, closed, ap, _, congruent⟩ :=
    sorted.coherent.close so.unjudged.unfrozen sorted.allocated
  rw [bind_of_ok closed]
  have sortedC := sorted.approaches ap
  have zero : Arena.ZeroStride log → fails := by
    rintro ⟨constraint, logged, access, e, stride⟩
    refine zero constraint.subject access ?_ stride
    exact sorted.coherent.holds_iff.2 ⟨constraint, logged, rfl, e⟩
  have unjudged := ap.unjudged so.unjudged
  have resolved := (ArenaM.resolveAll_concludes sortedC unjudged zero config).ran
  refine resolved.bind fun notes b ⟨done, ran⟩ => ?_
  -- freezing the classes changes neither their types nor their evidence
  have frozen := done.retouches.trans
    (.finalizeAll (done.retouches.coherent sortedC.coherent).forest.toRanked)
  refine .ok ⟨log, c, notes ++ unassigned b, ⟨sorted.coherent, sortedC,
    so.bounded.of_store ap.store, unjudged, congruent, ap.store, frozen, ?_, ?_, ?_, ?_⟩, rfl⟩
  · intro record mem
    obtain ⟨old, live, rfl⟩ := Arena.mem_liveClasses_finalizeAll.1 mem
    exact done.entails old live
  · intro record mem
    obtain ⟨old, _, rfl⟩ := Arena.mem_liveClasses_finalizeAll.1 mem
    rfl
  · refine ⟨notes, b, ran, done.retouches, rfl, rfl, fun n mem => ?_⟩
    obtain ⟨_, _, settles⟩ := done.settles n mem
    exact settles.known
  · intro n mem
    rcases List.mem_append.1 mem with mem | mem
    · obtain ⟨d, live, settles⟩ := done.settles n mem
      exact ⟨settles.subject ▸ live, settles.calm, by simp [settles.known]⟩
    · have noted := notes_unassigned (done.retouches.coherent sortedC.coherent) n mem
      refine ⟨?_, noted.calm, ?_⟩
      · exact done.retouches.liveIds sortedC.coherent ▸ noted.subject
      · exact done.retouches.size ▸ noted.unknown

/-- What the listing of an analysis that succeeds is made from. -/
lemma lists_of_run {memory : MemoryMap} {config : Config} {function : String} {t : Trace}
    {start d : Arena} {l : Listing} (ran : run memory config function t start = .ok l d) :
    ∃ s a log c remarks, ArenaM.collect memory t .empty = .ok s a ∧
      Lists config a log c d remarks ∧ l = Listing.ofArena function d remarks := by
  cases collected : ArenaM.collect memory t .empty with
  | error e a =>
    have reset : ArenaM.reset start = .ok () .empty := rfl
    rw [run, bind_of_ok reset, bind_of_error collected] at ran
    cases ran
  | ok s a =>
    have concludes : Concludes True _ (run memory config function t start) :=
      run_concludes collected fun _ _ _ _ => trivial
    rw [ran] at concludes
    cases concludes with
    | ok listed =>
      obtain ⟨log, c, remarks, lists, e⟩ := listed
      exact ⟨s, a, log, c, remarks, rfl, lists, e⟩

end Analysis

end TypeRecovery
