import TypeRecovery.Proofs.Arena.Conservation
import TypeRecovery.Proofs.Ingestion
import TypeRecovery.Proofs.Procedures

/-!
# Evidence in the order of the trace

An operation adds its evidence at its own position, and the operations of an ingested trace stand at
ascending positions. So the log of a collection is in the order of the trace, whatever was merged on
the way (`collect_chronological`).
-/

namespace TypeRecovery

/-- Constraints are in the order of the trace. -/
def Chronological (log : List Constraint) : Prop :=
  log.Pairwise fun x y => x.position ≤ y.position

namespace Arena

/-- What is added by calls is what they admit at their positions. -/
lemma accepted_within {admits : Nat → Fact → Prop} {a : Arena} {calls : List Call}
    (within : ∀ call ∈ calls, Call.Within admits call) :
    ∀ request ∈ a.accepted calls, admits request.2.1 request.2.2 := by
  induction calls generalizing a with
  | nil => exact List.forall_mem_nil _
  | cons call calls ih =>
    rw [List.forall_mem_cons] at within
    rw [accepted, List.forall_mem_append]
    refine ⟨fun request mem => ?_, ih within.2⟩
    have added := Option.mem_toList.1 mem
    cases call with
    | constrain subject position fact =>
      rw [Call.accepted?] at added
      split at added
      · cases added
        exact within.1
      · cases added
    | _ => cases added

/-- Evidence that is added at the latest position keeps the log in order. -/
lemma Coherent.chronological_afterAll {a : Arena} {log : List Constraint} {calls : List Call}
    {position : Nat} (co : a.Coherent log) (ordered : Chronological log)
    (earlier : ∀ c ∈ log, c.position ≤ position)
    (within : ∀ call ∈ calls, Call.Within (fun place _ => place = position) call) :
    ∃ log', (a.afterAll calls).Coherent log' ∧ Chronological log' ∧
      ∀ c ∈ log', c.position ≤ position := by
  obtain ⟨log', co', requests⟩ := co.afterAll_requests fun mem => within _ mem
  have here := accepted_within (a := a) within
  have all : ∀ request ∈ log'.map Constraint.request, request.2.1 ≤ position := by
    rw [requests, List.forall_mem_append, List.forall_mem_map]
    exact ⟨earlier, fun request mem => (here request mem).le⟩
  refine ⟨log', co', ?_, List.forall_mem_map.1 all⟩
  have sorted : (log'.map Constraint.request).Pairwise fun x y => x.2.1 ≤ y.2.1 := by
    rw [requests, List.pairwise_append, List.pairwise_map]
    refine ⟨ordered, List.pairwise_of_forall_mem_list ?_, ?_⟩
    · intro x memx y memy
      rw [here x memx, here y memy]
    · intro x memx y memy
      obtain ⟨c, mem, rfl⟩ := List.mem_map.1 memx
      rw [here y memy]
      exact earlier c mem
  rw [List.pairwise_map] at sorted
  exact sorted

end Arena

/-- What is collected from a trace is evidence of its operations. -/
lemma ArenaM.collect_admitted {admits : Nat → Fact → Prop} {memory : MemoryMap} {t : Trace}
    {s : Collection} {a : Arena} {log : List Constraint}
    (admitted : ∀ op ∈ t.operations, CollectM.Admitted admits op)
    (collected : ArenaM.collect memory t .empty = .ok s a) (co : a.Coherent log) :
    ∀ c ∈ log, admits c.position c.fact := by
  obtain ⟨calls, within, e⟩ := ArenaM.collect_byCalls memory admitted .empty
  have e : a = Arena.empty.afterAll calls := by
    rw [collected] at e
    exact e
  obtain ⟨log', co', requests⟩ := Arena.empty_coherent.afterAll_requests fun mem => within _ mem
  rw [← e] at co'
  rw [co.log_unique co']
  have here := Arena.accepted_within (a := .empty) within
  rw [List.map_nil, List.nil_append] at requests
  rw [← requests, List.forall_mem_map] at here
  exact here

/-- Operations at ascending positions are collected in their order. -/
lemma CollectM.walk_chronological {memory : MemoryMap} {operations : List Operation}
    {s s' : Collection} {log : List Constraint}
    (ran : operations.forM (operation memory) s = .ok () s')
    (ascending : operations.Pairwise fun p q => p.position ≤ q.position)
    (co : s.arena.Coherent log) (ordered : Chronological log)
    (earlier : ∀ op ∈ operations, ∀ c ∈ log, c.position ≤ op.position) :
    ∃ log', s'.arena.Coherent log' ∧ Chronological log' := by
  induction operations generalizing s log with
  | nil =>
    cases ran
    exact ⟨log, co, ordered⟩
  | cons op operations ih =>
    rw [List.pairwise_cons] at ascending
    rw [List.forall_mem_cons] at earlier
    obtain ⟨_, m, first, rest⟩ := bind_eq_ok.1 ran
    obtain ⟨calls, within, e⟩ := @operation_byCalls (fun place _ => place = op.position) memory op
      ⟨fun _ _ => rfl, fun _ _ _ => rfl⟩ s
    rw [first] at e
    obtain ⟨log', co', ordered', latest⟩ := co.chronological_afterAll ordered earlier.1 within
    rw [← e] at co'
    refine ih rest ascending.2 co' ordered' fun later mem c logged => ?_
    exact (latest c logged).trans (ascending.1 later mem)

namespace Trace

/-- Ingested operations stand at ascending positions. -/
lemma Ingests.ascending {records : List TraceRecord} {operations : List Operation}
    (ing : Ingests records operations) :
    operations.Pairwise fun p q => p.position ≤ q.position := by
  have position : ∀ i (lt : i < operations.length), operations[i].position = i := by
    intro i lt
    have split : operations = operations.take i ++ operations[i] :: operations.drop (i + 1) := by
      rw [List.getElem_cons_drop, List.take_append_drop]
    rw [ing.position split, List.length_take, Nat.min_eq_left lt.le]
  rw [List.pairwise_iff_getElem]
  intro i j lti ltj lt
  rw [position i lti, position j ltj]
  exact lt.le

/-- What is collected from an ingested trace is in the order of the trace. -/
lemma collect_chronological {records : List TraceRecord} {t : Trace} {memory : MemoryMap}
    {s : Collection} {a : Arena} {log : List Constraint} (ingested : ingest records = .ok t)
    (collected : ArenaM.collect memory t .empty = .ok s a) (co : a.Coherent log) :
    Chronological log := by
  rw [ArenaM.collect] at collected
  cases walked : CollectM.trace memory t (.start .empty) with
  | error e s =>
    rw [walked] at collected
    cases collected
  | ok r s =>
    rw [walked] at collected
    cases collected
    obtain ⟨log', co', ordered⟩ := CollectM.walk_chronological walked
      (ingests_of_ingest ingested).ascending Arena.empty_coherent .nil (by simp)
    rw [co.log_unique co']
    exact ordered

end Trace

end TypeRecovery
