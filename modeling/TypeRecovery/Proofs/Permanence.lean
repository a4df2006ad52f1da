import TypeRecovery.Proofs.Arena.Partition
import TypeRecovery.Proofs.Procedures

/-!
# Finalized classes do not change

Every operation that could change a class checks first whether the class is finalized, under
whatever number it was asked for. `finalized_permanent` is what comes of it: once a class is
finalized, nothing short of a reset changes its record, or takes a variable out of it.
-/

namespace TypeRecovery

/-- Freezing a finalized class changes nothing. -/
lemma ClassRecord.finalize_of_finalized {record : ClassRecord}
    (frozen : record.state = .finalized) : record.finalize = record := by
  rw [ClassRecord.finalize, ← frozen]

namespace Arena

variable {a b : Arena} {log : List Constraint} {record : ClassRecord}

/-- No effect of a call other than a reset reaches a finalized class. -/
lemma Effect.keeps_finalized {call : Call} (eff : a.Effect call b) (co : a.Coherent log)
    (ne : call ≠ .reset) (live : record ∈ a.liveClasses) (frozen : record.state = .finalized) :
    record ∈ b.liveClasses := by
  have co' := eff.coherent co
  -- whatever class a call changes, it is not this one
  have apart : ∀ {c : ClassId}, a.isFinalized c = false → record.id ≠ c := by
    intro c open_ e
    have finalized := (co.isFinalized_iff live).2 frozen
    rw [e, open_] at finalized
    cases finalized
  cases eff with
  | compresses _ cp =>
    rw [cp.liveClasses]
    exact live
  | allocates =>
    apply mem_liveClasses_addVariable.2
    exact .inl live
  | merges _ open_lo open_hi mg =>
    apply (mg.mem_liveClasses co).2
    exact .inr ⟨live, apart open_lo, apart open_hi⟩
  | constrains _ open_ e _ =>
    subst e
    apply (co.mem_liveClasses_withConstraint co').2
    refine ⟨record, live, (if_neg fun leads => ?_).symm⟩
    exact apart open_ (congrArg ClassId.mk leads.symm)
  | judges open_ cp =>
    apply (cp.mem_liveClasses_setType co).2
    exact ⟨record, live, (if_neg (apart open_)).symm⟩
  | finalizes cp =>
    apply (cp.mem_liveClasses_finalize co).2
    exact ⟨record, live, by rw [ClassRecord.finalize_of_finalized frozen, ite_self]⟩
  | finalizesAll =>
    apply mem_liveClasses_finalizeAll.2
    exact ⟨record, live, (ClassRecord.finalize_of_finalized frozen).symm⟩
  | resets => exact absurd rfl ne

/-- No sequence of calls without a reset changes a finalized class. -/
lemma Coherent.keeps_finalized (co : a.Coherent log) {calls : List Call}
    (kept : Call.reset ∉ calls) (live : record ∈ a.liveClasses)
    (frozen : record.state = .finalized) : record ∈ (a.afterAll calls).liveClasses := by
  refine co.afterAll_keeps (P := fun b => record ∈ b.liveClasses) ?_ kept live
  intro a log call co ne live
  exact (co.effect call).keeps_finalized co ne live frozen

/-- A finalized class keeps its record and its members, whatever is done short of a reset, by single
calls or by longer procedures, and whether it succeeds or not. -/
theorem finalized_permanent (re : a.Reachable) (live : record ∈ a.liveClasses)
    (frozen : record.state = .finalized) {procedures : List Procedure}
    (kept : Procedure.call .reset ∉ procedures) :
    record ∈ (a.afterEach procedures).liveClasses ∧
      (a.afterEach procedures).class? record.id = some record ∧
      ∀ v ∈ record.members, (a.afterEach procedures).classOf? v = some record.id := by
  obtain ⟨log, co⟩ := re.coherent
  obtain ⟨calls, free, e⟩ := a.afterEach_byCalls kept
  obtain ⟨log', co'⟩ := co.afterAll calls
  have live' := co.keeps_finalized free live frozen
  rw [e]
  refine ⟨live', (co'.mem_liveClasses.1 live').1, fun v member => ?_⟩
  exact (co'.mem_members live' v).1 member

/-- A class that is finalized with evidence and a verdict, beside one that is not. -/
def finalizingCalls : List Call :=
  [.newVariable (.storage "p"), .newVariable (.storage "q"), .constrain ⟨1⟩ 0 .counter,
    .setType ⟨1⟩ .boolean, .finalize ⟨1⟩]

def finalizedRecord : ClassRecord :=
  ⟨⟨1⟩, [⟨1⟩], [⟨0, 0, ⟨1⟩, .counter⟩], .finalized, some .boolean, none⟩

/-- Attempts to change the class, each of which fails or leaves it alone. -/
def laterProcedures : List Procedure :=
  [.call (.union ⟨0⟩ ⟨1⟩), .call (.constrain ⟨1⟩ 1 .boolean), .call (.setType ⟨1⟩ .void),
    .call (.finalize ⟨1⟩), .close, .resolve .lp64 ⟨1⟩, .resolveAll .lp64, .emit "f" []]

/-- The class has its evidence, its verdict and its variable after all attempts. -/
theorem finalized_permanent_laterProcedures :
    Procedure.call .reset ∉ laterProcedures ∧
      let b := (Arena.empty.afterAll finalizingCalls).afterEach laterProcedures
      finalizedRecord ∈ b.liveClasses ∧ b.class? ⟨1⟩ = some finalizedRecord ∧
        b.classOf? ⟨1⟩ = some ⟨1⟩ := by
  have kept : Procedure.call .reset ∉ laterProcedures := by simp [laterProcedures]
  have live : finalizedRecord ∈ (Arena.empty.afterAll finalizingCalls).liveClasses := by
    decide +kernel
  obtain ⟨live', found, holds⟩ := finalized_permanent ⟨finalizingCalls, rfl⟩ live rfl kept
  exact ⟨kept, live', found, holds ⟨1⟩ (List.mem_singleton_self _)⟩

end Arena

end TypeRecovery
