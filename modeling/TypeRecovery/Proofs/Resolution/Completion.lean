import TypeRecovery.Proofs.Arena.Lifecycle
import TypeRecovery.Proofs.Resolution.Run

/-!
# Resolving all classes

Classes that are resolved one after the other have verdicts in the end (`RunsEach.settled`), with or
without cycles between them. So resolving all live classes succeeds, and touches nothing but the
verdicts of classes that had none (`resolveAll_completes`).
-/

namespace TypeRecovery

namespace ResolveM

open Arena

/-- Resolving classes one after the other. -/
inductive RunsEach (config : Config) : List ClassId → Resolution → Resolution → Prop
  | nil {s} : RunsEach config [] s s
  | cons {c cs s t m s'} : Runs config [] (.resolve c) s t m → RunsEach config cs m s' →
    RunsEach config (c :: cs) s s'

section
variable {config : Config} {cs : List ClassId} {s s' s'' : Resolution} {a : Arena}
  {log : List Constraint}

/-- Resolving classes one after the other has one result. -/
lemma RunsEach.unique (runs : RunsEach config cs s s') (other : RunsEach config cs s s'') :
    s' = s'' := by
  induction runs generalizing s'' with
  | nil =>
    cases other
    rfl
  | cons run _ ih =>
    cases other with
    | cons run' rest =>
      obtain ⟨rfl, rfl⟩ := run.unique run'
      exact ih rest

/-- Resolving classes one after the other changes nothing but verdicts. -/
lemma RunsEach.judges (runs : RunsEach config cs s s') (co : s.arena.Coherent log) :
    s.arena.Judges s'.arena := by
  induction runs with
  | nil => exact .refl co
  | cons run _ ih =>
    have first := run.judges co
    exact first.trans (ih (first.retouches.coherent co))

/-- Every class that is resolved on the way has a verdict in the end. -/
lemma RunsEach.settled (runs : RunsEach config cs s s') (co : s.arena.Coherent log) :
    ∀ c ∈ cs, ∃ t, Settled s' c t := by
  induction runs with
  | nil => simp
  | cons run rest ih =>
    have com := (run.judges co).retouches.coherent co
    rw [List.forall_mem_cons]
    exact ⟨⟨_, (run.settled co).judges (rest.judges com)⟩, ih com⟩

/-- Steps that run classes run lists of them. -/
lemma forM_runs {step : ClassId → ResolveM DataType} (co : a.Coherent log)
    (each : ∀ c ∈ a.liveIds, ∀ s : Resolution, a.Judges s.arena →
      ∃ t s', step c s = .ok t s' ∧ Runs config [] (.resolve c) s t s')
    (live : ∀ c ∈ cs, c ∈ a.liveIds) (ju : a.Judges s.arena) :
    ∃ s', (cs.forM fun c => do let _ ← step c : ResolveM Unit) s = .ok () s' ∧
      RunsEach config cs s s' := by
  induction cs generalizing s with
  | nil => exact ⟨s, rfl, .nil⟩
  | cons c cs ih =>
    rw [List.forall_mem_cons] at live
    obtain ⟨t, m, ran, run⟩ := each c live.1 s ju
    obtain ⟨s', rest, runs⟩ := ih live.2 (ju.trans (run.judges (ju.retouches.coherent co)))
    have first : (do let _ ← step c : ResolveM Unit) s = .ok () m := by
      rw [bind_of_ok ran]
      rfl
    exact ⟨s', (bind_of_ok first).trans rest, .cons run runs⟩

/-- There are no more live classes than classes. -/
lemma length_liveIds_le (a : Arena) : a.liveIds.length ≤ a.classes.size := by
  rw [liveIds, List.length_map, liveClasses, ← Array.length_toList]
  exact List.length_filter_le _ _

/-- Any bound that is at least the number of classes serves. -/
lemma resolveWithin_runs_alone (config : Config) (co : a.Coherent log) (res : a.Resolvable)
    {depth : Nat} (enough : a.classes.size ≤ depth) {c : ClassId} (live : c ∈ a.liveIds)
    (ju : a.Judges s.arena) :
    ∃ t s', resolveWithin config depth [] c s = .ok t s' ∧
      Runs config [] (.resolve c) s t s' := by
  apply resolveWithin_runs co res live (List.nodup_singleton c) (List.nil_subset _) _ ju
  exact (length_liveIds_le a).trans (enough.trans (Nat.le_add_left _ _))

/-- Live classes are resolved one after the other within any bound that is at least the number of
classes. -/
lemma resolveEachWithin_runs (config : Config) (co : a.Coherent log) (res : a.Resolvable)
    {depth : Nat} (enough : a.classes.size ≤ depth) (live : ∀ c ∈ cs, c ∈ a.liveIds)
    (ju : a.Judges s.arena) :
    ∃ s', (cs.forM fun c => do let _ ← resolveWithin config depth [] c : ResolveM Unit) s =
      .ok () s' ∧ RunsEach config cs s s' := by
  apply forM_runs co _ live ju
  intro c live s ju
  exact resolveWithin_runs_alone config co res enough live ju

/-- Live classes are resolved one after the other. -/
lemma resolveEach_runs (config : Config) (co : a.Coherent log) (res : a.Resolvable)
    (live : ∀ c ∈ cs, c ∈ a.liveIds) (ju : a.Judges s.arena) :
    ∃ s', (cs.forM fun c => do let _ ← resolve config c : ResolveM Unit) s = .ok () s' ∧
      RunsEach config cs s s' := by
  apply forM_runs co _ live ju
  intro c live s ju
  rw [resolve, bind_of_ok (get_run s), ju.retouches.classes_size]
  exact resolveWithin_runs_alone config co res le_rfl live ju

/-- A class has a verdict if it is resolved or finalized and has a type. -/
lemma settled?_eq_some {record : ClassRecord} {t : DataType} :
    settled? record = some t ↔
      (record.state = .resolved ∨ record.state = .finalized) ∧ record.dataType = some t := by
  cases state : record.state <;> simp [settled?, state]

end

end ResolveM

/-- Resolving all classes gives the remarks and the arena that the resolution ends with. -/
lemma ArenaM.resolveAll_of_ok {config : Config} {a : Arena} {s : Resolution}
    (ran : (a.liveIds.forM fun c => do let _ ← ResolveM.resolve config c : ResolveM Unit)
      ⟨a, #[]⟩ = .ok () s) :
    ArenaM.resolveAll config a = .ok s.remarks.toList s.arena := by
  have resolving : ArenaM.resolving (ResolveM.resolveAll config) a =
      .ok ((), s.remarks.toList) s.arena := by
    rw [ArenaM.resolving, ResolveM.resolveAll, bind_of_ok (get_run _), ran]
  rw [ArenaM.resolveAll, bind_of_ok resolving]
  rfl

namespace Arena

/-- In an arena that calls make, the state of each live class is backed by its record. -/
lemma Reachable.backed {a : Arena} (re : a.Reachable) :
    ∀ record ∈ a.liveClasses, record.Backed := by
  refine re.induction (P := fun a => ∀ record ∈ a.liveClasses, record.Backed) ?_
    fun call co backed => co.backed_after call backed
  intro record mem
  simp [liveClasses, empty] at mem

/-- A class that has a verdict before a resolution keeps it. -/
lemma Judges.keeps_verdicts {a b : Arena} (ju : a.Judges b) (re : a.Reachable) (res : a.Resolvable)
    {c : ClassId} {old : ClassRecord} (was : a.class? c = some old)
    (judged : old.state = .resolved ∨ old.state = .finalized) : b.class? c = some old := by
  obtain ⟨log, co⟩ := re.coherent
  rcases ju.records was with same | ⟨live, blank, _⟩
  · exact same
  · -- a live class that has come to a verdict has a type
    obtain ⟨mem, _⟩ := co.live_of_isLive was live
    have typed : old.dataType ≠ none := by
      rcases judged with state | state
      · exact (re.backed old mem).resolved state
      · exact res.finalized old mem state
    obtain ⟨t, verdict⟩ := Option.ne_none_iff_exists'.1 typed
    rw [ResolveM.settled?_eq_some.2 ⟨judged, verdict⟩] at blank
    cases blank

/-- Resolving all classes of an arena succeeds, with the number of classes or any larger one as the
bound. Then every live class has a type. The variables, the classes that hold them, and what the
records of classes say apart from verdicts are as before, and so are the records of classes that
had a verdict. -/
theorem resolveAll_completes {a : Arena} (re : a.Reachable) (res : a.Resolvable)
    (config : Config) :
    ∃ remarks b, ArenaM.resolveAll config a = .ok remarks b ∧
      (∀ depth, a.classes.size ≤ depth →
        (a.liveIds.forM fun c => do let _ ← ResolveM.resolveWithin config depth [] c :
          ResolveM Unit) ⟨a, #[]⟩ = .ok () ⟨b, remarks.toArray⟩) ∧
      (∀ record ∈ b.liveClasses, record.dataType ≠ none ∧
        (record.state = .resolved ∨ record.state = .finalized)) ∧
      b.store = a.store ∧ (∀ v, b.classOf? v = a.classOf? v) ∧ b.liveIds = a.liveIds ∧
      ∀ c old, a.class? c = some old → ∃ record, b.class? c = some record ∧
        record.members = old.members ∧ record.constraints = old.constraints ∧
        record.absorbedInto = old.absorbedInto ∧
        (old.state = .resolved ∨ old.state = .finalized → record = old) := by
  obtain ⟨log, co⟩ := re.coherent
  obtain ⟨s, ran, runs⟩ := ResolveM.resolveEach_runs (s := ⟨a, #[]⟩) config co res
    (fun c live => live) (.refl co)
  have ju : a.Judges s.arena := runs.judges co
  refine ⟨s.remarks.toList, s.arena, ArenaM.resolveAll_of_ok ran, ?_, ?_, ju.retouches.store,
    ju.classOf? co, ju.retouches.liveIds co, ?_⟩
  · intro depth enough
    obtain ⟨s', ran', runs'⟩ := ResolveM.resolveEachWithin_runs (s := ⟨a, #[]⟩) config co res enough
      (fun c live => live) (.refl co)
    -- what a larger bound finds is a run as well, and there is only one
    cases runs.unique runs'
    exact ran'
  · intro record mem
    have live : record.id ∈ a.liveIds := ju.retouches.liveIds co ▸ List.mem_map_of_mem mem
    obtain ⟨t, record', found, settled⟩ := runs.settled co record.id live
    cases (((ju.retouches.coherent co).mem_liveClasses.1 mem).1).symm.trans found
    obtain ⟨judged, verdict⟩ := ResolveM.settled?_eq_some.1 settled
    exact ⟨verdict ▸ Option.some_ne_none t, judged⟩
  · intro c old was
    have keeps := ju.keeps_verdicts re res was
    rcases ju.records was with same | ⟨_, _, t, given⟩
    · exact ⟨old, same, rfl, rfl, rfl, fun _ => rfl⟩
    · refine ⟨old.setType t, given, rfl, rfl, rfl, ?_⟩
      intro judged
      exact Option.some.inj (given.symm.trans (keeps judged))

/-- Two classes that contain each other, one of which contains itself, and one that is finalized. -/
def cyclicCalls : List Call :=
  [.newVariable (.storage "p"), .newVariable (.storage "q"), .newVariable (.storage "r"),
    .constrain ⟨0⟩ 0 (.field ⟨0, 4, ⟨0⟩⟩), .constrain ⟨0⟩ 1 (.field ⟨8, 8, ⟨1⟩⟩),
    .constrain ⟨1⟩ 2 (.element ⟨0, 16, 8, ⟨0⟩⟩), .setType ⟨2⟩ .boolean, .finalize ⟨2⟩]

/-- The two classes that contain each other are resolved in spite of that, and the finalized one
stays so. -/
theorem resolveAll_completes_cyclic :
    let a := Arena.empty.afterAll cyclicCalls
    a.Resolvable ∧ a.Contains ⟨0⟩ ⟨0⟩ ∧ a.Contains ⟨0⟩ ⟨1⟩ ∧ a.Contains ⟨1⟩ ⟨0⟩ ∧
      ∃ remarks b, ArenaM.resolveAll .lp64 a = .ok remarks b ∧ b.liveIds = a.liveIds ∧
        ∀ record ∈ b.liveClasses, record.dataType ≠ none ∧
          (record.state = .resolved ∨ record.state = .finalized) := by
  have res : (Arena.empty.afterAll cyclicCalls).Resolvable := by decide +kernel
  obtain ⟨remarks, b, ran, _, typed, _, _, live, _⟩ :=
    resolveAll_completes ⟨cyclicCalls, rfl⟩ res .lp64
  refine ⟨res, ?_, ?_, ?_, remarks, b, ran, live, typed⟩
  all_goals decide +kernel

end Arena

end TypeRecovery
