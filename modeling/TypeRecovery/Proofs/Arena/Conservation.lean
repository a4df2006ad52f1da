import TypeRecovery.Proofs.Arena.Partition

/-!
# Constraints are conserved

Constraints move whenever classes merge, and none of them gets lost, doubled or out of order on the
way. `Conserves` says where the constraints are that an arena accepted, and the main statement is
`conserves_afterAll`: so it is after every sequence of calls, failed calls among them, in which
nothing is dropped on purpose.
-/

namespace TypeRecovery

/-- What a constraint was added with: its subject, its position and its fact. -/
def Constraint.request (c : Constraint) : VarId × Nat × Fact :=
  (c.subject, c.position, c.fact)

/-- The constraint that a call adds, if the arena accepts it. -/
def Call.accepted? (call : Call) (a : Arena) : Option (VarId × Nat × Fact) :=
  match call with
  | .constrain subject position fact =>
    match ArenaM.constrain subject position fact a with
    | .ok _ _ => some (subject, position, fact)
    | .error _ _ => none
  | _ => none

/-- A call other than a reset appends what it adds to the log. -/
lemma Call.logAfter_requests {call : Call} (ne : call ≠ .reset) (a : Arena)
    (log : List Constraint) :
    (call.logAfter a log).map Constraint.request =
      log.map Constraint.request ++ (call.accepted? a).toList := by
  cases call with
  | constrain subject position fact =>
    simp only [Call.logAfter, Call.accepted?]
    cases ArenaM.constrain subject position fact a with
    | ok _ _ => simp [Constraint.request]
    | error _ _ => simp
  | reset => exact absurd rfl ne
  | _ => exact (List.append_nil _).symm

namespace Arena

/-- The constraints that a sequence of calls adds, in order, without those that are refused. -/
def accepted (a : Arena) : List Call → List (VarId × Nat × Fact)
  | [] => []
  | call :: calls => (call.accepted? a).toList ++ accepted (call.after a) calls

/-- Constraints numbered in the order of their requests. -/
def numbered (requests : List (VarId × Nat × Fact)) : List Constraint :=
  requests.mapIdx fun seq request => ⟨request.2.1, seq, request.1, request.2.2⟩

/-- The live classes of an arena hold what was requested, each constraint where its subject is. -/
structure Conserves (a : Arena) (requests : List (VarId × Nat × Fact)) : Prop where
  /-- Every constraint is in one live class, once, as it was requested. -/
  cover : (a.liveClasses.flatMap (·.constraints)).Perm (numbered requests)
  subject : ∀ {record}, record ∈ a.liveClasses → ∀ {c}, c ∈ record.constraints →
    a.classOf? c.subject = some record.id
  ascending : ∀ {record}, record ∈ a.liveClasses →
    record.constraints.Pairwise fun c d => c.seq < d.seq
  /-- The sequence numbers in use are those below the next one. -/
  seqs : ((a.liveClasses.flatMap (·.constraints)).map Constraint.seq).Perm (List.range a.nextSeq)
  absorbed : ∀ {c record}, a.class? c = some record → record.isLive = false →
    record.constraints = []

/-- A log is determined by what its constraints were requested with. -/
lemma Coherent.log_eq {a : Arena} {log} (co : a.Coherent log) :
    log = numbered (log.map Constraint.request) := by
  apply List.ext_getElem?
  intro i
  have seq : (log.map Constraint.seq)[i]? = (List.range a.nextSeq)[i]? := by rw [co.seq]
  rw [numbered, List.getElem?_mapIdx, List.getElem?_map]
  rw [List.getElem?_map] at seq
  cases found : log[i]? with
  | none => rfl
  | some c =>
    rw [found] at seq
    obtain ⟨_, e⟩ := List.getElem?_eq_some_iff.1 seq.symm
    rw [List.getElem_range] at e
    simp [Constraint.request, e]

/-- The live classes share out the log. -/
lemma Coherent.constraints_perm {a : Arena} {log} (co : a.Coherent log) :
    (a.liveClasses.flatMap (·.constraints)).Perm log := by
  refine co.parts_perm (fun c : Constraint => c.subject.index) ?_
    (fun _ mem => co.subject_lt mem) fun record mem => (co.records_live mem).constraints
  refine co.log_ascending.imp fun lt => ?_
  rintro rfl
  exact lt.ne rfl

/-- An arena has one log. -/
lemma Coherent.log_unique {a : Arena} {log log'} (co : a.Coherent log) (co' : a.Coherent log') :
    log = log' := by
  have perm := co.constraints_perm.symm.trans co'.constraints_perm
  refine perm.eq_of_pairwise ?_ co.log_ascending co'.log_ascending
  intro x y _ _ lt lt'
  exact absurd lt lt'.asymm

/-- A class that was absorbed leads no variable, and so it holds no constraint. -/
lemma Coherent.constraints_absorbed {a : Arena} {log} (co : a.Coherent log) {c : ClassId} {record}
    (found : a.class? c = some record) (gone : record.isLive = false) :
    record.constraints = [] := by
  rw [(co.records found).constraints]
  refine List.filter_eq_nil_iff.2 fun constraint _ => ?_
  rw [decide_eq_true_eq]
  exact co.leaderOf_ne_absorbed found gone _

/-- A coherent arena holds what its log was requested with. -/
lemma Coherent.conserves {a : Arena} {log} (co : a.Coherent log) :
    a.Conserves (log.map Constraint.request) where
  cover := by
    rw [← co.log_eq]
    exact co.constraints_perm
  subject := by
    intro record mem c inside
    obtain ⟨logged, leads⟩ := (co.mem_constraints mem).1 inside
    exact co.classOf?_eq_some.2 ⟨co.subject_lt logged, leads⟩
  ascending := by
    intro record mem
    rw [(co.records_live mem).constraints]
    exact co.log_ascending.filter _
  seqs := by
    rw [← co.seq]
    exact co.constraints_perm.map _
  absorbed := co.constraints_absorbed

/-- Calls other than resets append what they add to the log. -/
lemma Coherent.afterAll_requests {a : Arena} {log} (co : a.Coherent log) {calls : List Call}
    (kept : Call.reset ∉ calls) :
    ∃ log', (a.afterAll calls).Coherent log' ∧
      log'.map Constraint.request = log.map Constraint.request ++ a.accepted calls := by
  induction calls generalizing a log with
  | nil => exact ⟨log, co, (List.append_nil _).symm⟩
  | cons call calls ih =>
    rw [List.mem_cons, not_or] at kept
    obtain ⟨log', co', e⟩ := ih (co.after call) kept.2
    refine ⟨log', co', ?_⟩
    rw [e, Call.logAfter_requests (Ne.symm kept.1), List.append_assoc]
    rfl

/-- Whatever is called on an empty arena, short of a reset, its live classes hold the constraints
that it accepted. -/
theorem conserves_afterAll {calls : List Call} (kept : Call.reset ∉ calls) :
    (Arena.empty.afterAll calls).Conserves (Arena.empty.accepted calls) := by
  obtain ⟨log, co, e⟩ := empty_coherent.afterAll_requests kept
  rw [List.map_nil, List.nil_append] at e
  rw [← e]
  exact co.conserves

/-- Constraints on two variables by turns, one on a variable that is not there, and a merge. -/
def mergedCalls : List Call :=
  [.newVariable (.storage "p"), .newVariable (.storage "q"), .constrain ⟨1⟩ 0 (.size 4),
    .constrain ⟨0⟩ 1 (.constant 4), .constrain ⟨7⟩ 2 .boolean, .constrain ⟨1⟩ 3 .counter,
    .unify ⟨1⟩ ⟨0⟩]

/-- The survivor holds three constraints, and the fourth was refused. -/
theorem conserves_mergedCalls :
    Call.reset ∉ mergedCalls ∧
      Arena.empty.accepted mergedCalls =
        [(⟨1⟩, 0, .size 4), (⟨0⟩, 1, .constant 4), (⟨1⟩, 3, .counter)] ∧
      (Arena.empty.afterAll mergedCalls).Conserves (Arena.empty.accepted mergedCalls) := by
  have kept : Call.reset ∉ mergedCalls := by simp [mergedCalls]
  exact ⟨kept, by decide +kernel, conserves_afterAll kept⟩

end Arena

end TypeRecovery
