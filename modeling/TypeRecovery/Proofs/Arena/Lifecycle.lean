import TypeRecovery.Proofs.Arena.Calls

/-!
# The life of a class

The state of a class, its constraints and its verdict are parts of one record that calls change one
by one. A state is always backed by what it promises: a resolved class has a verdict, a constrained
one has constraints. The reverse has one exception. A merge voids the verdict of the survivor, but
evidence that a class gets after its verdict leaves the verdict standing, though the class counts as
constrained again. `faithful_or_reopened` says so of every sequence of calls.
-/

namespace TypeRecovery

namespace ClassRecord

/-- What the state of a class promises is there. -/
structure Backed (record : ClassRecord) : Prop where
  unresolved : record.state = .unresolved → record.constraints = [] ∧ record.dataType = none
  constrained : record.state = .constrained → record.constraints ≠ []
  resolved : record.state = .resolved → record.dataType ≠ none

/-- What the state of a class promises is there, and no verdict while there is only evidence. -/
structure Faithful (record : ClassRecord) : Prop extends record.Backed where
  open_ : record.state = .constrained → record.dataType = none

/-- A new class is faithful: there is nothing in it, and it promises nothing. -/
lemma faithful_singleton (i : Nat) : (singleton i).Faithful := by
  refine ⟨⟨?_, ?_, ?_⟩, ?_⟩
  · exact fun _ => ⟨rfl, rfl⟩
  all_goals
    intro state
    cases state

/-- The survivor of a merge has no verdict, whatever the merged classes had. -/
lemma faithful_takeOver (kept gone : ClassRecord) : (kept.takeOver gone).Faithful := by
  have verdict : (kept.takeOver gone).dataType = none := rfl
  have state : (kept.takeOver gone).state =
      if (kept.takeOver gone).constraints.isEmpty then .unresolved else .constrained := rfl
  refine ⟨⟨?_, ?_, ?_⟩, fun _ => verdict⟩
  all_goals
    rw [state]
    cases h : (kept.takeOver gone).constraints <;> simp [verdict]

/-- A class that gets a constraint has what it promises. -/
lemma backed_addConstraint (record : ClassRecord) (c : Constraint) :
    (record.addConstraint c).Backed := by
  refine ⟨?_, ?_, ?_⟩
  · intro state
    cases state
  · intro _
    exact List.append_ne_nil_of_right_ne_nil _ (List.cons_ne_nil _ _)
  · intro state
    cases state

/-- A class that gets a verdict is faithful. -/
lemma faithful_setType (record : ClassRecord) (t : DataType) : (record.setType t).Faithful := by
  refine ⟨⟨?_, ?_, ?_⟩, ?_⟩
  case refine_3 => exact fun _ => Option.some_ne_none t
  all_goals
    intro state
    cases state

/-- A finalized class is bound by none of this. -/
lemma faithful_finalize (record : ClassRecord) : record.finalize.Faithful := by
  refine ⟨⟨?_, ?_, ?_⟩, ?_⟩
  all_goals
    intro state
    cases state

end ClassRecord

/-- The call adds evidence to the class `c`, which has the verdict `t` by then. -/
def Call.Reopens (a : Arena) (c : ClassId) (t : DataType) (call : Call) : Prop :=
  ∃ v position fact b, call = .constrain v position fact ∧
    ArenaM.constrain v position fact a = .ok () b ∧
    ∃ record, a.classFor? v = some record ∧ record.id = c ∧ record.dataType = some t

namespace Arena

/-- Where a class that is live after a call comes from. -/
inductive Origin (a : Arena) (call : Call) : ClassRecord → Prop
  | kept {record} : record ∈ a.liveClasses → Origin a call record
  | fresh {i} : Origin a call (.singleton i)
  | survivor {kept gone} : Origin a call (ClassRecord.takeOver kept gone)
  | constrained {record v position fact b c} : call = .constrain v position fact →
    ArenaM.constrain v position fact a = .ok () b → a.classFor? v = some record →
    Origin a call (record.addConstraint c)
  | judged {record t} : Origin a call (ClassRecord.setType record t)
  | frozen {record} : Origin a call (ClassRecord.finalize record)

variable {a b : Arena} {log : List Constraint} {call : Call}

/-- The class of a variable is the live one that leads it. -/
lemma Coherent.classFor?_eq_some (co : a.Coherent log) {v : VarId} {record : ClassRecord} :
    a.classFor? v = some record ↔
      v.index < a.size ∧ record ∈ a.liveClasses ∧
        a.forest.leaderOf v.index = record.id.index := by
  rw [classFor?, Option.bind_eq_some_iff, co.mem_liveClasses]
  constructor
  · rintro ⟨c, holds, found⟩
    obtain ⟨lt, leads⟩ := co.classOf?_eq_some.1 holds
    have id : record.id = c := (co.records found).id
    subst id
    refine ⟨lt, ⟨found, ?_⟩, leads⟩
    rw [← leads, co.forest.leaderOf_leaderOf]
  · rintro ⟨lt, ⟨found, _⟩, leads⟩
    exact ⟨record.id, co.classOf?_eq_some.2 ⟨lt, leads⟩, found⟩

/-- What is live after a call was live before it, or comes from one change of what was. -/
lemma Effect.origin (eff : a.Effect call b) (co : a.Coherent log) {record : ClassRecord}
    (mem : record ∈ b.liveClasses) : a.Origin call record := by
  have co' := eff.coherent co
  cases eff with
  | compresses _ cp =>
    rw [cp.liveClasses] at mem
    exact .kept mem
  | allocates =>
    rcases mem_liveClasses_addVariable.1 mem with mem | rfl
    · exact .kept mem
    · exact .fresh
  | merges _ _ _ mg =>
    rcases (mg.mem_liveClasses co).1 mem with ⟨_, _, _, _, _, _, rfl⟩ | ⟨mem, _⟩
    · exact .survivor
    · exact .kept mem
  | constrains lt _ e run =>
    subst e
    obtain ⟨old, was, rfl⟩ := (co.mem_liveClasses_withConstraint co').1 mem
    split
    · rename_i leads
      exact .constrained rfl run (co.classFor?_eq_some.2 ⟨lt, was, leads⟩)
    · exact .kept was
  | judges _ cp =>
    obtain ⟨old, was, rfl⟩ := (cp.mem_liveClasses_setType co).1 mem
    split
    · exact .judged
    · exact .kept was
  | finalizes cp =>
    obtain ⟨old, was, rfl⟩ := (cp.mem_liveClasses_finalize co).1 mem
    split
    · exact .frozen
    · exact .kept was
  | finalizesAll =>
    obtain ⟨old, was, rfl⟩ := mem_liveClasses_finalizeAll.1 mem
    exact .frozen
  | resets => simp [liveClasses, empty] at mem

/-- A call leaves the states of all classes backed. -/
lemma Coherent.backed_after (co : a.Coherent log) (call : Call)
    (each : ∀ record ∈ a.liveClasses, record.Backed) :
    ∀ record ∈ (call.after a).liveClasses, record.Backed := by
  intro record mem
  cases (co.effect call).origin co mem with
  | kept was => exact each record was
  | fresh => exact (ClassRecord.faithful_singleton _).toBacked
  | survivor => exact (ClassRecord.faithful_takeOver _ _).toBacked
  | constrained _ _ _ => exact ClassRecord.backed_addConstraint _ _
  | judged => exact (ClassRecord.faithful_setType _ _).toBacked
  | frozen => exact (ClassRecord.faithful_finalize _).toBacked

/-- A class that is live after a call is faithful if it was so before, unless it was reopened. -/
lemma Coherent.faithful_after (co : a.Coherent log) {record : ClassRecord}
    (mem : record ∈ (call.after a).liveClasses) :
    record ∈ a.liveClasses ∨ record.Faithful ∨
      ∃ t, call.Reopens a record.id t ∧ record.dataType = some t := by
  cases (co.effect call).origin co mem with
  | kept was => exact .inl was
  | fresh => exact .inr (.inl (ClassRecord.faithful_singleton _))
  | survivor => exact .inr (.inl (ClassRecord.faithful_takeOver _ _))
  | @constrained old v position fact b c e run holds =>
    cases verdict : old.dataType with
    | none => exact .inr (.inl ⟨ClassRecord.backed_addConstraint _ _, fun _ => verdict⟩)
    | some t =>
      exact .inr (.inr ⟨t, ⟨v, position, fact, b, e, run, old, holds, rfl, verdict⟩, verdict⟩)
  | judged => exact .inr (.inl (ClassRecord.faithful_setType _ _))
  | frozen => exact .inr (.inl (ClassRecord.faithful_finalize _))

/-- A class that is reopened is not faithful. -/
lemma Coherent.not_faithful_of_reopens (co : a.Coherent log) {c : ClassId} {t : DataType}
    (re : call.Reopens a c t) :
    ∃ record ∈ (call.after a).liveClasses, record.id = c ∧ ¬ record.Faithful := by
  obtain ⟨v, position, fact, b, rfl, run, old, holds, rfl, verdict⟩ := re
  have eff := co.effect (.constrain v position fact)
  have co' := eff.coherent co
  have after : (Call.constrain v position fact).after a = b := by
    rw [Call.after, Call.perform, finalState_map, run]
    rfl
  have logged : (Call.constrain v position fact).logAfter a [] ≠ [] := by
    simp [Call.logAfter, run]
  rw [after] at eff co' ⊢
  cases eff with
  | compresses quiet _ => exact absurd (quiet []) logged
  | merges quiet _ _ _ => exact absurd (quiet []) logged
  | constrains _ _ e _ =>
    subst e
    obtain ⟨_, was, leads⟩ := co.classFor?_eq_some.1 holds
    refine ⟨_, (co.mem_liveClasses_withConstraint co').2 ⟨old, was, rfl⟩, ?_⟩
    rw [if_pos leads]
    refine ⟨rfl, fun faithful => ?_⟩
    have none := faithful.open_ rfl
    rw [show (old.addConstraint _).dataType = old.dataType from rfl, verdict] at none
    cases none

/-- Whatever is called on an empty arena, the states of its live classes are backed. They are
faithful too, save those of classes that got evidence on top of the verdict they still have; and
that evidence does make a class unfaithful. -/
theorem faithful_or_reopened (calls : List Call) :
    (∀ record ∈ (Arena.empty.afterAll calls).liveClasses, record.Backed ∧
      (record.Faithful ∨ ∃ earlier call later t, calls = earlier ++ call :: later ∧
        call.Reopens (Arena.empty.afterAll earlier) record.id t ∧ record.dataType = some t)) ∧
    ∀ (call : Call) c t, call.Reopens (Arena.empty.afterAll calls) c t →
      ∃ record ∈ (call.after (Arena.empty.afterAll calls)).liveClasses,
        record.id = c ∧ ¬ record.Faithful := by
  obtain ⟨log, co⟩ := empty_coherent.afterAll calls
  refine ⟨?_, fun _ _ _ => co.not_faithful_of_reopens⟩
  clear co
  induction calls using List.reverseRecOn with
  | nil =>
    intro record mem
    simp [afterAll, liveClasses, empty] at mem
  | append_singleton calls call ih =>
    intro record mem
    rw [afterAll_append] at mem
    obtain ⟨log, co⟩ := empty_coherent.afterAll calls
    refine ⟨co.backed_after call (fun record mem => (ih record mem).1) record mem, ?_⟩
    rcases co.faithful_after mem with was | faithful | ⟨t, re, verdict⟩
    · rcases (ih record was).2 with faithful | ⟨earlier, other, later, t, e, re, verdict⟩
      · exact .inl faithful
      · exact .inr ⟨earlier, other, later ++ [call], t, by simp [e], re, verdict⟩
    · exact .inl faithful
    · exact .inr ⟨calls, call, [], t, rfl, re, verdict⟩

/-- A verdict on a variable, and then evidence about it. -/
def reopeningCalls : List Call :=
  [.newVariable (.storage "x"), .setType ⟨0⟩ .boolean, .constrain ⟨0⟩ 0 .boolean]

/-- The class counts as constrained, and the verdict from before is still there. -/
theorem not_faithful_reopeningCalls :
    ∃ record ∈ (Arena.empty.afterAll reopeningCalls).liveClasses,
      record.state = .constrained ∧ record.dataType = some .boolean ∧ ¬ record.Faithful := by
  refine ⟨⟨⟨0⟩, [⟨0⟩], [⟨0, 0, ⟨0⟩, .boolean⟩], .constrained, some .boolean, none⟩,
    by decide +kernel, rfl, rfl, fun faithful => ?_⟩
  have none := faithful.open_ rfl
  cases none

end Arena

end TypeRecovery
