import TypeRecovery.Proofs.Arena.Operations

/-!
# Sequences of calls

The operations on the arena as data, so that a statement can be about every sequence of them. Calls
may fail, and the sequence goes on after that. `Effect` lists what a call can do, and what is said
of all calls is read off that list. `Coherent.after` is the first invariant: no call, whether it
succeeds or not, makes a coherent arena incoherent. So `Reachable.coherent`: every arena that calls
make of an empty one is coherent.
-/

namespace TypeRecovery

section
variable {ε σ α β : Type}

/-- The state in which a step ends, whether it succeeds or not. -/
def finalState : EStateM.Result ε σ α → σ
  | .ok _ s => s
  | .error _ s => s

/-- A step that is relabelled ends in the state in which it ended before. -/
@[simp] lemma finalState_map (f : α → β) (x : EStateM ε σ α) (s : σ) :
    finalState ((f <$> x) s) = finalState (x s) := by
  simp only [Functor.map, EStateM.map]
  cases x s <;> rfl

end

/-- An operation on the arena with its arguments. -/
inductive Call where
  | newVariable (site : UseSite)
  | find (c : ClassId)
  | union (x y : ClassId)
  | unify (x y : VarId)
  | constrain (subject : VarId) (position : Nat) (fact : Fact)
  | setType (c : ClassId) (t : DataType)
  | finalize (c : ClassId)
  | finalizeAll
  | reset

/-- What an operation on the arena answers. -/
inductive Reply where
  | newVar (v : VarId)
  | found (c : ClassId)
  | done
  deriving DecidableEq

namespace Call

/-- Perform a call. -/
def perform : Call → ArenaM Reply
  | .newVariable site => .newVar <$> ArenaM.newVariable site
  | .find c => .found <$> ArenaM.find c
  | .union x y => .found <$> ArenaM.union x y
  | .unify x y => .found <$> ArenaM.unify x y
  | .constrain subject position fact => (fun _ => .done) <$> ArenaM.constrain subject position fact
  | .setType c t => (fun _ => .done) <$> ArenaM.setType c t
  | .finalize c => (fun _ => .done) <$> ArenaM.finalize c
  | .finalizeAll => (fun _ => .done) <$> ArenaM.finalizeAll
  | .reset => (fun _ => .done) <$> ArenaM.reset

/-- The arena after a call, whether it succeeds or not. -/
def after (call : Call) (a : Arena) : Arena :=
  finalState (call.perform a)

/-- The log of constraints after a call: one that was accepted is appended, a reset empties it. -/
def logAfter (call : Call) (a : Arena) (log : List Constraint) : List Constraint :=
  match call with
  | .constrain subject position fact =>
    match ArenaM.constrain subject position fact a with
    | .ok _ _ => log ++ [⟨position, a.nextSeq, subject, fact⟩]
    | .error _ _ => log
  | .reset => []
  | _ => log

end Call

namespace Arena

/-- The arena that a sequence of calls makes of another one. -/
def afterAll (a : Arena) (calls : List Call) : Arena :=
  calls.foldl (fun b call => call.after b) a

/-- The arenas that calls can make of an empty one. -/
def Reachable (a : Arena) : Prop :=
  ∃ calls, Arena.empty.afterAll calls = a

/-- A merge that was tried leaves a coherent arena. -/
lemma Coherent.unionOutcome {a : Arena} {log i j res} (co : a.Coherent log)
    (out : ArenaM.UnionOutcome a i j res) : (finalState res).Coherent log := by
  cases out with
  | same _ cp => exact cp.coherent co
  | finalized _ _ cp => exact cp.coherent co
  | merged _ _ _ _ _ mg => exact mg.coherent co

/-- What a call can make of an arena. One that fails, or finds nothing to do, at most shortens
paths. -/
inductive Effect (a : Arena) : Call → Arena → Prop
  | compresses {call b} : (∀ log, call.logAfter a log = log) → a.Compresses b → Effect a call b
  | allocates {site} : Effect a (.newVariable site) (a.addVariable site)
  | merges {call b lo hi} : (∀ log, call.logAfter a log = log) →
    a.isFinalized ⟨lo⟩ = false → a.isFinalized ⟨hi⟩ = false → a.Merges b lo hi → Effect a call b
  | constrains {v position fact evidence b} : v.index < a.size →
    a.isFinalized ⟨a.forest.leaderOf v.index⟩ = false →
    b = a.withConstraint (ArenaM.storeWith a v evidence) ⟨position, a.nextSeq, v, fact⟩ →
    ArenaM.constrain v position fact a = .ok () b → Effect a (.constrain v position fact) b
  | judges {c t b} : a.isFinalized ⟨a.forest.leaderOf c.index⟩ = false → a.Compresses b →
    Effect a (.setType c t) (b.modifyClass ⟨a.forest.leaderOf c.index⟩ (·.setType t))
  | finalizes {c b} : a.Compresses b →
    Effect a (.finalize c) (b.modifyClass ⟨a.forest.leaderOf c.index⟩ (·.finalize))
  | finalizesAll : Effect a .finalizeAll a.finalizeAll
  | resets : Effect a .reset .empty

section
variable {a : Arena} {log : List Constraint}

/-- A merge that was tried shortens paths or merges two classes that are not finalized. -/
lemma effect_of_unionOutcome {call : Call} {i j : Nat} {res}
    (quiet : ∀ log, call.logAfter a log = log) (out : ArenaM.UnionOutcome a i j res) :
    a.Effect call (finalState res) := by
  cases out with
  | same _ cp => exact .compresses quiet cp
  | finalized _ _ cp => exact .compresses quiet cp
  | merged _ open_i open_j lo hi mg =>
    refine .merges quiet ?_ ?_ mg
    · rcases min_choice (a.forest.leaderOf i) (a.forest.leaderOf j) with e | e <;> rwa [lo, e]
    · rcases max_choice (a.forest.leaderOf i) (a.forest.leaderOf j) with e | e <;> rwa [hi, e]

/-- The effect of a merge of classes. -/
lemma Coherent.effect_union (co : a.Coherent log) (x y : ClassId) :
    a.Effect (.union x y) (finalState (ArenaM.union x y a)) := by
  have quiet : ∀ log, (Call.union x y).logAfter a log = log := fun _ => rfl
  by_cases beyond : a.size ≤ x.index ∨ a.size ≤ y.index
  · rw [ArenaM.union_of_size_le co beyond]
    exact .compresses quiet (.refl co.forest.toRanked)
  · rw [not_or, Nat.not_le, Nat.not_le] at beyond
    exact effect_of_unionOutcome quiet (ArenaM.union_of_lt co beyond.1 beyond.2)

/-- The effect of a merge of the classes of variables. -/
lemma Coherent.effect_unify (co : a.Coherent log) (x y : VarId) :
    a.Effect (.unify x y) (finalState (ArenaM.unify x y a)) := by
  have quiet : ∀ log, (Call.unify x y).logAfter a log = log := fun _ => rfl
  by_cases beyond : a.size ≤ x.index ∨ a.size ≤ y.index
  · rw [ArenaM.unify_of_size_le beyond]
    exact .compresses quiet (.refl co.forest.toRanked)
  · rw [not_or, Nat.not_le, Nat.not_le] at beyond
    exact effect_of_unionOutcome quiet (ArenaM.unify_of_lt co beyond.1 beyond.2)

/-- A constraint that is refused is not logged. -/
lemma Coherent.effect_constrain (co : a.Coherent log) (v : VarId) (position : Nat) (fact : Fact) :
    a.Effect (.constrain v position fact) (finalState (ArenaM.constrain v position fact a)) := by
  have refused : ∀ {e}, ArenaM.constrain v position fact a = .error e a →
      a.Effect (.constrain v position fact) a := by
    intro e run
    refine .compresses (fun log => ?_) (.refl co.forest.toRanked)
    simp only [Call.logAfter, run]
  rcases Nat.lt_or_ge v.index a.size with lt | ge
  · have out := ArenaM.constrain_of_lt co position fact lt
    generalize run : ArenaM.constrain v position fact a = res at out
    cases out with
    | finalized _ => exact refused run
    | unallocated _ _ => exact refused run
    | added open_ _ => exact .constrains lt open_ rfl run
  · have run : ArenaM.constrain v position fact a = .error (.unknownVariable v) a :=
      ArenaM.constrain_of_size_le ge
    rw [run]
    exact refused run

/-- The effect of a verdict. -/
lemma Coherent.effect_setType (co : a.Coherent log) (c : ClassId) (t : DataType) :
    a.Effect (.setType c t) (finalState (ArenaM.setType c t a)) := by
  have quiet : ∀ log, (Call.setType c t).logAfter a log = log := fun _ => rfl
  rcases Nat.lt_or_ge c.index a.size with lt | ge
  · obtain ⟨b, cp, run⟩ := ArenaM.setType_of_lt co t lt
    rw [run]
    split
    · exact .compresses quiet cp
    · rename_i open_
      rw [Bool.not_eq_true] at open_
      exact .judges open_ cp
  · rw [ArenaM.setType_of_size_le co ge]
    exact .compresses quiet (.refl co.forest.toRanked)

/-- The effect of freezing a class. -/
lemma Coherent.effect_finalize (co : a.Coherent log) (c : ClassId) :
    a.Effect (.finalize c) (finalState (ArenaM.finalize c a)) := by
  rcases Nat.lt_or_ge c.index a.size with lt | ge
  · obtain ⟨b, cp, run⟩ := ArenaM.finalize_of_lt co lt
    rw [run]
    exact .finalizes cp
  · rw [ArenaM.finalize_of_size_le co ge]
    exact .compresses (fun _ => rfl) (.refl co.forest.toRanked)

/-- A search shortens paths at most. -/
lemma Coherent.effect_find (co : a.Coherent log) (c : ClassId) :
    a.Effect (.find c) (finalState (ArenaM.find c a)) := by
  rcases Nat.lt_or_ge c.index a.size with lt | ge
  · obtain ⟨b, cp, run⟩ := ArenaM.find_of_lt co lt
    rw [run]
    exact .compresses (fun _ => rfl) cp
  · rw [ArenaM.find_of_size_le (co.forest_size ▸ ge)]
    exact .compresses (fun _ => rfl) (.refl co.forest.toRanked)

/-- Every call has one of the listed effects. -/
lemma Coherent.effect (co : a.Coherent log) (call : Call) : a.Effect call (call.after a) := by
  cases call with
  | newVariable site => exact .allocates
  | find c =>
    rw [Call.after, Call.perform, finalState_map]
    exact co.effect_find c
  | union x y =>
    rw [Call.after, Call.perform, finalState_map]
    exact co.effect_union x y
  | unify x y =>
    rw [Call.after, Call.perform, finalState_map]
    exact co.effect_unify x y
  | constrain subject position fact =>
    rw [Call.after, Call.perform, finalState_map]
    exact co.effect_constrain subject position fact
  | setType c t =>
    rw [Call.after, Call.perform, finalState_map]
    exact co.effect_setType c t
  | finalize c =>
    rw [Call.after, Call.perform, finalState_map]
    exact co.effect_finalize c
  | finalizeAll => exact .finalizesAll
  | reset => exact .resets

/-- A record of which only the verdict changes. -/
lemma Coherent.modifyClass (co : a.Coherent log) (c : ClassId) {f : ClassRecord → ClassRecord}
    (keeps : ∀ r, (f r).id = r.id ∧ (f r).members = r.members ∧
      (f r).constraints = r.constraints ∧ (f r).absorbedInto = r.absorbedInto) :
    (a.modifyClass c f).Coherent log :=
  (Retouches.modifyClass co.forest.toRanked c keeps).coherent co

/-- The live classes after paths were shortened and the verdict on a class was changed. -/
lemma Compresses.mem_liveClasses_modifyClass {b : Arena} (cp : a.Compresses b)
    (co : a.Coherent log) {c : ClassId} {f : ClassRecord → ClassRecord}
    (keeps : ∀ r, (f r).id = r.id ∧ (f r).members = r.members ∧
      (f r).constraints = r.constraints ∧ (f r).absorbedInto = r.absorbedInto)
    {record : ClassRecord} :
    record ∈ (b.modifyClass c f).liveClasses ↔
      ∃ old ∈ a.liveClasses, record = if old.id = c then f old else old := by
  have coB := cp.coherent co
  rw [coB.mem_liveClasses_modifyClass (coB.modifyClass c keeps) fun r => (keeps r).1,
    cp.liveClasses]

/-- The live classes after a verdict. -/
lemma Compresses.mem_liveClasses_setType {b : Arena} (cp : a.Compresses b) (co : a.Coherent log)
    {c : ClassId} {t : DataType} {record : ClassRecord} :
    record ∈ (b.modifyClass c (·.setType t)).liveClasses ↔
      ∃ old ∈ a.liveClasses, record = if old.id = c then old.setType t else old := by
  apply cp.mem_liveClasses_modifyClass co
  exact fun _ => ⟨rfl, rfl, rfl, rfl⟩

/-- The live classes after one of them was frozen. -/
lemma Compresses.mem_liveClasses_finalize {b : Arena} (cp : a.Compresses b) (co : a.Coherent log)
    {c : ClassId} {record : ClassRecord} :
    record ∈ (b.modifyClass c (·.finalize)).liveClasses ↔
      ∃ old ∈ a.liveClasses, record = if old.id = c then old.finalize else old := by
  apply cp.mem_liveClasses_modifyClass co
  exact fun _ => ⟨rfl, rfl, rfl, rfl⟩

/-- No effect makes a coherent arena incoherent. -/
lemma Effect.coherent {call : Call} {b : Arena} (eff : a.Effect call b) (co : a.Coherent log) :
    b.Coherent (call.logAfter a log) := by
  cases eff with
  | compresses quiet cp =>
    rw [quiet]
    exact cp.coherent co
  | allocates => exact co.addVariable _
  | merges quiet _ _ mg =>
    rw [quiet]
    exact mg.coherent co
  | constrains lt _ e run =>
    subst e
    simp only [Call.logAfter, run]
    exact co.withConstraint (ArenaM.size_storeWith _ _ _) rfl lt
  | judges _ cp => exact (cp.coherent co).modifyClass _ fun _ => ⟨rfl, rfl, rfl, rfl⟩
  | finalizes cp => exact (cp.coherent co).modifyClass _ fun _ => ⟨rfl, rfl, rfl, rfl⟩
  | finalizesAll => exact (Retouches.finalizeAll co.forest.toRanked).coherent co
  | resets => exact empty_coherent

/-- No call makes a coherent arena incoherent. -/
lemma Coherent.after (co : a.Coherent log) (call : Call) :
    (call.after a).Coherent (call.logAfter a log) :=
  (co.effect call).coherent co

end

/-- Calls after other calls are one sequence. -/
lemma afterAll_append (a : Arena) (calls more : List Call) :
    a.afterAll (calls ++ more) = (a.afterAll calls).afterAll more :=
  List.foldl_append

/-- A sequence of calls leaves a coherent arena. -/
lemma Coherent.afterAll {a : Arena} {log} (co : a.Coherent log) (calls : List Call) :
    ∃ log', (a.afterAll calls).Coherent log' := by
  induction calls generalizing a log with
  | nil => exact ⟨log, co⟩
  | cons call calls ih => exact ih (co.after call)

/-- Every arena that calls make of an empty one is coherent. -/
lemma Reachable.coherent {a : Arena} (re : a.Reachable) : ∃ log, a.Coherent log := by
  obtain ⟨calls, rfl⟩ := re
  exact empty_coherent.afterAll calls

/-- What holds of an empty arena and is kept by every call holds of every arena that calls can
make. -/
lemma Reachable.induction {P : Arena → Prop} {a : Arena} (re : a.Reachable) (start : P .empty)
    (step : ∀ {a log} (call : Call), a.Coherent log → P a → P (call.after a)) : P a := by
  obtain ⟨calls, rfl⟩ := re
  induction calls using List.reverseRecOn with
  | nil => exact start
  | append_singleton calls call ih =>
    obtain ⟨log, co⟩ := empty_coherent.afterAll calls
    rw [afterAll_append]
    exact step call co ih

/-- What is kept by every call other than a reset is kept by every sequence of them. -/
lemma Coherent.afterAll_keeps {P : Arena → Prop}
    (step : ∀ {a log} {call : Call}, a.Coherent log → call ≠ .reset → P a → P (call.after a))
    {a : Arena} {log} (co : a.Coherent log) {calls : List Call} (kept : Call.reset ∉ calls)
    (holds : P a) : P (a.afterAll calls) := by
  induction calls generalizing a log with
  | nil => exact holds
  | cons call calls ih =>
    rw [List.mem_cons, not_or] at kept
    exact ih (co.after call) kept.2 (step co (Ne.symm kept.1) holds)

end Arena

/-! ## Runs of fixed calls

Lists are merged by well-founded recursion, so the state of a class that took over another one is not
found by evaluation. It is known all the same if neither class has constraints. -/

/-- The class as it is without constraints. -/
def ClassRecord.unconstrained (c : ClassRecord) : ClassRecord :=
  { c with constraints := [], state := .unresolved }

/-- A class that took over another one is without constraints if both were. -/
lemma Arena.modifyClass_unconstrained {a : Arena} {id : ClassId} (c other : ClassRecord)
    (found : a.class? id = some (c.takeOver other)) (bare : c.constraints = [])
    (bare' : other.constraints = []) : a.modifyClass id (·.unconstrained) = a := by
  obtain ⟨lt, record⟩ := Array.getElem?_eq_some_iff.1 found
  have same : a.classes.modify id.index (·.unconstrained) = a.classes := by
    refine Array.ext (by simp) fun i _ _ => ?_
    rw [Array.getElem_modify]
    split
    · rename_i here
      subst here
      simp [record, ClassRecord.unconstrained, ClassRecord.takeOver, bare, bare']
    · rfl
  rw [modifyClass, same]

end TypeRecovery
