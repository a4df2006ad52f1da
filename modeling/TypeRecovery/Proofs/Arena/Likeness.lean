import TypeRecovery.Proofs.Arena.Calls

/-!
# Arenas that no call tells apart

Calls shorten paths of the forest, those that fail too, and the paths decide which root a later
merge keeps. Nothing of that is ever seen. `Alike` compares arenas by all that can be looked up: the
variables, the records, the next sequence number, and the representative of each class. Alike arenas
answer every call alike and stay alike (`Alike.perform`), so they answer every sequence of calls
alike (`Alike.afterAll`), although their trees may differ in form and in rank.

An arena is alike before and after a call that fails, and before and after a search. The first gives
`failure_unnoticed`: a failed call might as well not have been made. The second gives
`searches_unnoticed`: searches may be put anywhere into a sequence of calls.
-/

namespace TypeRecovery

/-- The answer of a step, without the state it leaves behind. -/
def outcome {ε σ α : Type} : EStateM.Result ε σ α → Except ε α
  | .ok r _ => .ok r
  | .error e _ => .error e

/-- A step whose answer is an error has failed. -/
lemma eq_error_of_outcome {ε σ α : Type} {result : EStateM.Result ε σ α} {e : ε}
    (failed : outcome result = .error e) : result = .error e (finalState result) := by
  cases result with
  | ok r s => cases failed
  | error e' s =>
    cases failed
    rfl

/-- A step that is relabelled fails as it did before. -/
lemma map_eq_error {ε σ α β : Type} {f : α → β} {x : EStateM ε σ α} {s t : σ} {e : ε} :
    (f <$> x) s = .error e t ↔ x s = .error e t := by
  simp only [Functor.map, EStateM.map]
  cases x s <;> simp

namespace Arena

/-- Two arenas agree on all that can be looked up in them. -/
structure Alike (a b : Arena) : Prop where
  store : b.store = a.store
  classes : b.classes = a.classes
  nextSeq : b.nextSeq = a.nextSeq
  representative : ∀ c, b.representative? c = a.representative? c

/-- The answers to a sequence of calls; the sequence goes on after a call that fails. -/
def replies (a : Arena) : List Call → List (Except AnalysisError Reply)
  | [] => []
  | call :: calls => outcome (call.perform a) :: (call.after a).replies calls

section
variable {a b c : Arena} {log log' : List Constraint}

/-- An arena is like itself. -/
lemma Alike.refl (a : Arena) : a.Alike a :=
  ⟨rfl, rfl, rfl, fun _ => rfl⟩

/-- Likeness goes both ways. -/
lemma Alike.symm (al : a.Alike b) : b.Alike a :=
  ⟨al.store.symm, al.classes.symm, al.nextSeq.symm, fun c => (al.representative c).symm⟩

/-- Likeness carries over. -/
lemma Alike.trans (al : a.Alike b) (al' : b.Alike c) : a.Alike c :=
  ⟨al'.store.trans al.store, al'.classes.trans al.classes, al'.nextSeq.trans al.nextSeq,
    fun c => (al'.representative c).trans (al.representative c)⟩

/-- Alike arenas are of one size. -/
lemma Alike.size (al : a.Alike b) : b.size = a.size := by
  rw [Arena.size, al.store, Arena.size]

/-- Alike arenas have the same records. -/
lemma Alike.class? (al : a.Alike b) (c : ClassId) : b.class? c = a.class? c := by
  rw [Arena.class?, al.classes, Arena.class?]

/-- Alike arenas have every variable in the same class. -/
lemma Alike.classOf? (al : a.Alike b) (v : VarId) : b.classOf? v = a.classOf? v :=
  al.representative ⟨v.index⟩

/-- Alike arenas have the same classes finalized. -/
lemma Alike.isFinalized (al : a.Alike b) (c : ClassId) : b.isFinalized c = a.isFinalized c := by
  rw [Arena.isFinalized, al.class?, Arena.isFinalized]

/-- Facts imply the same in alike arenas. -/
lemma Alike.directEvidence (al : a.Alike b) (fact : Fact) :
    b.directEvidence fact = a.directEvidence fact := by
  cases fact with
  | pointsTo target => rw [directEvidence_pointsTo, al.classOf?, directEvidence_pointsTo]
  | _ => rfl

/-- Arenas with the same leaders have the same representatives. -/
lemma Alike.of_leaderOf (store : b.store = a.store) (classes : b.classes = a.classes)
    (nextSeq : b.nextSeq = a.nextSeq) (size : b.forest.size = a.forest.size)
    (leaderOf : ∀ i, b.forest.leaderOf i = a.forest.leaderOf i) : a.Alike b := by
  refine ⟨store, classes, nextSeq, fun c => ?_⟩
  rw [representative?, size, leaderOf, representative?]

/-- The forests of alike arenas are of one size. -/
lemma Alike.forest_size (al : a.Alike b) (co : a.Coherent log) (co' : b.Coherent log') :
    b.forest.size = a.forest.size := by
  rw [co'.forest_size, al.size, co.forest_size]

/-- Alike arenas have the same leaders, however their trees are hung up. -/
lemma Alike.leaderOf (al : a.Alike b) (co : a.Coherent log) (co' : b.Coherent log') (i : Nat) :
    b.forest.leaderOf i = a.forest.leaderOf i := by
  have size := al.forest_size co co'
  rcases Nat.lt_or_ge i a.forest.size with lt | ge
  · have same := al.representative ⟨i⟩
    rw [representative?, if_pos (size ▸ lt), representative?, if_pos lt] at same
    exact congrArg ClassId.index (Option.some.inj same)
  · rw [Forest.leaderOf_of_size_le ge, Forest.leaderOf_of_size_le (size ▸ ge)]

/-- Shorter paths are not seen. -/
lemma Compresses.alike (cp : a.Compresses b) (co : a.Coherent log) : a.Alike b := by
  have leaderOf := cp.leaderOf_eq co
  obtain ⟨g, cp, rfl⟩ := cp
  exact .of_leaderOf rfl rfl rfl cp.size leaderOf

/-- Alike arenas stay alike when their paths are shortened. -/
lemma Alike.compresses {a' b' : Arena} (al : a.Alike b) (co : a.Coherent log)
    (co' : b.Coherent log') (cp : a.Compresses a') (cp' : b.Compresses b') : a'.Alike b' :=
  (cp.alike co).symm.trans (al.trans (cp'.alike co'))

/-- Alike arenas stay alike when one record is changed in both. -/
lemma Alike.modifyClass (al : a.Alike b) (c : ClassId) (f : ClassRecord → ClassRecord) :
    (a.modifyClass c f).Alike (b.modifyClass c f) := by
  refine ⟨al.store, ?_, al.nextSeq, al.representative⟩
  rw [Arena.modifyClass, al.classes, Arena.modifyClass]

/-- Alike arenas stay alike when a variable is added to both. -/
lemma Alike.addVariable (al : a.Alike b) (co : a.Coherent log) (co' : b.Coherent log')
    (site : UseSite) : (a.addVariable site).Alike (b.addVariable site) := by
  refine .of_leaderOf ?_ ?_ al.nextSeq ?_ fun i => ?_
  · rw [Arena.addVariable, al.store, Arena.addVariable]
  · rw [Arena.addVariable, al.classes, al.size, Arena.addVariable]
  · have size := al.forest_size co co'
    simp only [Arena.addVariable, Forest.size_push, size]
  · rw [co'.leaderOf_addVariable, al.leaderOf co co', co.leaderOf_addVariable]

/-- Alike arenas stay alike when every class is frozen in both. -/
lemma Alike.finalizeAll (al : a.Alike b) : a.finalizeAll.Alike b.finalizeAll := by
  refine ⟨al.store, ?_, al.nextSeq, al.representative⟩
  rw [Arena.finalizeAll, al.classes, Arena.finalizeAll]

/-- The merge of two classes leaves the same records and leaders, whichever root is kept. -/
lemma Alike.merges {a' b' : Arena} {lo hi : Nat} (al : a.Alike b) (co : a.Coherent log)
    (co' : b.Coherent log') (mg : a.Merges a' lo hi) (mg' : b.Merges b' lo hi) :
    a'.Alike b' := by
  refine .of_leaderOf ?_ ?_ ?_ ?_ fun i => ?_
  · rw [mg'.store, al.store, mg.store]
  · have records : ∀ i, b'.class? ⟨i⟩ = a'.class? ⟨i⟩ := by
      intro i
      obtain ⟨kept, gone, was_lo, was_hi, now_lo, now_hi⟩ := mg.merged
      obtain ⟨kept', gone', was_lo', was_hi', now_lo', now_hi'⟩ := mg'.merged
      rw [al.class?, was_lo] at was_lo'
      rw [al.class?, was_hi] at was_hi'
      cases was_lo'
      cases was_hi'
      by_cases e_lo : i = lo
      · rw [e_lo, now_lo, now_lo']
      · by_cases e_hi : i = hi
        · rw [e_hi, now_hi, now_hi']
        · rw [mg'.others e_lo e_hi, al.class?, mg.others e_lo e_hi]
    exact Array.ext_getElem? records
  · rw [mg'.nextSeq, al.nextSeq, mg.nextSeq]
  · rw [mg'.forest_size, al.forest_size co co', mg.forest_size]
  · rw [mg'.leaderOf, al.leaderOf co co', mg.leaderOf]

/-- Alike arenas stay alike when a constraint is added to both. -/
lemma Alike.withConstraint (al : a.Alike b) (co : a.Coherent log) (co' : b.Coherent log')
    (v : VarId) (position : Nat) (fact : Fact) (evidence : Option DataType) :
    (a.withConstraint (ArenaM.storeWith a v evidence) ⟨position, a.nextSeq, v, fact⟩).Alike
      (b.withConstraint (ArenaM.storeWith b v evidence) ⟨position, b.nextSeq, v, fact⟩) := by
  have store : ArenaM.storeWith b v evidence = ArenaM.storeWith a v evidence := by
    cases evidence with
    | none => exact al.store
    | some t => exact congrArg (·.recordFirst v t) al.store
  have counted : Alike
      { a with store := ArenaM.storeWith a v evidence, nextSeq := a.nextSeq + 1 }
      { b with store := ArenaM.storeWith a v evidence, nextSeq := a.nextSeq + 1 } :=
    ⟨rfl, al.classes, rfl, al.representative⟩
  rw [Arena.withConstraint, Arena.withConstraint, store, al.nextSeq, al.leaderOf co co']
  exact counted.modifyClass _ _

end

end Arena

/-- Two steps end with the same answer and in alike arenas. -/
inductive Agree {α : Type} : EStateM.Result AnalysisError Arena α →
    EStateM.Result AnalysisError Arena α → Prop
  | ok {r a b} : a.Alike b → Agree (.ok r a) (.ok r b)
  | error {e a b} : a.Alike b → Agree (.error e a) (.error e b)

/-- Steps that agree still agree when they are relabelled. -/
lemma Agree.map {α β : Type} {x : ArenaM α} {a b : Arena} (ag : Agree (x a) (x b)) (f : α → β) :
    Agree ((f <$> x) a) ((f <$> x) b) := by
  simp only [Functor.map, EStateM.map]
  generalize x a = result, x b = result' at ag
  cases ag with
  | ok al => exact .ok al
  | error al => exact .error al

namespace ArenaM

open Arena

section
variable {a b : Arena} {log log' : List Constraint}

/-- Searches in alike arenas agree. -/
lemma find_agree (al : a.Alike b) (co : a.Coherent log) (co' : b.Coherent log') (c : ClassId) :
    Agree (find c a) (find c b) := by
  rcases Nat.lt_or_ge c.index a.size with lt | ge
  · obtain ⟨a', cp, run⟩ := find_of_lt co lt
    obtain ⟨b', cp', run'⟩ := find_of_lt co' (al.size ▸ lt)
    rw [run, run', al.leaderOf co co']
    exact .ok (al.compresses co co' cp cp')
  · rw [find_of_size_le (co.forest_size ▸ ge), find_of_size_le (co'.forest_size ▸ al.size ▸ ge)]
    exact .error al

/-- Merges that were tried in alike arenas agree. -/
lemma UnionOutcome.agree {i j : Nat} {result result'} (out : UnionOutcome a i j result)
    (out' : UnionOutcome b i j result') (al : a.Alike b) (co : a.Coherent log)
    (co' : b.Coherent log') : Agree result result' := by
  have leaderOf := al.leaderOf co co'
  cases out with
  | same together cp =>
    cases out' with
    | same _ cp' =>
      rw [leaderOf]
      exact .ok (al.compresses co co' cp cp')
    | finalized apart _ _ => exact absurd (by rw [leaderOf, leaderOf, together]) apart
    | merged apart _ _ _ _ _ => exact absurd (by rw [leaderOf, leaderOf, together]) apart
  | finalized apart frozen cp =>
    cases out' with
    | same together _ => exact absurd (by rw [← leaderOf, ← leaderOf, together]) apart
    | finalized _ _ cp' =>
      rw [leaderOf, leaderOf]
      exact .error (al.compresses co co' cp cp')
    | merged _ open_i open_j _ _ _ =>
      rw [leaderOf, al.isFinalized] at open_i open_j
      rw [open_i, open_j] at frozen
      simp at frozen
  | merged apart open_i open_j lo hi mg =>
    cases out' with
    | same together _ => exact absurd (by rw [← leaderOf, ← leaderOf, together]) apart
    | finalized _ frozen _ =>
      rw [leaderOf, leaderOf, al.isFinalized, al.isFinalized, open_i, open_j] at frozen
      simp at frozen
    | merged _ _ _ lo' hi' mg' =>
      rw [leaderOf, leaderOf, ← lo] at lo'
      rw [leaderOf, leaderOf, ← hi] at hi'
      subst lo' hi'
      exact .ok (al.merges co co' mg mg')

/-- Merges of classes in alike arenas agree. -/
lemma union_agree (al : a.Alike b) (co : a.Coherent log) (co' : b.Coherent log')
    (x y : ClassId) : Agree (union x y a) (union x y b) := by
  by_cases beyond : a.size ≤ x.index ∨ a.size ≤ y.index
  · rw [union_of_size_le co beyond, union_of_size_le co' (al.size ▸ beyond), al.size]
    exact .error al
  · rw [not_or, Nat.not_le, Nat.not_le] at beyond
    have beyond' := al.size ▸ beyond
    exact (union_of_lt co beyond.1 beyond.2).agree (union_of_lt co' beyond'.1 beyond'.2) al co co'

/-- Merges of variables in alike arenas agree. -/
lemma unify_agree (al : a.Alike b) (co : a.Coherent log) (co' : b.Coherent log')
    (x y : VarId) : Agree (unify x y a) (unify x y b) := by
  by_cases beyond : a.size ≤ x.index ∨ a.size ≤ y.index
  · rw [unify_of_size_le beyond, unify_of_size_le (al.size ▸ beyond), al.size]
    exact .error al
  · rw [not_or, Nat.not_le, Nat.not_le] at beyond
    have beyond' := al.size ▸ beyond
    exact (unify_of_lt co beyond.1 beyond.2).agree (unify_of_lt co' beyond'.1 beyond'.2) al co co'

/-- Constraints in alike arenas are accepted or refused alike. -/
lemma constrain_agree (al : a.Alike b) (co : a.Coherent log) (co' : b.Coherent log')
    (v : VarId) (position : Nat) (fact : Fact) :
    Agree (constrain v position fact a) (constrain v position fact b) := by
  rcases Nat.lt_or_ge v.index a.size with lt | ge
  · have frozen : b.isFinalized ⟨b.forest.leaderOf v.index⟩ =
        a.isFinalized ⟨a.forest.leaderOf v.index⟩ := by
      rw [al.leaderOf co co', al.isFinalized]
    have out := constrain_of_lt co position fact lt
    have out' := constrain_of_lt co' position fact (al.size ▸ lt)
    generalize constrain v position fact a = result at out
    generalize constrain v position fact b = result' at out'
    -- both arenas give the same answers to what is asked of them: whether the class is finalized,
    -- and what the fact implies, so only equal outcomes are left
    cases out with
    | finalized fin =>
      cases out' with
      | finalized _ =>
        rw [al.leaderOf co co']
        exact .error al
      | unallocated open_ _ | added open_ _ =>
        rw [frozen, fin] at open_
        cases open_
    | unallocated open_ direct =>
      cases out' with
      | finalized fin =>
        rw [frozen, open_] at fin
        cases fin
      | unallocated _ direct' =>
        rw [al.directEvidence, direct] at direct'
        cases direct'
        exact .error al
      | added _ direct' =>
        rw [al.directEvidence, direct] at direct'
        cases direct'
    | added open_ direct =>
      cases out' with
      | finalized fin =>
        rw [frozen, open_] at fin
        cases fin
      | unallocated _ direct' =>
        rw [al.directEvidence, direct] at direct'
        cases direct'
      | added _ direct' =>
        rw [al.directEvidence, direct] at direct'
        cases direct'
        exact .ok (al.withConstraint co co' v position fact _)
  · rw [constrain_of_size_le ge, constrain_of_size_le (al.size ▸ ge)]
    exact .error al

/-- Verdicts in alike arenas agree. -/
lemma setType_agree (al : a.Alike b) (co : a.Coherent log) (co' : b.Coherent log')
    (c : ClassId) (t : DataType) : Agree (setType c t a) (setType c t b) := by
  rcases Nat.lt_or_ge c.index a.size with lt | ge
  · obtain ⟨a', cp, run⟩ := setType_of_lt co t lt
    obtain ⟨b', cp', run'⟩ := setType_of_lt co' t (al.size ▸ lt)
    have al' := al.compresses co co' cp cp'
    rw [run, run', al.leaderOf co co', al.isFinalized]
    split
    · exact .error al'
    · exact .ok (al'.modifyClass _ _)
  · rw [setType_of_size_le co ge, setType_of_size_le co' (al.size ▸ ge)]
    exact .error al

/-- Freezing a class in alike arenas agrees. -/
lemma finalize_agree (al : a.Alike b) (co : a.Coherent log) (co' : b.Coherent log')
    (c : ClassId) : Agree (finalize c a) (finalize c b) := by
  rcases Nat.lt_or_ge c.index a.size with lt | ge
  · obtain ⟨a', cp, run⟩ := finalize_of_lt co lt
    obtain ⟨b', cp', run'⟩ := finalize_of_lt co' (al.size ▸ lt)
    rw [run, run', al.leaderOf co co']
    exact .ok ((al.compresses co co' cp cp').modifyClass _ _)
  · rw [finalize_of_size_le co ge, finalize_of_size_le co' (al.size ▸ ge)]
    exact .error al

end

end ArenaM

namespace Arena

section
variable {a b : Arena} {log log' : List Constraint}

/-- Alike arenas answer every call alike, and stay alike. -/
lemma Alike.perform (al : a.Alike b) (co : a.Coherent log) (co' : b.Coherent log')
    (call : Call) : Agree (call.perform a) (call.perform b) := by
  cases call with
  | newVariable site =>
    have next : b.store.next = a.store.next := by rw [al.store]
    have run : ∀ d : Arena, (Call.newVariable site).perform d =
        .ok (.newVar d.store.next) (d.addVariable site) := fun _ => rfl
    rw [run, run, next]
    exact .ok (al.addVariable co co' site)
  | find c => exact (ArenaM.find_agree al co co' c).map _
  | union x y => exact (ArenaM.union_agree al co co' x y).map _
  | unify x y => exact (ArenaM.unify_agree al co co' x y).map _
  | constrain v position fact => exact (ArenaM.constrain_agree al co co' v position fact).map _
  | setType c t => exact (ArenaM.setType_agree al co co' c t).map _
  | finalize c => exact (ArenaM.finalize_agree al co co' c).map _
  | finalizeAll => exact .ok al.finalizeAll
  | reset => exact .ok (.refl _)

/-- A call is answered alike in alike arenas, and they stay alike. -/
lemma Alike.after (al : a.Alike b) (co : a.Coherent log) (co' : b.Coherent log') (call : Call) :
    outcome (call.perform b) = outcome (call.perform a) ∧
      (call.after a).Alike (call.after b) := by
  have ag := al.perform co co' call
  rw [Call.after, Call.after]
  generalize call.perform a = result, call.perform b = result' at ag
  cases ag with
  | ok al => exact ⟨rfl, al⟩
  | error al => exact ⟨rfl, al⟩

/-- Alike arenas answer every sequence of calls alike, and stay alike. -/
lemma Alike.afterAll (al : a.Alike b) (co : a.Coherent log) (co' : b.Coherent log')
    (calls : List Call) :
    b.replies calls = a.replies calls ∧ (a.afterAll calls).Alike (b.afterAll calls) := by
  induction calls generalizing a b log log' with
  | nil => exact ⟨rfl, al⟩
  | cons call calls ih =>
    obtain ⟨answer, al'⟩ := al.after co co' call
    obtain ⟨answers, al''⟩ := ih al' (co.after call) (co'.after call)
    exact ⟨by rw [replies, answer, answers, replies], al''⟩

/-! ## Calls that fail -/

/-- A merge that was refused has at most shortened paths. -/
lemma compresses_of_unionOutcome {i j : Nat} {e : AnalysisError}
    (out : ArenaM.UnionOutcome a i j (.error e b)) : a.Compresses b := by
  cases out with
  | finalized _ _ cp => exact cp

/-- A merge of classes that fails has at most shortened paths. -/
lemma Coherent.compresses_of_union (co : a.Coherent log) {x y : ClassId} {e : AnalysisError}
    (failed : ArenaM.union x y a = .error e b) : a.Compresses b := by
  by_cases beyond : a.size ≤ x.index ∨ a.size ≤ y.index
  · rw [ArenaM.union_of_size_le co beyond] at failed
    cases failed
    exact .refl co.forest.toRanked
  · rw [not_or, Nat.not_le, Nat.not_le] at beyond
    exact compresses_of_unionOutcome (failed ▸ ArenaM.union_of_lt co beyond.1 beyond.2)

/-- A merge of variables that fails has at most shortened paths. -/
lemma Coherent.compresses_of_unify (co : a.Coherent log) {x y : VarId} {e : AnalysisError}
    (failed : ArenaM.unify x y a = .error e b) : a.Compresses b := by
  by_cases beyond : a.size ≤ x.index ∨ a.size ≤ y.index
  · rw [ArenaM.unify_of_size_le beyond] at failed
    cases failed
    exact .refl co.forest.toRanked
  · rw [not_or, Nat.not_le, Nat.not_le] at beyond
    exact compresses_of_unionOutcome (failed ▸ ArenaM.unify_of_lt co beyond.1 beyond.2)

/-- A constraint that is refused leaves the arena as it is. -/
lemma Coherent.eq_of_constrain (co : a.Coherent log) {v : VarId} {position : Nat} {fact : Fact}
    {e : AnalysisError} (failed : ArenaM.constrain v position fact a = .error e b) : a = b := by
  rcases Nat.lt_or_ge v.index a.size with lt | ge
  · have out := ArenaM.constrain_of_lt co position fact lt
    rw [failed] at out
    cases out <;> rfl
  · rw [ArenaM.constrain_of_size_le ge] at failed
    cases failed
    rfl

/-- A verdict that is refused has at most shortened paths. -/
lemma Coherent.compresses_of_setType (co : a.Coherent log) {c : ClassId} {t : DataType}
    {e : AnalysisError} (failed : ArenaM.setType c t a = .error e b) : a.Compresses b := by
  rcases Nat.lt_or_ge c.index a.size with lt | ge
  · obtain ⟨a', cp, run⟩ := ArenaM.setType_of_lt co t lt
    rw [failed] at run
    split at run
    · cases run
      exact cp
    · cases run
  · rw [ArenaM.setType_of_size_le co ge] at failed
    cases failed
    exact .refl co.forest.toRanked

/-- A call that fails has at most shortened paths. -/
lemma Coherent.compresses_of_error (co : a.Coherent log) {call : Call} {e : AnalysisError}
    (failed : call.perform a = .error e b) : a.Compresses b := by
  have refl := Compresses.refl co.forest.toRanked
  cases call with
  | newVariable site => cases failed
  | find c =>
    have failed := map_eq_error.1 failed
    rcases Nat.lt_or_ge c.index a.size with lt | ge
    · obtain ⟨a', _, run⟩ := ArenaM.find_of_lt co lt
      cases run.symm.trans failed
    · cases (ArenaM.find_of_size_le (co.forest_size ▸ ge)).symm.trans failed
      exact refl
  | union x y => exact co.compresses_of_union (map_eq_error.1 failed)
  | unify x y => exact co.compresses_of_unify (map_eq_error.1 failed)
  | constrain v position fact => exact co.eq_of_constrain (map_eq_error.1 failed) ▸ refl
  | setType c t => exact co.compresses_of_setType (map_eq_error.1 failed)
  | finalize c =>
    have failed := map_eq_error.1 failed
    rcases Nat.lt_or_ge c.index a.size with lt | ge
    · obtain ⟨a', _, run⟩ := ArenaM.finalize_of_lt co lt
      cases run.symm.trans failed
    · cases (ArenaM.finalize_of_size_le co ge).symm.trans failed
      exact refl
  | finalizeAll => cases failed
  | reset => cases failed

/-- A call that fails in an arena that calls have made changes nothing that can be looked up,
neither at once nor after any calls that follow, and those are answered as if it had not been
made. -/
theorem failure_unnoticed (re : a.Reachable) {call : Call} {e : AnalysisError}
    (failed : call.perform a = .error e b) :
    b.store = a.store ∧ b.classes = a.classes ∧ b.nextSeq = a.nextSeq ∧
      (∀ v, b.classOf? v = a.classOf? v) ∧
      ∀ calls, b.replies calls = a.replies calls ∧ (a.afterAll calls).Alike (b.afterAll calls) := by
  obtain ⟨log, co⟩ := re.coherent
  have cp := co.compresses_of_error failed
  have al := cp.alike co
  exact ⟨al.store, al.classes, al.nextSeq, al.classOf?, al.afterAll co (cp.coherent co)⟩

/-- Two levels of a tree, and beside it a class that is finalized. -/
def treeCalls : List Call :=
  [.newVariable (.storage "p"), .newVariable (.storage "q"), .newVariable (.storage "r"),
    .newVariable (.storage "s"), .newVariable (.storage "t"), .union ⟨0⟩ ⟨1⟩, .union ⟨2⟩ ⟨3⟩,
    .union ⟨1⟩ ⟨3⟩, .finalize ⟨4⟩]

/-- Two classes that were merged before are merged, and a class of its own is finalized. -/
lemma afterAll_treeCalls : Arena.empty.afterAll treeCalls =
    (((((Arena.empty.afterAll (treeCalls.take 7)).modifyClass ⟨0⟩ (·.unconstrained)).modifyClass ⟨2⟩
      (·.unconstrained)).afterAll [.union ⟨1⟩ ⟨3⟩]).modifyClass ⟨0⟩ (·.unconstrained)).afterAll
        [.finalize ⟨4⟩] := by
  rw [modifyClass_unconstrained _ _ rfl rfl rfl,
    modifyClass_unconstrained (.singleton 2) (.singleton 3) rfl rfl rfl,
    modifyClass_unconstrained (.singleton 0) (.singleton 1) rfl rfl rfl]
  rfl

/-- A merge with the finalized class fails, though it has hung class 3 right below its root. -/
theorem failure_unnoticed_treeCalls :
    let a := Arena.empty.afterAll treeCalls
    ∃ b, (Call.union ⟨3⟩ ⟨4⟩).perform a = .error (.finalizedMerge ⟨0⟩ ⟨4⟩) b ∧
      a.forest.parent 3 = 2 ∧ b.forest.parent 3 = 0 ∧ b.classes = a.classes ∧
      ∀ calls, b.replies calls = a.replies calls := by
  have failed : outcome ((Call.union ⟨3⟩ ⟨4⟩).perform (Arena.empty.afterAll treeCalls)) =
      .error (.finalizedMerge ⟨0⟩ ⟨4⟩) := by
    rw [afterAll_treeCalls]
    decide +kernel
  have run := eq_error_of_outcome failed
  obtain ⟨_, classes, _, _, later⟩ := failure_unnoticed ⟨treeCalls, rfl⟩ run
  refine ⟨_, run, ?_, ?_, classes, fun calls => (later calls).1⟩
  · rw [afterAll_treeCalls]
    decide +kernel
  · rw [afterAll_treeCalls]
    decide +kernel

/-! ## Searches -/

end

/-- A call of a sequence, or a search that is put in between. -/
inductive Interposed where
  | own (call : Call)
  | search (c : ClassId)

namespace Interposed

/-- Searches are calls too. -/
def toCall : Interposed → Call
  | .own call => call
  | .search c => .find c

/-- The call, unless it was put in between. -/
def call? : Interposed → Option Call
  | .own call => some call
  | .search _ => none

end Interposed

/-- The answers to the calls of a sequence with searches in between, without those to the
searches. -/
def ownReplies (a : Arena) : List Interposed → List (Except AnalysisError Reply)
  | [] => []
  | .own call :: steps => outcome (call.perform a) :: (call.after a).ownReplies steps
  | .search c :: steps => ((Call.find c).after a).ownReplies steps

section
variable {a b : Arena} {log log' : List Constraint}

/-- A class is found if and only if it has a representative. -/
lemma Coherent.find_iff (co : a.Coherent log) {c r : ClassId} :
    (∃ b, ArenaM.find c a = .ok r b) ↔ a.representative? c = some r := by
  rcases Nat.lt_or_ge c.index a.size with lt | ge
  · obtain ⟨a', _, run⟩ := ArenaM.find_of_lt co lt
    rw [run, representative?, if_pos (co.forest_size ▸ lt), Option.some.injEq]
    constructor
    · rintro ⟨b, ⟨⟩⟩
      rfl
    · rintro rfl
      exact ⟨a', rfl⟩
  · rw [ArenaM.find_of_size_le (co.forest_size ▸ ge), representative?,
      if_neg (co.forest_size ▸ ge.not_gt)]
    constructor
    · rintro ⟨b, ⟨⟩⟩
    · rintro ⟨⟩

/-- A representative represents itself. -/
lemma Coherent.representative?_of_representative? (co : a.Coherent log) {c r : ClassId}
    (leads : a.representative? c = some r) : a.representative? r = some r := by
  rw [representative?] at leads
  split at leads
  · rename_i lt
    cases leads
    rw [representative?, if_pos (co.forest.leaderOf_lt lt), co.forest.leaderOf_leaderOf]
  · cases leads

/-- A search is not seen. -/
lemma Coherent.alike_find (co : a.Coherent log) (c : ClassId) :
    a.Alike ((Call.find c).after a) := by
  rw [Call.after, Call.perform, finalState_map]
  rcases Nat.lt_or_ge c.index a.size with lt | ge
  · obtain ⟨a', cp, run⟩ := ArenaM.find_of_lt co lt
    rw [run]
    exact cp.alike co
  · rw [ArenaM.find_of_size_le (co.forest_size ▸ ge)]
    exact .refl a

/-- Calls with searches in between are answered, and leave what can be looked up, as the calls do on
their own. -/
lemma Alike.interposed (al : a.Alike b) (co : a.Coherent log) (co' : b.Coherent log')
    (steps : List Interposed) :
    b.ownReplies steps = a.replies (steps.filterMap Interposed.call?) ∧
      (a.afterAll (steps.filterMap Interposed.call?)).Alike
        (b.afterAll (steps.map Interposed.toCall)) := by
  induction steps generalizing a b log log' with
  | nil => exact ⟨rfl, al⟩
  | cons step steps ih =>
    cases step with
    | own call =>
      obtain ⟨answer, al'⟩ := al.after co co' call
      obtain ⟨answers, al''⟩ := ih al' (co.after call) (co'.after call)
      refine ⟨?_, al''⟩
      rw [ownReplies, answer, answers]
      rfl
    | search c => exact ih (al.trans (co'.alike_find c)) co (co'.after (.find c))

/-- In an arena that calls have made, a search finds the representative of a class and nothing else,
and the representative is its own. Searches that are put anywhere into a sequence of calls change
neither the answer to any call of the sequence nor anything that can be looked up in the end. -/
theorem searches_unnoticed (re : a.Reachable) :
    (∀ c r, (∃ b, ArenaM.find c a = .ok r b) ↔ a.representative? c = some r) ∧
    (∀ c r b, ArenaM.find c a = .ok r b →
      (∃ d, ArenaM.find r a = .ok r d) ∧ ∃ d, ArenaM.find r b = .ok r d) ∧
    ∀ steps : List Interposed,
      a.ownReplies steps = a.replies (steps.filterMap Interposed.call?) ∧
      (a.afterAll (steps.filterMap Interposed.call?)).Alike
        (a.afterAll (steps.map Interposed.toCall)) := by
  obtain ⟨log, co⟩ := re.coherent
  refine ⟨fun c r => co.find_iff, fun c r b found => ?_, (Alike.refl a).interposed co co⟩
  have own := co.representative?_of_representative? (co.find_iff.1 ⟨b, found⟩)
  have cp := (ArenaM.of_find_eq_ok co found).2.2
  refine ⟨co.find_iff.2 own, (cp.coherent co).find_iff.2 ?_⟩
  rw [(cp.alike co).representative, own]

/-- Searches that hang class 3 below its root, before two trees are merged and after. -/
def searchedCalls : List Interposed :=
  [.search ⟨3⟩, .own (.newVariable (.storage "u")), .own (.union ⟨5⟩ ⟨3⟩), .search ⟨5⟩,
    .own (.finalize ⟨5⟩), .own (.union ⟨4⟩ ⟨5⟩)]

/-- Between the calls, a search finds class 0 and hangs class 3 below it; the four calls are
answered as without the searches. -/
theorem searches_unnoticed_treeCalls :
    let a := Arena.empty.afterAll treeCalls
    a.forest.parent 3 = 2 ∧ ((Call.find ⟨3⟩).after a).forest.parent 3 = 0 ∧
      (∃ b, ArenaM.find ⟨3⟩ a = .ok ⟨0⟩ b) ∧
      a.ownReplies searchedCalls = [.ok (.newVar ⟨5⟩), .ok (.found ⟨0⟩), .ok .done,
        .error (.finalizedMerge ⟨4⟩ ⟨0⟩)] := by
  obtain ⟨found, _, interposed⟩ :=
    searches_unnoticed (a := Arena.empty.afterAll treeCalls) ⟨treeCalls, rfl⟩
  have shape : (Arena.empty.afterAll treeCalls).forest.parent 3 = 2 ∧
      ((Call.find ⟨3⟩).after (Arena.empty.afterAll treeCalls)).forest.parent 3 = 0 ∧
      (Arena.empty.afterAll treeCalls).representative? ⟨3⟩ = some ⟨0⟩ := by
    rw [afterAll_treeCalls]
    decide +kernel
  refine ⟨shape.1, shape.2.1, (found ⟨3⟩ ⟨0⟩).2 shape.2.2, ?_⟩
  rw [(interposed searchedCalls).1, afterAll_treeCalls]
  decide +kernel

end

end Arena

end TypeRecovery
