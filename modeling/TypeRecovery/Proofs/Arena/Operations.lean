import TypeRecovery.Proofs.Arena.Coherence

/-!
# The operations on a coherent arena

What every operation on the arena answers, and which arena it leaves behind. One lemma for each
operation lists all of its outcomes, the failures among them; what follows in other files is read
off these lists and never off the operations themselves.
-/

namespace TypeRecovery

/-! ## Sequences of steps -/

section
variable {ε σ α β : Type} {x : EStateM ε σ α} {f : α → EStateM ε σ β}

/-- Go on after a step that succeeds. -/
lemma bind_of_ok {s t : σ} {r : α} (h : x s = .ok r t) : (x >>= f) s = f r t := by
  simp only [bind, EStateM.bind, h]

/-- A step that fails ends the sequence. -/
lemma bind_of_error {s t : σ} {e : ε} (h : x s = .error e t) : (x >>= f) s = .error e t := by
  simp only [bind, EStateM.bind, h]

/-- Reading the state leaves it as it is. -/
lemma get_run (s : σ) : (get : EStateM ε σ σ) s = .ok s s :=
  rfl

/-- A sequence succeeds if its steps do. -/
lemma bind_eq_ok {s t : σ} {r : β} :
    (x >>= f) s = .ok r t ↔ ∃ q m, x s = .ok q m ∧ f q m = .ok r t := by
  constructor
  · intro h
    cases e : x s with
    | ok q m => exact ⟨q, m, rfl, by rwa [bind_of_ok e] at h⟩
    | error err m => rw [bind_of_error e] at h; cases h
  · rintro ⟨q, m, e, h⟩
    rw [bind_of_ok e, h]

/-- A failure is no success. -/
lemma throw_ne_ok {e : ε} {s t : σ} {r : α} : (throw e : EStateM ε σ α) s ≠ .ok r t := by
  rintro ⟨⟩

/-- An answer that takes no step. -/
lemma pure_eq_ok {r q : α} {s t : σ} : (pure r : EStateM ε σ α) s = .ok q t ↔ r = q ∧ s = t := by
  constructor
  · rintro ⟨⟩
    exact ⟨rfl, rfl⟩
  · rintro ⟨rfl, rfl⟩
    rfl

/-- How a step ends that fails on the condition `fails` only, and else answers as in `post`. -/
inductive Concludes (fails : Prop) (post : α → σ → Prop) : EStateM.Result ε σ α → Prop
  | ok {r s} : post r s → Concludes fails post (.ok r s)
  | error {e s} : fails → Concludes fails post (.error e s)

/-- Steps that fail on one condition only fail on that condition only when taken in sequence. -/
lemma Concludes.bind {fails : Prop} {P : α → σ → Prop} {Q : β → σ → Prop} {s : σ}
    (first : Concludes fails P (x s)) (next : ∀ r t, P r t → Concludes fails Q (f r t)) :
    Concludes fails Q ((x >>= f) s) := by
  generalize h : x s = result at first
  cases first with
  | ok holds =>
    rw [bind_of_ok h]
    exact next _ _ holds
  | error fails =>
    rw [bind_of_error h]
    exact .error fails

/-- What a step comes to may be described more loosely. -/
lemma Concludes.mono {fails : Prop} {P Q : α → σ → Prop} {result : EStateM.Result ε σ α}
    (conc : Concludes fails P result) (weaker : ∀ r t, P r t → Q r t) :
    Concludes fails Q result := by
  cases conc with
  | ok holds => exact .ok (weaker _ _ holds)
  | error fails => exact .error fails

/-- What a step leaves is what it came to. -/
lemma Concludes.ran {fails : Prop} {P : α → σ → Prop} {result : EStateM.Result ε σ α}
    (conc : Concludes fails P result) :
    Concludes fails (fun r t => P r t ∧ result = .ok r t) result := by
  cases conc with
  | ok holds => exact .ok ⟨holds, rfl⟩
  | error fails => exact .error fails

end

namespace Arena

/-- The same arena with shorter paths. -/
def Compresses (a b : Arena) : Prop :=
  ∃ g, a.forest.Compresses g ∧ b = { a with forest := g }

/-- An arena is itself with no path shortened. -/
lemma Compresses.refl {a : Arena} (rk : a.forest.Ranked) : a.Compresses a :=
  ⟨a.forest, .refl rk, rfl⟩

/-- Shortening paths moves nothing. -/
lemma Compresses.retouches {a b : Arena} (cp : a.Compresses b) : a.Retouches b := by
  obtain ⟨g, cp, rfl⟩ := cp
  exact .of_compresses cp

/-- Shortening paths keeps an arena coherent. -/
lemma Compresses.coherent {a b : Arena} {log} (cp : a.Compresses b) (co : a.Coherent log) :
    b.Coherent log :=
  cp.retouches.coherent co

/-- Shortening paths keeps the leaders. -/
lemma Compresses.leaderOf_eq {a b : Arena} {log} (cp : a.Compresses b) (co : a.Coherent log)
    (i : Nat) : b.forest.leaderOf i = a.forest.leaderOf i :=
  cp.retouches.forest.leaderOf_eq co.forest.toRanked i

/-- Shortening paths keeps the live classes. -/
lemma Compresses.liveClasses {a b : Arena} (cp : a.Compresses b) :
    b.liveClasses = a.liveClasses := by
  obtain ⟨g, _, rfl⟩ := cp
  rfl

/-- Shortening paths makes no verdict. -/
lemma Compresses.unjudged {a b : Arena} (cp : a.Compresses b) (uj : a.Unjudged) : b.Unjudged := by
  rw [Unjudged, cp.liveClasses]
  exact uj

/-- A merge after paths were compressed is a merge. -/
lemma Compresses.merges {a b c : Arena} {log lo hi} (cp : a.Compresses b) (co : a.Coherent log)
    (mg : b.Merges c lo hi) : a.Merges c lo hi := by
  have leaderOf := cp.leaderOf_eq co
  obtain ⟨g, cp, rfl⟩ := cp
  refine ⟨mg.lt, mg.hi_lt, ?_, ?_, mg.store, mg.nextSeq, mg.forest, ?_, ?_, mg.classes_size,
    mg.merged, mg.others⟩
  · rw [← leaderOf, mg.leads_lo]
  · rw [← leaderOf, mg.leads_hi]
  · exact mg.forest_size.trans cp.size
  · intro i
    rw [mg.leaderOf, leaderOf]

/-- What a pointer implies depends on the class of its target. -/
lemma directEvidence_pointsTo {a : Arena} {target : VarId} :
    a.directEvidence (.pointsTo target) =
      match a.classOf? target with
      | some c => .ok (some (.pointer c))
      | none => .error (.unallocated target) := rfl

end Arena

namespace ArenaM

open Arena

/-! ## Finding -/

/-- A check of the arena changes nothing. -/
lemma require_run (p : Arena → Prop) [DecidablePred p] (e : AnalysisError) (a : Arena) :
    (get >>= fun s => if p s then pure () else throw e : ArenaM Unit) a =
      if p a then .ok () a else .error e a := by
  change (if p a then pure () else throw e : ArenaM Unit) a = _
  split <;> rfl

/-- The check for a class passes if the class is there. -/
lemma requireClass_of_lt {a : Arena} {c : ClassId} (lt : c.index < a.forest.size) :
    requireClass c a = .ok () a :=
  (require_run (c.index < ·.forest.size) (.unknownClass c) a).trans (if_pos lt)

/-- The check for a class fails if the class is not there. -/
lemma requireClass_of_size_le {a : Arena} {c : ClassId} (le : a.forest.size ≤ c.index) :
    requireClass c a = .error (.unknownClass c) a :=
  (require_run (c.index < ·.forest.size) (.unknownClass c) a).trans (if_neg le.not_gt)

/-- Looking for a root compresses the path to it. -/
lemma root_run (c : ClassId) (a : Arena) :
    root c a = .ok (a.forest.root c.index) { a with forest := a.forest.compress c.index } :=
  rfl

/-- Looking for a class that is not there fails and changes nothing. -/
lemma find_of_size_le {a : Arena} {c : ClassId} (le : a.forest.size ≤ c.index) :
    find c a = .error (.unknownClass c) a :=
  bind_of_error (requireClass_of_size_le le)

/-- Looking for a class gives its leader. -/
lemma find_of_lt {a : Arena} {log} (co : a.Coherent log) {c : ClassId} (lt : c.index < a.size) :
    ∃ b, a.Compresses b ∧ find c a = .ok ⟨a.forest.leaderOf c.index⟩ b := by
  have cp := co.forest.toRanked.compress c.index
  refine ⟨_, ⟨_, cp, rfl⟩, ?_⟩
  rw [find, bind_of_ok (requireClass_of_lt (co.forest_size ▸ lt)), bind_of_ok (root_run c a),
    Forest.leaderOf, ← cp.leader]
  rfl

/-- Looking for a class succeeds if it is there. -/
lemma of_find_eq_ok {a b : Arena} {log} (co : a.Coherent log) {c d : ClassId}
    (run : find c a = .ok d b) :
    c.index < a.size ∧ d = ⟨a.forest.leaderOf c.index⟩ ∧ a.Compresses b := by
  rcases Nat.lt_or_ge c.index a.size with lt | ge
  · obtain ⟨b', cp, found⟩ := find_of_lt co lt
    rw [found] at run
    cases run
    exact ⟨lt, rfl, cp⟩
  · rw [find_of_size_le (co.forest_size ▸ ge)] at run
    cases run

/-- The class of a variable is found without a change to the arena. -/
lemma classOf_eq_ok {v : VarId} {a b : Arena} {c : ClassId} :
    classOf v a = .ok c b ↔ a.classOf? v = some c ∧ a = b := by
  rw [classOf, bind_of_ok (get_run a)]
  cases a.classOf? v <;> simp [pure_eq_ok, throw_ne_ok]

/-- The record of the class of a variable is found without a change to the arena. -/
lemma classFor_eq_ok {v : VarId} {a b : Arena} {record : ClassRecord} :
    classFor v a = .ok record b ↔ a.classFor? v = some record ∧ a = b := by
  rw [classFor, bind_of_ok (get_run a)]
  cases a.classFor? v <;> simp [pure_eq_ok, throw_ne_ok]

/-- The class of a variable that is there. -/
lemma classOf_of_lt {a : Arena} {log} (co : a.Coherent log) {v : VarId} (lt : v.index < a.size) :
    classOf v a = .ok ⟨a.forest.leaderOf v.index⟩ a :=
  classOf_eq_ok.2 ⟨co.classOf?_eq lt, rfl⟩

/-! ## Merging -/

/-- What the merge of two classes that are there can end with: they were one class already, one of
them is finalized, or they are merged now. -/
inductive UnionOutcome (a : Arena) (i j : Nat) : EStateM.Result AnalysisError Arena ClassId → Prop
  | same {b} : a.forest.leaderOf i = a.forest.leaderOf j → a.Compresses b →
    UnionOutcome a i j (.ok ⟨a.forest.leaderOf i⟩ b)
  | finalized {b} : a.forest.leaderOf i ≠ a.forest.leaderOf j →
    a.isFinalized ⟨a.forest.leaderOf i⟩ = true ∨ a.isFinalized ⟨a.forest.leaderOf j⟩ = true →
    a.Compresses b →
    UnionOutcome a i j
      (.error (.finalizedMerge ⟨a.forest.leaderOf i⟩ ⟨a.forest.leaderOf j⟩) b)
  | merged {b lo hi} : a.forest.leaderOf i ≠ a.forest.leaderOf j →
    a.isFinalized ⟨a.forest.leaderOf i⟩ = false → a.isFinalized ⟨a.forest.leaderOf j⟩ = false →
    lo = min (a.forest.leaderOf i) (a.forest.leaderOf j) →
    hi = max (a.forest.leaderOf i) (a.forest.leaderOf j) →
    a.Merges b lo hi → UnionOutcome a i j (.ok ⟨lo⟩ b)

/-- The merge of two classes, step by step: both paths are compressed, and only then it is decided
what happens. -/
lemma union_run {a : Arena} {log} (co : a.Coherent log) {x y : ClassId}
    (ltx : x.index < a.size) (lty : y.index < a.size) :
    ∃ b, a.Compresses b ∧ union x y a =
      if a.forest.root x.index = a.forest.root y.index then .ok ⟨a.forest.leaderOf x.index⟩ b
      else if a.isFinalized ⟨a.forest.leaderOf x.index⟩ = true ∨
          a.isFinalized ⟨a.forest.leaderOf y.index⟩ = true then
        .error (.finalizedMerge ⟨a.forest.leaderOf x.index⟩ ⟨a.forest.leaderOf y.index⟩) b
      else .ok ⟨min (a.forest.leaderOf x.index) (a.forest.leaderOf y.index)⟩
        (b.mergeRoots (a.forest.root x.index) (a.forest.root y.index)) := by
  have rk := co.forest.toRanked
  have cpx := rk.compress x.index
  have cp := cpx.trans (cpx.ranked.compress y.index)
  have leader : ∀ i, ((a.forest.compress x.index).compress y.index).leader (a.forest.root i) =
      a.forest.leaderOf i := fun i => cp.leader _
  refine ⟨_, ⟨_, cp, rfl⟩, ?_⟩
  rw [union, bind_of_ok (requireClass_of_lt (co.forest_size ▸ ltx)),
    bind_of_ok (requireClass_of_lt (co.forest_size ▸ lty)), bind_of_ok (root_run x a),
    bind_of_ok (root_run y _), bind_of_ok (get_run _)]
  have finalized : ∀ (g : Forest) (c : ClassId),
      ({ a with forest := g } : Arena).isFinalized c = a.isFinalized c := fun _ _ => rfl
  simp only [cpx.root_eq rk, leader, finalized, Bool.or_eq_true]
  split
  · rfl
  · split <;> rfl

/-- The merge of two classes that are there. -/
lemma union_of_lt {a : Arena} {log} (co : a.Coherent log) {x y : ClassId}
    (ltx : x.index < a.size) (lty : y.index < a.size) :
    UnionOutcome a x.index y.index (union x y a) := by
  have rk := co.forest.toRanked
  obtain ⟨b, cp, run⟩ := union_run co ltx lty
  have coB := cp.coherent co
  rw [run]
  split
  · rename_i same
    exact .same (co.forest.leaderOf_eq_iff.2 same) cp
  · rename_i apart
    have apart' : a.forest.leaderOf x.index ≠ a.forest.leaderOf y.index :=
      fun e => apart (co.forest.leaderOf_eq_iff.1 e)
    split
    · rename_i fin
      exact .finalized apart' fin cp
    · rename_i open_
      simp only [not_or, Bool.not_eq_true] at open_
      have isRoot := cp.retouches.forest.isRoot_root rk
      have root_lt : ∀ {i}, i < a.size → a.forest.root i < b.size := by
        intro i lt
        rw [← coB.forest_size]
        exact cp.retouches.forest.root_lt rk (co.forest_size ▸ lt)
      have leaderOf : ∀ i, b.forest.leaderOf (a.forest.root i) = a.forest.leaderOf i := by
        intro i
        rw [cp.leaderOf_eq co, co.forest.leaderOf_eq_iff, rk.root_root]
      have mg := coB.mergeRoots apart (root_lt ltx) (root_lt lty) (isRoot _) (isRoot _)
      rw [leaderOf, leaderOf] at mg
      exact .merged apart' open_.1 open_.2 rfl rfl (cp.merges co mg)

/-- The merge of two classes one of which is not there fails and changes nothing. -/
lemma union_of_size_le {a : Arena} {log} (co : a.Coherent log) {x y : ClassId}
    (beyond : a.size ≤ x.index ∨ a.size ≤ y.index) :
    union x y a = .error (.unknownClass (if a.size ≤ x.index then x else y)) a := by
  rcases Nat.lt_or_ge x.index a.size with lt | ge
  · have gey := beyond.resolve_left lt.not_ge
    rw [if_neg lt.not_ge, union, bind_of_ok (requireClass_of_lt (co.forest_size ▸ lt)),
      bind_of_error (requireClass_of_size_le (co.forest_size ▸ gey))]
  · rw [if_pos ge, union, bind_of_error (requireClass_of_size_le (co.forest_size ▸ ge))]

/-- The check for a variable passes if the variable is there. -/
lemma requireVariable_of_lt {a : Arena} {v : VarId} (lt : v.index < a.size) :
    requireVariable v a = .ok () a :=
  (require_run (v.index < ·.size) (.unknownVariable v) a).trans (if_pos lt)

/-- The check for a variable fails if the variable is not there. -/
lemma requireVariable_of_size_le {a : Arena} {v : VarId} (le : a.size ≤ v.index) :
    requireVariable v a = .error (.unknownVariable v) a :=
  (require_run (v.index < ·.size) (.unknownVariable v) a).trans (if_neg le.not_gt)

/-- The merge of the classes of two variables that are there. -/
lemma unify_of_lt {a : Arena} {log} (co : a.Coherent log) {x y : VarId}
    (ltx : x.index < a.size) (lty : y.index < a.size) :
    UnionOutcome a x.index y.index (unify x y a) := by
  rw [unify, bind_of_ok (requireVariable_of_lt ltx), bind_of_ok (requireVariable_of_lt lty)]
  exact union_of_lt co (x := ⟨x.index⟩) (y := ⟨y.index⟩) ltx lty

/-- The merge of two variables one of which is not there fails and changes nothing. -/
lemma unify_of_size_le {a : Arena} {x y : VarId}
    (beyond : a.size ≤ x.index ∨ a.size ≤ y.index) :
    unify x y a = .error (.unknownVariable (if a.size ≤ x.index then x else y)) a := by
  rcases Nat.lt_or_ge x.index a.size with lt | ge
  · have gey := beyond.resolve_left lt.not_ge
    rw [if_neg lt.not_ge, unify, bind_of_ok (requireVariable_of_lt lt),
      bind_of_error (requireVariable_of_size_le gey)]
  · rw [if_pos ge, unify, bind_of_error (requireVariable_of_size_le ge)]

/-! ## Constraining -/

/-- The store after a fact about a variable was recorded. -/
def storeWith (a : Arena) (v : VarId) : Option DataType → VariableStore
  | some t => a.store.recordFirst v t
  | none => a.store

/-- Recording a fact adds no variable. -/
@[simp] lemma size_storeWith (a : Arena) (v : VarId) (evidence : Option DataType) :
    (storeWith a v evidence).size = a.size := by
  cases evidence <;> simp [storeWith, VariableStore.recordFirst, VariableStore.size, Arena.size]

/-- What a new constraint on a variable that is there can end with. -/
inductive ConstrainOutcome (a : Arena) (v : VarId) (position : Nat) (fact : Fact) :
    EStateM.Result AnalysisError Arena Unit → Prop
  | finalized : a.isFinalized ⟨a.forest.leaderOf v.index⟩ = true →
    ConstrainOutcome a v position fact (.error (.finalizedClass ⟨a.forest.leaderOf v.index⟩) a)
  | unallocated {e} : a.isFinalized ⟨a.forest.leaderOf v.index⟩ = false →
    a.directEvidence fact = .error e → ConstrainOutcome a v position fact (.error e a)
  | added {evidence} : a.isFinalized ⟨a.forest.leaderOf v.index⟩ = false →
    a.directEvidence fact = .ok evidence →
    ConstrainOutcome a v position fact
      (.ok () (a.withConstraint (storeWith a v evidence) ⟨position, a.nextSeq, v, fact⟩))

/-- A new constraint on a variable that is there. -/
lemma constrain_of_lt {a : Arena} {log} (co : a.Coherent log) {v : VarId} (position : Nat)
    (fact : Fact) (lt : v.index < a.size) :
    ConstrainOutcome a v position fact (constrain v position fact a) := by
  rw [constrain, bind_of_ok (requireVariable_of_lt lt), bind_of_ok (classOf_of_lt co lt),
    bind_of_ok (get_run a)]
  cases fin : a.isFinalized ⟨a.forest.leaderOf v.index⟩ with
  | true => exact .finalized fin
  | false =>
    cases ev : a.directEvidence fact with
    | error e => exact .unallocated fin ev
    | ok evidence =>
      cases evidence <;> exact .added fin ev

/-- A constraint on a variable that is not there fails and changes nothing. -/
lemma constrain_of_size_le {a : Arena} {v : VarId} {position : Nat} {fact : Fact}
    (le : a.size ≤ v.index) :
    constrain v position fact a = .error (.unknownVariable v) a := by
  rw [constrain, bind_of_error (requireVariable_of_size_le le)]

/-! ## Verdicts -/

/-- A verdict on a class that is there, or a failure because the class is frozen. -/
lemma setType_of_lt {a : Arena} {log} (co : a.Coherent log) {c : ClassId} (t : DataType)
    (lt : c.index < a.size) :
    ∃ b, a.Compresses b ∧ setType c t a =
      if a.isFinalized ⟨a.forest.leaderOf c.index⟩ then
        .error (.finalizedClass ⟨a.forest.leaderOf c.index⟩) b
      else .ok () (b.modifyClass ⟨a.forest.leaderOf c.index⟩ (·.setType t)) := by
  obtain ⟨b, cp, found⟩ := find_of_lt co lt
  have finalized : ∀ c, b.isFinalized c = a.isFinalized c := by
    obtain ⟨g, _, rfl⟩ := cp
    exact fun _ => rfl
  refine ⟨b, cp, ?_⟩
  rw [setType, bind_of_ok found, bind_of_ok (get_run b), finalized]
  split <;> rfl

/-- A verdict on a class that is not there fails and changes nothing. -/
lemma setType_of_size_le {a : Arena} {log} (co : a.Coherent log) {c : ClassId} {t : DataType}
    (le : a.size ≤ c.index) : setType c t a = .error (.unknownClass c) a := by
  rw [setType, bind_of_error (find_of_size_le (co.forest_size ▸ le))]

/-- A verdict moves nothing. -/
lemma retouches_of_setType {a b : Arena} {log} (co : a.Coherent log) {c : ClassId} {t : DataType}
    (run : setType c t a = .ok () b) : a.Retouches b := by
  obtain ⟨d, m, found, _⟩ := bind_eq_ok.1 run
  obtain ⟨lt, _, _⟩ := of_find_eq_ok co found
  obtain ⟨b', cp, ran⟩ := setType_of_lt co t lt
  rw [run] at ran
  split at ran
  · cases ran
  · cases ran
    have rk := (cp.coherent co).forest.toRanked
    exact cp.retouches.trans (.modifyClass rk _ fun _ => ⟨rfl, rfl, rfl, rfl⟩)

/-- Freezing a class that is there. -/
lemma finalize_of_lt {a : Arena} {log} (co : a.Coherent log) {c : ClassId}
    (lt : c.index < a.size) :
    ∃ b, a.Compresses b ∧ finalize c a =
      .ok () (b.modifyClass ⟨a.forest.leaderOf c.index⟩ (·.finalize)) := by
  obtain ⟨b, cp, found⟩ := find_of_lt co lt
  refine ⟨b, cp, ?_⟩
  rw [finalize, bind_of_ok found]
  rfl

/-- Freezing a class that is not there fails and changes nothing. -/
lemma finalize_of_size_le {a : Arena} {log} (co : a.Coherent log) {c : ClassId}
    (le : a.size ≤ c.index) : finalize c a = .error (.unknownClass c) a := by
  rw [finalize, bind_of_error (find_of_size_le (co.forest_size ▸ le))]

end ArenaM

end TypeRecovery
