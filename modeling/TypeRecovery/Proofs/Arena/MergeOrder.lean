import Mathlib.Data.Sym.Sym2
import Mathlib.Logic.Relation
import TypeRecovery.Proofs.Arena.Partition

/-!
# The order of merges does not matter

A script makes variables, adds constraints and merges classes. What its classes are in the end can
be read off the script: `Linked` is the equivalence closure of the pairs that it merges, and
`Gathered` says what the class of a variable holds. The merges may therefore be moved and turned
around, which is the main statement, `liveClasses_rearranged`.

`Gathers` is the invariant that every step keeps.
-/

namespace TypeRecovery

/-- A step that gathers variables, constraints and merges. -/
inductive Step where
  | newVariable (site : UseSite)
  | constrain (subject : VarId) (position : Nat) (fact : Fact)
  | unify (x y : VarId)

namespace Step

/-- Perform a step. -/
def perform : Step → ArenaM Unit
  | .newVariable site => do let _ ← ArenaM.newVariable site
  | .constrain subject position fact => ArenaM.constrain subject position fact
  | .unify x y => do let _ ← ArenaM.unify x y

/-- The use that a step makes a variable for. -/
def site? : Step → Option UseSite
  | .newVariable site => some site
  | _ => none

/-- Subject, position and fact of the constraint that a step adds. -/
def constraint? : Step → Option (VarId × Nat × Fact)
  | .constrain subject position fact => some (subject, position, fact)
  | _ => none

/-- The variables whose classes a step merges. -/
def pair? : Step → Option (VarId × VarId)
  | .unify x y => some (x, y)
  | _ => none

/-- All variables that a step needs are among the first `made`. -/
def Scoped (made : Nat) : Step → Prop
  | .newVariable _ => True
  | .constrain subject _ fact => subject.index < made ∧ ∀ t ∈ fact.target?, t.index < made
  | .unify x y => x.index < made ∧ y.index < made

instance (made : Nat) : (step : Step) → Decidable (step.Scoped made)
  | .newVariable _ => inferInstanceAs (Decidable True)
  | .constrain subject _ fact =>
    inferInstanceAs (Decidable (subject.index < made ∧ ∀ t ∈ fact.target?, t.index < made))
  | .unify x y => inferInstanceAs (Decidable (x.index < made ∧ y.index < made))

end Step

/-- Steps to be performed one after the other. -/
abbrev Script := List Step

namespace Script

/-- Perform all steps, until one fails. -/
def perform : Script → ArenaM Unit
  | [] => return ()
  | step :: steps => do
    step.perform
    perform steps

/-- The uses that a script makes variables for. -/
def sites (script : Script) : List UseSite :=
  script.filterMap Step.site?

/-- The constraints that a script adds, numbered. -/
def constraints (script : Script) : List Constraint :=
  (script.filterMap Step.constraint?).mapIdx fun seq c => ⟨c.2.1, seq, c.1, c.2.2⟩

/-- The pairs of variables whose classes a script merges. -/
def pairs (script : Script) : List (VarId × VarId) :=
  script.filterMap Step.pair?

/-- The equivalence closure of the merged pairs. -/
def Linked (script : Script) : VarId → VarId → Prop :=
  Relation.EqvGen fun x y => (x, y) ∈ script.pairs

/-- Every variable is made before it is needed, if `made` variables are there already. -/
def Scoped : (made : Nat) → Script → Prop
  | _, [] => True
  | made, step :: steps => step.Scoped made ∧ Scoped (made + (sites [step]).length) steps

/-- Whether a script is scoped can be decided step by step. -/
def decidableScoped : (made : Nat) → (script : Script) → Decidable (Scoped made script)
  | _, [] => inferInstanceAs (Decidable True)
  | made, step :: steps =>
    have := decidableScoped (made + (sites [step]).length) steps
    inferInstanceAs (Decidable (step.Scoped made ∧ Scoped (made + (sites [step]).length) steps))

instance (made : Nat) (script : Script) : Decidable (Scoped made script) :=
  decidableScoped made script

/-- A record says of the class of `x` what can be read off the script. -/
structure Gathered (script : Script) (x : VarId) (record : ClassRecord) : Prop where
  id : IsLeast {i | script.Linked x ⟨i⟩} record.id.index
  mem_members : ∀ v, v ∈ record.members ↔ script.Linked x v
  members_ascending : record.members.Pairwise fun v w => v.index < w.index
  mem_constraints : ∀ c, c ∈ record.constraints ↔
    c ∈ script.constraints ∧ script.Linked x c.subject
  constraints_ascending : record.constraints.Pairwise fun c d => c.seq < d.seq
  state : record.state = if record.constraints = [] then .unresolved else .constrained

/-- The same variables and the same constraints, in the same order each, and the same merges in any
order and with their arguments in any order; how the three are interleaved is free. -/
structure Rearranges (script other : Script) : Prop where
  sites : other.sites = script.sites
  constraints : other.constraints = script.constraints
  pairs : (other.pairs.map fun p => s(p.1, p.2)).Perm (script.pairs.map fun p => s(p.1, p.2))

/-- A script makes its variables part by part. -/
lemma sites_append (script other : Script) :
    Script.sites (script ++ other) = script.sites ++ other.sites :=
  List.filterMap_append

/-- A script merges its pairs part by part. -/
lemma pairs_append (script other : Script) :
    Script.pairs (script ++ other) = script.pairs ++ other.pairs :=
  List.filterMap_append

/-- A constraint that is added last has the number of constraints before it. -/
lemma constraints_snoc (script : Script) (v : VarId) (position : Nat) (fact : Fact) :
    Script.constraints (script ++ [.constrain v position fact]) =
      script.constraints ++ [⟨position, script.constraints.length, v, fact⟩] := by
  simp [constraints, Step.constraint?, List.filterMap_append]

/-- A last step that makes no variable leaves the uses as they are. -/
lemma sites_snoc_of_none (script : Script) {step : Step} (none : step.site? = none) :
    Script.sites (script ++ [step]) = script.sites := by
  simp [sites, none, List.filterMap_append]

/-- A last step that merges nothing leaves the pairs as they are. -/
lemma pairs_snoc_of_none (script : Script) {step : Step} (none : step.pair? = none) :
    Script.pairs (script ++ [step]) = script.pairs := by
  simp [pairs, none, List.filterMap_append]

/-- A last step that adds no constraint leaves the constraints as they are. -/
lemma constraints_snoc_of_none (script : Script) {step : Step} (none : step.constraint? = none) :
    Script.constraints (script ++ [step]) = script.constraints := by
  simp [constraints, none, List.filterMap_append]

/-- What links every merged pair of a script links all that the script links. -/
lemma Linked.of_pairs {script other : Script}
    (each : ∀ {x y}, (x, y) ∈ script.pairs → other.Linked x y) {x y : VarId}
    (li : script.Linked x y) : other.Linked x y := by
  induction li with
  | rel x y mem => exact each mem
  | refl x => exact .refl x
  | symm x y _ ih => exact .symm x y ih
  | trans x y z _ _ ih ih' => exact .trans x y z ih ih'

/-- More steps link no less. -/
lemma Linked.append {script : Script} {x y : VarId} (li : script.Linked x y) (other : Script) :
    Linked (script ++ other) x y := by
  refine li.of_pairs fun mem => .rel _ _ ?_
  rw [pairs_append]
  exact List.mem_append_left _ mem

end Script

/-- The uses that the variables of an arena were made for. -/
def Arena.sites (a : Arena) : List UseSite :=
  a.store.toList.map (·.site)

/-- There is one use for each variable. -/
@[simp] lemma Arena.length_sites (a : Arena) : a.sites.length = a.size := by
  simp [sites, VariableStore.toList, Arena.size, VariableStore.size]

/-- The use of a new variable comes last. -/
lemma Arena.sites_addVariable (a : Arena) (site : UseSite) :
    (a.addVariable site).sites = a.sites ++ [site] := by
  simp [sites, addVariable, VariableStore.toList, VariableStore.push]

/-- Recording a first type changes no use. -/
lemma ArenaM.sites_storeWith (a : Arena) (v : VarId) (evidence : Option DataType) :
    (storeWith a v evidence).toList.map (·.site) = a.sites := by
  cases evidence with
  | none => rfl
  | some t =>
    apply List.ext_getElem?
    intro i
    simp only [storeWith, Arena.sites, VariableStore.toList, VariableStore.recordFirst,
      List.getElem?_map, Array.getElem?_toList, Array.getElem?_modify]
    split
    · rw [Option.map_map]
      rfl
    · rfl

/-- A merge that succeeds links the variables of two classes, and no others. -/
lemma ArenaM.UnionOutcome.leaderOf_eq_iff {a b : Arena} {log x y c} (co : a.Coherent log)
    (out : UnionOutcome a x y (.ok c b)) (i j : Nat) :
    b.forest.leaderOf i = b.forest.leaderOf j ↔
      a.forest.leaderOf i = a.forest.leaderOf j ∨
      (a.forest.leaderOf i = a.forest.leaderOf x ∧ a.forest.leaderOf j = a.forest.leaderOf y) ∨
      (a.forest.leaderOf i = a.forest.leaderOf y ∧ a.forest.leaderOf j = a.forest.leaderOf x) := by
  cases out with
  | same same cp =>
    rw [cp.leaderOf_eq co, cp.leaderOf_eq co]
    omega
  | merged _ _ _ elo ehi mg =>
    rw [mg.leaderOf, mg.leaderOf]
    split <;> split <;> omega

/-- The invariant of a script: the arena holds what can be read off the steps performed so far. -/
structure Script.Gathers (script : Script) (a : Arena) : Prop where
  coherent : a.Coherent script.constraints
  uses : a.sites = script.sites
  linked : ∀ {x y : VarId}, a.forest.leaderOf x.index = a.forest.leaderOf y.index ↔
    script.Linked x y
  unjudged : a.Unjudged

namespace Script

/-- An arena has as many variables as its script makes. -/
lemma Gathers.size {script : Script} {a : Arena} (ga : script.Gathers a) :
    a.size = script.sites.length := by
  rw [← ga.uses, Arena.length_sites]

/-- The empty arena holds what the empty script gathers. -/
lemma Gathers.empty : Gathers [] Arena.empty where
  coherent := Arena.empty_coherent
  uses := rfl
  linked := by
    intro x y
    constructor
    · intro e
      have own : ∀ i, Arena.empty.forest.leaderOf i = i :=
        fun i => Forest.leaderOf_of_size_le (Nat.zero_le i)
      rw [own, own] at e
      cases x; cases y; cases e
      exact .refl _
    · intro li
      induction li with
      | rel x y mem => simp [pairs] at mem
      | refl x => rfl
      | symm x y _ ih => exact ih.symm
      | trans x y z _ _ ih ih' => exact ih.trans ih'
  unjudged := Arena.empty_unjudged

/-- A new variable keeps the invariant. -/
lemma Gathers.newVariable {script : Script} {a : Arena} (ga : script.Gathers a) (site : UseSite) :
    Gathers (script ++ [.newVariable site]) (a.addVariable site) where
  coherent := by
    rw [constraints_snoc_of_none script rfl]
    exact ga.coherent.addVariable site
  uses := by
    rw [Arena.sites_addVariable, ga.uses, sites_append]
    rfl
  linked := by
    intro x y
    rw [ga.coherent.leaderOf_addVariable, ga.coherent.leaderOf_addVariable, ga.linked, Linked,
      Linked, pairs_snoc_of_none script rfl]
  unjudged := ga.unjudged.addVariable site

/-- A constraint that is accepted keeps the invariant. -/
lemma Gathers.constrain {script : Script} {a : Arena} (ga : script.Gathers a) {v : VarId}
    (position : Nat) (fact : Fact) {store : VariableStore}
    (sites : store.toList.map (·.site) = a.sites) (lt : v.index < a.size) :
    Gathers (script ++ [.constrain v position fact])
      (a.withConstraint store ⟨position, a.nextSeq, v, fact⟩) := by
  have seq : script.constraints.length = a.nextSeq := by
    simpa using congrArg List.length ga.coherent.seq
  have size : store.size = a.size := by
    rw [← a.length_sites, ← sites, List.length_map]
    exact Array.length_toList.symm
  have co : (a.withConstraint store ⟨position, a.nextSeq, v, fact⟩).Coherent
      (script.constraints ++ [⟨position, a.nextSeq, v, fact⟩]) :=
    ga.coherent.withConstraint size rfl lt
  refine ⟨?_, ?_, ?_, ga.unjudged.withConstraint ga.coherent co⟩
  · rw [constraints_snoc, seq]
    exact co
  · rw [sites_snoc_of_none script rfl]
    exact sites.trans ga.uses
  · intro x y
    rw [Linked, pairs_snoc_of_none script rfl]
    exact ga.linked

/-- A merge that succeeds, whether the classes were one already or not. -/
lemma Gathers.unify {script : Script} {a b : Arena} {c : ClassId} (ga : script.Gathers a)
    {x y : VarId} (out : ArenaM.UnionOutcome a x.index y.index (.ok c b)) :
    Gathers (script ++ [.unify x y]) b where
  coherent := by
    rw [constraints_snoc_of_none script rfl]
    exact ga.coherent.unionOutcome out
  uses := by
    have store : b.store = a.store := by
      cases out with
      | same _ cp => exact cp.retouches.store
      | merged _ _ _ _ _ mg => exact mg.store
    rw [Arena.sites, store, sites_snoc_of_none script rfl]
    exact ga.uses
  linked := by
    intro u v
    have joins := out.leaderOf_eq_iff ga.coherent
    have pairs : Script.pairs (script ++ [.unify x y]) = script.pairs ++ [(x, y)] :=
      pairs_append script [.unify x y]
    have link : Linked (script ++ [.unify x y]) x y := by
      refine .rel x y ?_
      rw [pairs]
      exact List.mem_append_right _ List.mem_cons_self
    constructor
    · intro e
      rcases (joins _ _).1 e with old | ⟨ux, vy⟩ | ⟨uy, vx⟩
      · exact (ga.linked.1 old).append _
      · exact .trans _ _ _ ((ga.linked.1 ux).append _)
          (.trans _ _ _ link (.symm _ _ ((ga.linked.1 vy).append _)))
      · exact .trans _ _ _ ((ga.linked.1 uy).append _)
          (.trans _ _ _ (.symm _ _ link) (.symm _ _ ((ga.linked.1 vx).append _)))
    · intro li
      -- sharing a class is an equivalence, so it is enough to look at the pairs that were united
      induction li with
      | rel u v mem =>
        rw [pairs, List.mem_append, List.mem_singleton] at mem
        rcases mem with old | new
        · exact (joins _ _).2 (.inl (ga.linked.2 (.rel _ _ old)))
        · cases new
          exact (joins _ _).2 (.inr (.inl ⟨rfl, rfl⟩))
      | refl u => rfl
      | symm u v _ ih => exact ih.symm
      | trans u v w _ _ ih ih' => exact ih.trans ih'
  unjudged := by
    cases out with
    | same _ cp => exact cp.unjudged ga.unjudged
    | merged _ _ _ _ _ mg => exact ga.unjudged.merges ga.coherent mg

/-! ## Which scripts succeed -/

/-- Only a fact that points to a variable that is not there is refused. -/
lemma directEvidence_isOk {a : Arena} {log} (co : a.Coherent log) {fact : Fact} :
    (∃ evidence, a.directEvidence fact = .ok evidence) ↔ ∀ t ∈ fact.target?, t.index < a.size := by
  cases fact with
  | pointsTo target =>
    constructor
    · rintro ⟨evidence, ok⟩ _ ⟨⟩
      by_contra ge
      have gone : a.classOf? target = none := by
        rw [Arena.classOf?, Arena.representative?, if_neg (co.forest_size.symm ▸ ge)]
      rw [Arena.directEvidence_pointsTo, gone] at ok
      cases ok
    · intro targets
      refine ⟨some (.pointer ⟨a.forest.leaderOf target.index⟩), ?_⟩
      rw [Arena.directEvidence_pointsTo, co.classOf?_eq (targets target rfl)]
  | _ => exact ⟨fun _ _ mem => (by cases mem), fun _ => ⟨_, rfl⟩⟩

/-- A step succeeds if all that it needs is there. -/
lemma Gathers.perform_step {script : Script} {a : Arena} (ga : script.Gathers a) {step : Step}
    (sc : step.Scoped a.size) :
    ∃ b, step.perform a = .ok () b ∧ Gathers (script ++ [step]) b := by
  have co := ga.coherent
  have open_ := fun {i} => co.isFinalized_eq_false (i := i) ga.unjudged.unfrozen
  cases step with
  | newVariable site => exact ⟨_, rfl, ga.newVariable site⟩
  | constrain v position fact =>
    obtain ⟨lt, targets⟩ := sc
    obtain ⟨evidence, ok⟩ := (directEvidence_isOk co).2 targets
    have out := ArenaM.constrain_of_lt co position fact lt
    simp only [Step.perform]
    generalize ArenaM.constrain v position fact a = res at out
    cases out with
    | finalized fin => rw [open_ lt] at fin; cases fin
    | unallocated _ failed => rw [ok] at failed; cases failed
    | added _ _ => exact ⟨_, rfl, ga.constrain position fact (ArenaM.sites_storeWith _ _ _) lt⟩
  | unify x y =>
    obtain ⟨ltx, lty⟩ := sc
    have out := ArenaM.unify_of_lt co ltx lty
    generalize run : ArenaM.unify x y a = res at out
    cases res with
    | ok c b =>
      refine ⟨b, ?_, ga.unify out⟩
      rw [Step.perform, bind_of_ok run]
      rfl
    | error e b =>
      cases out with
      | finalized _ fin _ => simp [open_ ltx, open_ lty] at fin

/-- A step that succeeds has all that it needs. -/
lemma Gathers.scoped_step {script : Script} {a b : Arena} (ga : script.Gathers a) {step : Step}
    (run : step.perform a = .ok () b) : step.Scoped a.size := by
  have co := ga.coherent
  cases step with
  | newVariable site => trivial
  | constrain v position fact =>
    simp only [Step.perform] at run
    rcases Nat.lt_or_ge v.index a.size with lt | ge
    · have out := ArenaM.constrain_of_lt co position fact lt
      rw [run] at out
      cases out with
      | added _ ok => exact ⟨lt, (directEvidence_isOk co).1 ⟨_, ok⟩⟩
    · rw [ArenaM.constrain, bind_of_error (ArenaM.requireVariable_of_size_le ge)] at run
      cases run
  | unify x y =>
    simp only [Step.perform, ArenaM.unify] at run
    rcases Nat.lt_or_ge x.index a.size with ltx | gex
    · rcases Nat.lt_or_ge y.index a.size with lty | gey
      · exact ⟨ltx, lty⟩
      · rw [bind_of_error] at run
        · cases run
        · rw [bind_of_ok (ArenaM.requireVariable_of_lt ltx)]
          exact bind_of_error (ArenaM.requireVariable_of_size_le gey)
    · rw [bind_of_error] at run
      · cases run
      · exact bind_of_error (ArenaM.requireVariable_of_size_le gex)

/-- A script succeeds if every variable is made before it is needed. -/
lemma Gathers.perform {script : Script} {a : Arena} (ga : script.Gathers a) {steps : Script}
    (sc : Scoped a.size steps) :
    ∃ b, Script.perform steps a = .ok () b ∧ Gathers (script ++ steps) b := by
  induction steps generalizing script a with
  | nil => exact ⟨a, rfl, by rwa [List.append_nil]⟩
  | cons step steps ih =>
    obtain ⟨here, later⟩ := sc
    obtain ⟨b, run, gb⟩ := ga.perform_step here
    have size : b.size = a.size + (sites [step]).length := by
      rw [gb.size, ga.size, sites_append, List.length_append]
    obtain ⟨c, run', gc⟩ := ih gb (size ▸ later)
    refine ⟨c, ?_, by rwa [List.append_assoc] at gc⟩
    rw [Script.perform, bind_of_ok run, run']

/-- A script that succeeds makes every variable before it is needed. -/
lemma Gathers.scoped {script : Script} {a b : Arena} (ga : script.Gathers a) {steps : Script}
    (run : Script.perform steps a = .ok () b) : Scoped a.size steps := by
  induction steps generalizing script a with
  | nil => trivial
  | cons step steps ih =>
    rw [Script.perform] at run
    obtain ⟨_, c, run, run'⟩ := bind_eq_ok.1 run
    have here := ga.scoped_step run
    obtain ⟨c', ran, gc⟩ := ga.perform_step here
    obtain rfl : c' = c := by rw [run] at ran; cases ran; rfl
    have size : c'.size = a.size + (sites [step]).length := by
      rw [gc.size, ga.size, sites_append, List.length_append]
    exact ⟨here, size ▸ ih gc run'⟩

/-- A script that succeeds on the empty arena leaves what it gathers. -/
lemma Gathers.of_perform {script : Script} {a : Arena}
    (run : script.perform .empty = .ok () a) : script.Gathers a := by
  obtain ⟨b, ran, ga⟩ := Gathers.empty.perform (Gathers.empty.scoped run)
  rw [run] at ran
  cases ran
  exact ga

/-! ## What a script leaves behind -/

/-- The class of a variable holds what can be read off the script. -/
lemma Gathers.gathered {script : Script} {a : Arena} (ga : script.Gathers a) {x : VarId}
    (lt : x.index < a.size) :
    ∃ record ∈ a.liveClasses, a.classFor? x = some record ∧ script.Gathered x record := by
  have co := ga.coherent
  obtain ⟨record, mem, h⟩ := co.leader_live lt
  have id : record.id.index = a.forest.leaderOf x.index := by rw [h.id]
  have found := (co.mem_liveClasses.1 mem).1
  refine ⟨record, mem, ?_, ?_, ?_, ?_, ?_, ?_, (ga.unjudged record mem).2⟩
  · rw [h.id] at found
    rw [Arena.classFor?, co.classOf?_eq lt]
    exact found
  · rw [id]
    refine ⟨ga.linked.1 (co.forest.leaderOf_leaderOf _).symm, fun i li => ?_⟩
    rw [ga.linked.2 li]
    exact co.forest.leaderOf_le i
  · intro v
    rw [h.members, Arena.mem_followers, ← ga.linked, eq_comm (a := a.forest.leaderOf v.index)]
    refine and_iff_right_of_imp fun e => ?_
    -- a variable that is not there follows nobody else
    by_contra ge
    have := co.leaderOf_lt lt
    rw [e, Forest.leaderOf_of_size_le (by rw [co.forest_size]; omega)] at this
    exact ge this
  · exact co.members_ascending mem
  · intro c
    rw [co.mem_constraints mem, ← ga.linked, id, eq_comm (a := a.forest.leaderOf x.index)]
  · rw [h.constraints]
    exact co.log_ascending.filter _

/-- A live record is determined by the leaders and the log. -/
lemma Gathers.record_eq {script : Script} {a : Arena} (ga : script.Gathers a)
    {record : ClassRecord} (mem : record ∈ a.liveClasses) :
    record =
      { id := record.id
        members := a.followers record.id.index
        constraints := a.evidence script.constraints record.id.index
        state := if a.evidence script.constraints record.id.index = [] then .unresolved
          else .constrained
        dataType := none
        absorbedInto := none } := by
  have h := ga.coherent.records_live mem
  obtain ⟨dataType, state⟩ := ga.unjudged record mem
  have live : record.absorbedInto = none := by
    simpa [ClassRecord.isLive] using List.of_mem_filter mem
  rw [← h.constraints, ← state, ← h.members, ← dataType, ← live]

/-- Scripts that merge the same pairs link the same variables. -/
lemma Rearranges.linked_iff {script other : Script} (re : script.Rearranges other) {x y : VarId} :
    other.Linked x y ↔ script.Linked x y := by
  have links : ∀ {s t : Script}, (∀ p ∈ s.pairs.map fun p => s(p.1, p.2),
      p ∈ t.pairs.map fun p => s(p.1, p.2)) → ∀ {x y}, (x, y) ∈ s.pairs → t.Linked x y := by
    intro s t sub x y mem
    obtain ⟨⟨u, v⟩, inside, e⟩ := List.mem_map.1 (sub _ (List.mem_map_of_mem mem))
    rcases Sym2.eq_iff.1 e with ⟨rfl, rfl⟩ | ⟨rfl, rfl⟩
    · exact .rel _ _ inside
    · exact .symm _ _ (.rel _ _ inside)
  constructor
  · exact Linked.of_pairs (links fun p mem => re.pairs.mem_iff.1 mem)
  · exact Linked.of_pairs (links fun p mem => re.pairs.mem_iff.2 mem)

/-- The leader is the lowest variable that is linked, so it is determined by the links. -/
lemma Gathers.leaderOf_eq {script other : Script} {a b : Arena} (ga : script.Gathers a)
    (gb : other.Gathers b) (same : ∀ {x y}, other.Linked x y ↔ script.Linked x y) (i : Nat) :
    b.forest.leaderOf i = a.forest.leaderOf i := by
  have below : ∀ {s t : Script} {c d : Arena}, s.Gathers c → t.Gathers d →
      (∀ {x y}, t.Linked x y → s.Linked x y) → c.forest.leaderOf i ≤ d.forest.leaderOf i := by
    intro s t c d gc gd sub
    have li : t.Linked ⟨i⟩ ⟨d.forest.leaderOf i⟩ :=
      gd.linked.1 (gd.coherent.forest.leaderOf_leaderOf i).symm
    rw [gc.linked.2 (sub li)]
    exact gc.coherent.forest.leaderOf_le _
  exact le_antisymm (below gb ga same.2) (below ga gb same.1)

/-- Rearranged scripts leave the same live classes behind. -/
lemma Gathers.liveClasses_eq {script other : Script} {a b : Arena} (ga : script.Gathers a)
    (gb : other.Gathers b) (re : script.Rearranges other) : b.liveClasses = a.liveClasses := by
  have leaderOf := ga.leaderOf_eq gb re.linked_iff
  have size : b.size = a.size := by rw [ga.size, gb.size, re.sites]
  have ids : b.liveIds = a.liveIds := by
    simp only [ga.coherent.liveIds_eq, gb.coherent.liveIds_eq, size, leaderOf]
  have followers : ∀ c, b.followers c = a.followers c := by
    simp only [Arena.followers, Arena.vars, size, leaderOf, implies_true]
  have evidence : ∀ c, b.evidence other.constraints c = a.evidence script.constraints c := by
    simp only [Arena.evidence, leaderOf, re.constraints, implies_true]
  refine List.ext_getElem? fun k => ?_
  have at_k : (b.liveClasses[k]?).map (·.id) = (a.liveClasses[k]?).map (·.id) := by
    rw [← List.getElem?_map, ← List.getElem?_map]
    exact congrArg (·[k]?) ids
  cases found : a.liveClasses[k]? with
  | none =>
    rw [found] at at_k
    simpa using at_k
  | some record =>
    rw [found] at at_k
    obtain ⟨twin, found', id⟩ := Option.map_eq_some_iff.1 at_k
    rw [found', gb.record_eq (List.mem_of_getElem? found'),
      ga.record_eq (List.mem_of_getElem? found), id, followers, evidence]

/-- What a script that succeeds leaves in the class of a variable is what can be read off it. If it
is rearranged, it succeeds as long as every variable is made before it is needed, and then it leaves
the same live classes. -/
theorem liveClasses_rearranged {script : Script} {a : Arena}
    (run : script.perform .empty = .ok () a) :
    (∀ x : VarId, x.index < a.size →
      ∃ record ∈ a.liveClasses, a.classFor? x = some record ∧ script.Gathered x record) ∧
    ∀ other : Script, script.Rearranges other →
      ((∃ b, other.perform .empty = .ok () b) ↔ Scoped 0 other) ∧
      ∀ b, other.perform .empty = .ok () b → b.liveClasses = a.liveClasses := by
  have ga := Gathers.of_perform run
  refine ⟨fun x lt => ga.gathered lt, fun other re => ⟨?_, fun b run' => ?_⟩⟩
  · constructor
    · rintro ⟨b, run'⟩
      exact Gathers.empty.scoped run'
    · intro sc
      obtain ⟨b, run', _⟩ := Gathers.empty.perform sc
      exact ⟨b, run'⟩
  · exact ga.liveClasses_eq (.of_perform run') re

/-- Three variables that are merged from the last to the first. -/
def chain : Script :=
  [.newVariable (.storage "p"), .newVariable (.storage "q"), .newVariable (.storage "r"),
    .constrain ⟨2⟩ 0 (.size 4), .unify ⟨2⟩ ⟨1⟩, .constrain ⟨0⟩ 1 (.constant 4), .unify ⟨1⟩ ⟨0⟩]

/-- The same variables, merged from the first to the last and before the constraints. -/
def chainReversed : Script :=
  [.newVariable (.storage "p"), .newVariable (.storage "q"), .unify ⟨0⟩ ⟨1⟩,
    .newVariable (.storage "r"), .unify ⟨1⟩ ⟨2⟩, .constrain ⟨2⟩ 0 (.size 4),
    .constrain ⟨0⟩ 1 (.constant 4)]

/-- The second script is a rearrangement of the first. -/
lemma chain_rearranges : chain.Rearranges chainReversed :=
  ⟨rfl, rfl, by decide⟩

/-- Both ways of merging three variables leave one class, with both constraints. -/
theorem liveClasses_chain :
    ∃ a b, chain.perform .empty = .ok () a ∧ chainReversed.perform .empty = .ok () b ∧
      (∃ record ∈ a.liveClasses, a.classFor? ⟨2⟩ = some record ∧ chain.Gathered ⟨2⟩ record) ∧
      b.liveClasses = a.liveClasses := by
  have sc : Scoped Arena.empty.size chain := by decide
  have sc' : Scoped 0 chainReversed := by decide
  obtain ⟨a, run, ga⟩ := Gathers.empty.perform sc
  obtain ⟨gathered, rearranged⟩ := liveClasses_rearranged run
  obtain ⟨succeeds, same⟩ := rearranged chainReversed chain_rearranges
  obtain ⟨b, run'⟩ := succeeds.2 sc'
  have lt : (2 : Nat) < a.size := by
    rw [ga.size]
    decide
  exact ⟨a, b, run, run', gathered ⟨2⟩ lt, same b run'⟩

end Script

end TypeRecovery
