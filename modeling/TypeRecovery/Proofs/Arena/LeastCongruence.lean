import TypeRecovery.Arena.Congruence
import TypeRecovery.Proofs.Arena.Calls

/-!
# Closing computes the least congruence

`Congruent` is what the evidence of an arena forces together: the least equivalence that contains
the classes, and in which what equivalent variables point into is equivalent, and so are the values
at the same part of equivalent aggregates. The main statement is `close_iff_congruent`: closing
always succeeds, and afterwards two variables share a class if and only if they are congruent.

`Approaches` is the invariant of the rounds. Every step is described by `Closes`: it merges only
what is congruent, the live classes become fewer by the number of merges it reports, and if it
reports none then it changed nothing and there was nothing to do. So the rounds end, and the last
one, which merges nothing, has seen that nothing is left.
-/

namespace TypeRecovery

/-! ## Parts of aggregates -/

namespace FieldAccess

/-- The order of fields is total. -/
lemma keyLt_total : Ascending.Total FieldAccess.keyLt := by
  rintro ⟨o, w⟩ ⟨o', w'⟩ h h'
  simp only [keyLt, Bool.or_eq_false_iff, Bool.and_eq_false_iff, decide_eq_false_iff_not,
    beq_eq_false_iff_ne] at h h'
  have offset : o = o' := Int64.le_antisymm (Int64.not_lt.1 h'.1) (Int64.not_lt.1 h.1)
  subst offset
  have width : w = w' := by
    refine UInt8.le_antisymm (UInt8.not_lt.1 ?_) (UInt8.not_lt.1 ?_)
    · simpa using h'.2
    · simpa using h.2
  rw [width]

end FieldAccess

namespace ElementAccess

/-- The order of elements is total. -/
lemma keyLt_total : Ascending.Total ElementAccess.keyLt := by
  rintro ⟨o, s, w⟩ ⟨o', s', w'⟩ h h'
  simp only [keyLt, Bool.or_eq_false_iff, Bool.and_eq_false_iff, decide_eq_false_iff_not,
    beq_eq_false_iff_ne] at h h'
  have offset : o = o' := Int64.le_antisymm (Int64.not_lt.1 h'.1) (Int64.not_lt.1 h.1)
  subst offset
  simp only [ne_eq, not_true_eq_false, false_or] at h h'
  have stride : s = s' := UInt32.le_antisymm (UInt32.not_lt.1 h'.2.1) (UInt32.not_lt.1 h.2.1)
  subst stride
  have width : w = w' := by
    refine UInt8.le_antisymm (UInt8.not_lt.1 ?_) (UInt8.not_lt.1 ?_)
    · simpa using h'.2.2
    · simpa using h.2.2
  rw [width]

end ElementAccess

namespace Fact

/-- Two facts about variables of one class force two variables into one class. -/
inductive Forces : Fact → Fact → VarId → VarId → Prop
  | targets {t u} : Forces (.pointsTo t) (.pointsTo u) t u
  | fields {f g : FieldAccess} : f.offset = g.offset → f.width = g.width →
    Forces (.field f) (.field g) f.value g.value
  | elements {e g : ElementAccess} : e.offset = g.offset → e.stride = g.stride →
    e.width = g.width → Forces (.element e) (.element g) e.value g.value

/-- Only pointers have a target. -/
lemma target?_eq_some {fact : Fact} {v : VarId} :
    fact.target? = some v ↔ fact = .pointsTo v := by
  cases fact <;> simp [target?]

/-- Only accesses to fields access a field. -/
lemma field?_eq_some {fact : Fact} {access : FieldAccess} :
    fact.field? = some access ↔ fact = .field access := by
  cases fact <;> simp [field?]

/-- Only accesses to elements access an element. -/
lemma element?_eq_some {fact : Fact} {access : ElementAccess} :
    fact.element? = some access ↔ fact = .element access := by
  cases fact <;> simp [element?]

/-- The variable that a fact can force into a class. -/
def linked? : Fact → Option VarId
  | .pointsTo target => some target
  | .field access => some access.value
  | .element access => some access.value
  | _ => none

/-- A variable that a fact forces into a class is linked to the fact. -/
lemma Forces.linked_left {p q : Fact} {v w : VarId} (fo : Forces p q v w) :
    p.linked? = some v := by
  cases fo <;> rfl

end Fact

namespace ClassRecord

/-- Two values are in one group if accesses to one field saw them. -/
lemma mem_fieldGroups {c : ClassRecord} {v w : VarId} :
    (∃ group ∈ c.fieldGroups, v ∈ group ∧ w ∈ group) ↔
      ∃ f ∈ c.fields, ∃ g ∈ c.fields, f.key = g.key ∧ f.value = v ∧ g.value = w :=
  Ascending.mem_groups FieldAccess.keyLt_total

/-- Two values are in one group if accesses to one row of elements saw them. -/
lemma mem_elementGroups {c : ClassRecord} {v w : VarId} :
    (∃ group ∈ c.elementGroups, v ∈ group ∧ w ∈ group) ↔
      ∃ e ∈ c.elements, ∃ g ∈ c.elements, e.key = g.key ∧ e.value = v ∧ g.value = w :=
  Ascending.mem_groups ElementAccess.keyLt_total

/-- Two variables are in one group if two facts of the class force them together. -/
lemma mem_congruentGroups {c : ClassRecord} {v w : VarId} :
    (∃ group ∈ c.congruentGroups, v ∈ group ∧ w ∈ group) ↔
      ∃ x ∈ c.constraints, ∃ y ∈ c.constraints, Fact.Forces x.fact y.fact v w := by
  constructor
  · rintro ⟨group, mem, inside⟩
    rcases List.mem_cons.1 mem with rfl | mem
    · obtain ⟨x, memx, ex⟩ := List.mem_filterMap.1 inside.1
      obtain ⟨y, memy, ey⟩ := List.mem_filterMap.1 inside.2
      rw [Fact.target?_eq_some] at ex ey
      exact ⟨x, memx, y, memy, by rw [ex, ey]; exact .targets⟩
    · rcases List.mem_append.1 mem with mem | mem
      · obtain ⟨f, inf, g, ing, key, rfl, rfl⟩ := mem_fieldGroups.1 ⟨group, mem, inside⟩
        obtain ⟨x, memx, ex⟩ := List.mem_filterMap.1 inf
        obtain ⟨y, memy, ey⟩ := List.mem_filterMap.1 ing
        rw [Fact.field?_eq_some] at ex ey
        simp only [FieldAccess.key, Prod.mk.injEq] at key
        exact ⟨x, memx, y, memy, by rw [ex, ey]; exact .fields key.1 key.2⟩
      · obtain ⟨e, ine, g, ing, key, rfl, rfl⟩ := mem_elementGroups.1 ⟨group, mem, inside⟩
        obtain ⟨x, memx, ex⟩ := List.mem_filterMap.1 ine
        obtain ⟨y, memy, ey⟩ := List.mem_filterMap.1 ing
        rw [Fact.element?_eq_some] at ex ey
        simp only [ElementAccess.key, Prod.mk.injEq] at key
        exact ⟨x, memx, y, memy, by rw [ex, ey]; exact .elements key.1 key.2.1 key.2.2⟩
  · rintro ⟨x, memx, y, memy, forces⟩
    generalize ex : x.fact = p at forces
    generalize ey : y.fact = q at forces
    cases forces with
    | targets =>
      refine ⟨c.targets, List.mem_cons_self, ?_, ?_⟩
      · exact List.mem_filterMap.2 ⟨x, memx, Fact.target?_eq_some.2 ex⟩
      · exact List.mem_filterMap.2 ⟨y, memy, Fact.target?_eq_some.2 ey⟩
    | @fields f g offset width =>
      have inf : f ∈ c.fields := List.mem_filterMap.2 ⟨x, memx, Fact.field?_eq_some.2 ex⟩
      have ing : g ∈ c.fields := List.mem_filterMap.2 ⟨y, memy, Fact.field?_eq_some.2 ey⟩
      have key : f.key = g.key := Prod.ext offset width
      obtain ⟨group, mem, inside⟩ := mem_fieldGroups.2 ⟨f, inf, g, ing, key, rfl, rfl⟩
      exact ⟨group, List.mem_cons_of_mem _ (List.mem_append_left _ mem), inside⟩
    | @elements e g offset stride width =>
      have ine : e ∈ c.elements := List.mem_filterMap.2 ⟨x, memx, Fact.element?_eq_some.2 ex⟩
      have ing : g ∈ c.elements := List.mem_filterMap.2 ⟨y, memy, Fact.element?_eq_some.2 ey⟩
      have key : e.key = g.key := Prod.ext offset (Prod.ext stride width)
      obtain ⟨group, mem, inside⟩ := mem_elementGroups.2 ⟨e, ine, g, ing, key, rfl, rfl⟩
      exact ⟨group, List.mem_cons_of_mem _ (List.mem_append_right _ mem), inside⟩

end ClassRecord

namespace Arena

/-! ## Congruence -/

/-- What the evidence of an arena forces together: the least equivalence that contains the classes
and is closed under what facts about equivalent variables force. -/
inductive Congruent (a : Arena) : VarId → VarId → Prop
  | same {x y} : a.SameClass x y → Congruent a x y
  | symm {x y} : Congruent a x y → Congruent a y x
  | trans {x y z} : Congruent a x y → Congruent a y z → Congruent a x z
  | force {x y p q v w} : Congruent a x y → a.Holds x p → a.Holds y q → Fact.Forces p q v w →
    Congruent a v w

/-- Labels that are the same within classes, and for variables that facts force together, are the
same for all congruent variables. -/
lemma Congruent.label_eq {a : Arena} {label : VarId → Nat}
    (classes : ∀ {x y}, a.SameClass x y → label x = label y)
    (forced : ∀ {x y p q v w}, label x = label y → a.Holds x p → a.Holds y q →
      Fact.Forces p q v w → label v = label w)
    {x y : VarId} (cong : a.Congruent x y) : label x = label y := by
  induction cong with
  | same together => exact classes together
  | symm _ ih => exact ih.symm
  | trans _ _ ih ih' => exact ih.trans ih'
  | force _ holdsx holdsy forces ih => exact forced ih holdsx holdsy forces

/-- Every variable that a fact can force into a class exists. -/
def Allocated (a : Arena) : Prop :=
  ∀ {x fact v}, a.Holds x fact → fact.linked? = some v → v.index < a.size

/-! ## One merge -/

/-- A merge brings the variables of two classes together, and no others. -/
lemma Merges.sameClass_cases {a b : Arena} {log lo hi} (mg : a.Merges b lo hi)
    (co : a.Coherent log) {x y : VarId} (same : b.SameClass x y) :
    a.SameClass x y ∨ (a.forest.leaderOf x.index = lo ∧ a.forest.leaderOf y.index = hi) ∨
      (a.forest.leaderOf x.index = hi ∧ a.forest.leaderOf y.index = lo) := by
  rw [(mg.coherent co).sameClass_iff, mg.size, mg.leaderOf, mg.leaderOf] at same
  obtain ⟨ltx, lty, e⟩ := same
  rw [co.sameClass_iff]
  split at e
  · split at e
    · exact .inl ⟨ltx, lty, by omega⟩
    · exact .inr (.inr ⟨by assumption, e.symm⟩)
  · split at e
    · exact .inr (.inl ⟨e, by assumption⟩)
    · exact .inl ⟨ltx, lty, e⟩

/-- A merge parts no variables. -/
lemma Merges.sameClass {a b : Arena} {log lo hi} (mg : a.Merges b lo hi) (co : a.Coherent log)
    {x y : VarId} (same : a.SameClass x y) : b.SameClass x y := by
  rw [co.sameClass_iff] at same
  rw [(mg.coherent co).sameClass_iff, mg.size, mg.leaderOf, mg.leaderOf, same.2.2]
  exact ⟨same.1, same.2.1, rfl⟩

/-- A merge leaves one live class less. -/
lemma Merges.length_liveIds {a b : Arena} {log lo hi} (mg : a.Merges b lo hi)
    (co : a.Coherent log) : b.liveIds.length + 1 = a.liveIds.length := by
  rw [(mg.coherent co).liveIds_eq, co.liveIds_eq, List.length_map, List.length_map, mg.size]
  have gone : ((List.range a.size).filter fun c => b.forest.leaderOf c = c) =
      ((List.range a.size).filter fun c => a.forest.leaderOf c = c).erase hi := by
    rw [(List.nodup_range.filter _).erase_eq_filter, List.filter_filter]
    refine List.filter_congr fun c _ => ?_
    rw [Bool.eq_iff_iff]
    simp [mg.leads_iff, and_comm]
  have mem : hi ∈ (List.range a.size).filter fun c => a.forest.leaderOf c = c := by
    simp [mg.hi_lt, mg.leads_hi]
  rw [gone, List.length_erase_of_mem mem]
  have := List.length_pos_of_mem mem
  omega

/-- A merge does not finalize a class. -/
lemma Merges.unfrozen {a b : Arena} {log lo hi} (mg : a.Merges b lo hi) (co : a.Coherent log)
    (uf : a.Unfrozen) : b.Unfrozen :=
  mg.forall_live co uf fun kept gone => by simp only [ClassRecord.takeOver]; split <;> simp

/-! ## The invariant of the rounds -/

/-- An arena on the way from `a` to the congruence closure: its classes contain those of `a`, and
everything that they hold together is congruent. -/
structure Approaches (a : Arena) (log : List Constraint) (b : Arena) : Prop where
  coherent : b.Coherent log
  store : b.store = a.store
  unfrozen : b.Unfrozen
  unjudged : a.Unjudged → b.Unjudged
  keeps : ∀ {x y}, a.SameClass x y → b.SameClass x y
  within : ∀ {x y}, b.SameClass x y → a.Congruent x y

/-- No variable is made on the way to the closure. -/
lemma Approaches.size {a b : Arena} {log} (ap : a.Approaches log b) : b.size = a.size := by
  simp only [Arena.size, ap.store]

/-- Merging the classes of congruent variables comes closer to the closure. -/
lemma Approaches.merge {a b c : Arena} {log lo hi} (ap : a.Approaches log b)
    (mg : b.Merges c lo hi) {x y : VarId} (cong : a.Congruent x y)
    (ltx : x.index < b.size) (lty : y.index < b.size)
    (ends : lo = b.forest.leaderOf x.index ∧ hi = b.forest.leaderOf y.index ∨
      lo = b.forest.leaderOf y.index ∧ hi = b.forest.leaderOf x.index) :
    a.Approaches log c where
  coherent := mg.coherent ap.coherent
  store := mg.store.trans ap.store
  unfrozen := mg.unfrozen ap.coherent ap.unfrozen
  unjudged uj := (ap.unjudged uj).merges ap.coherent mg
  keeps same := mg.sameClass ap.coherent (ap.keeps same)
  within := by
    intro u v same
    obtain ⟨ltu, ltv, _⟩ := (mg.coherent ap.coherent).sameClass_iff.1 same
    rw [mg.size] at ltu ltv
    have link : ∀ {p q : VarId}, p.index < b.size → q.index < b.size →
        b.forest.leaderOf p.index = b.forest.leaderOf q.index → a.Congruent p q :=
      fun ltp ltq e => ap.within (ap.coherent.sameClass_iff.2 ⟨ltp, ltq, e⟩)
    -- a new pair is linked through `x` and `y`, one way round or the other
    rcases mg.sameClass_cases ap.coherent same with old | ⟨eu, ev⟩ | ⟨eu, ev⟩
    · exact ap.within old
    · rcases ends with ⟨rfl, rfl⟩ | ⟨rfl, rfl⟩
      · exact (link ltu ltx eu).trans (cong.trans (link lty ltv ev.symm))
      · exact (link ltu lty eu).trans (cong.symm.trans (link ltx ltv ev.symm))
    · rcases ends with ⟨rfl, rfl⟩ | ⟨rfl, rfl⟩
      · exact (link ltu lty eu).trans (cong.symm.trans (link ltx ltv ev.symm))
      · exact (link ltu ltx eu).trans (cong.trans (link lty ltv ev.symm))

/-- A step that counts its merges: it comes closer to the closure of `a`, the live classes become
fewer by the count, and if it merges nothing, then nothing changes and `done` holds. -/
def Closes (a : Arena) (log : List Constraint) (step : ArenaM Nat) (done : Arena → Prop) : Prop :=
  ∀ b, a.Approaches log b → ∃ k c, step b = .ok k c ∧ a.Approaches log c ∧
    c.liveIds.length + k = b.liveIds.length ∧ (k = 0 → c = b ∧ done b)

/-- Steps that count their merges, one after the other. -/
lemma Closes.foldlM {α : Type} {a : Arena} {log} {step : α → ArenaM Nat} {l : List α}
    {done : α → Arena → Prop} (each : ∀ x ∈ l, a.Closes log (step x) (done x)) :
    a.Closes log (l.foldlM (fun merged x => return merged + (← step x)) 0)
      fun b => ∀ x ∈ l, done x b := by
  -- the count so far is generalized, as the fold carries it along
  suffices h : ∀ n b, a.Approaches log b → ∃ k c,
      (l.foldlM (fun merged x => return merged + (← step x)) n : ArenaM Nat) b = .ok (n + k) c ∧
      a.Approaches log c ∧ c.liveIds.length + k = b.liveIds.length ∧
      (k = 0 → c = b ∧ ∀ x ∈ l, done x b) by
    intro b ap
    obtain ⟨k, c, run, rest⟩ := h 0 b ap
    exact ⟨k, c, by rw [run, Nat.zero_add], rest⟩
  induction l with
  | nil => exact fun n b ap => ⟨0, b, rfl, ap, rfl, fun _ => ⟨rfl, by simp⟩⟩
  | cons x l ih =>
    intro n b ap
    obtain ⟨k, c, run, apc, count, none⟩ := each x List.mem_cons_self b ap
    obtain ⟨k', c', run', apc', count', none'⟩ :=
      ih (fun y mem => each y (List.mem_cons_of_mem _ mem)) (n + k) c apc
    refine ⟨k + k', c', ?_, apc', by omega, ?_⟩
    · have first : (do return n + (← step x) : ArenaM Nat) b = .ok (n + k) c := by
        rw [bind_of_ok run]
        rfl
      rw [List.foldlM_cons, bind_of_ok first, run', Nat.add_assoc]
    · intro zero
      obtain ⟨rfl, here⟩ := none (by omega)
      obtain ⟨rfl, there⟩ := none' (by omega)
      exact ⟨rfl, by simpa using ⟨here, there⟩⟩

/-! ## The steps of a round -/

/-- Congruent variables are merged, unless they share a class already. -/
lemma closes_mergeIfApart {a : Arena} {log x y} (cong : a.Congruent x y)
    (ltx : x.index < a.size) (lty : y.index < a.size) :
    a.Closes log (ArenaM.mergeIfApart x y) fun b => b.SameClass x y := by
  intro b ap
  have co := ap.coherent
  rw [← ap.size] at ltx lty
  have run : ArenaM.mergeIfApart x y b =
      if b.forest.leaderOf x.index = b.forest.leaderOf y.index then .ok 0 b
      else (do let _ ← ArenaM.unify x y; return 1 : ArenaM Nat) b := by
    rw [ArenaM.mergeIfApart, bind_of_ok (ArenaM.classOf_of_lt co ltx),
      bind_of_ok (ArenaM.classOf_of_lt co lty)]
    simp only [ClassId.mk.injEq]
    split <;> rfl
  rw [run]
  split
  · rename_i same
    exact ⟨0, b, rfl, ap, rfl, fun _ => ⟨rfl, co.sameClass_iff.2 ⟨ltx, lty, same⟩⟩⟩
  · rename_i apart
    have out := ArenaM.unify_of_lt co ltx lty
    generalize h : ArenaM.unify x y b = res at out
    cases out with
    | same same _ => exact absurd same apart
    | finalized _ fin _ =>
      rw [co.isFinalized_eq_false ap.unfrozen ltx, co.isFinalized_eq_false ap.unfrozen lty] at fin
      simp at fin
    | @merged c lo hi _ _ _ elo ehi mg =>
      refine ⟨1, c, by rw [bind_of_ok h]; rfl, ?_, mg.length_liveIds co, by omega⟩
      exact ap.merge mg cong ltx lty (by omega)

/-- A group of congruent variables is merged. -/
lemma closes_mergeGroup {a : Arena} {log} {group : List VarId}
    (exist : ∀ v ∈ group, v.index < a.size)
    (cong : ∀ v ∈ group, ∀ w ∈ group, a.Congruent v w) :
    a.Closes log (ArenaM.mergeGroup group) fun b =>
      ∀ v ∈ group, ∀ w ∈ group, b.SameClass v w := by
  cases group with
  | nil => exact fun b ap => ⟨0, b, rfl, ap, rfl, fun _ => ⟨rfl, by simp⟩⟩
  | cons first others =>
    have step : ∀ v ∈ others, a.Closes log (ArenaM.mergeIfApart first v)
        fun b => b.SameClass first v := by
      intro v mem
      have mem' := List.mem_cons_of_mem first mem
      exact closes_mergeIfApart (cong _ List.mem_cons_self _ mem')
        (exist _ List.mem_cons_self) (exist _ mem')
    intro b ap
    obtain ⟨k, c, run, apc, count, none⟩ := Closes.foldlM step b ap
    refine ⟨k, c, run, apc, count, fun zero => ?_⟩
    obtain ⟨rfl, same⟩ := none zero
    have co := ap.coherent
    -- every variable of the group has the leader of the first one
    have leader : ∀ v ∈ first :: others, v.index < c.size ∧
        c.forest.leaderOf v.index = c.forest.leaderOf first.index := by
      intro v mem
      rcases List.mem_cons.1 mem with rfl | mem
      · exact ⟨ap.size ▸ exist _ List.mem_cons_self, rfl⟩
      · obtain ⟨_, ltv, e⟩ := co.sameClass_iff.1 (same v mem)
        exact ⟨ltv, e.symm⟩
    refine ⟨rfl, fun v memv w memw => co.sameClass_iff.2 ⟨?_, ?_, ?_⟩⟩
    · exact (leader v memv).1
    · exact (leader w memw).1
    · rw [(leader v memv).2, (leader w memw).2]

/-- Nothing that the evidence of a class forces together is apart. -/
def Settled (b : Arena) (c : ClassId) : Prop :=
  ∀ {record}, record ∈ b.liveClasses → record.id = c → ∀ {x y v w},
    x ∈ record.constraints → y ∈ record.constraints → Fact.Forces x.fact y.fact v w →
    b.SameClass v w

/-- What facts of one class force together is congruent. -/
lemma Approaches.congruent_of_forces {a b : Arena} {log} (ap : a.Approaches log b)
    (co : a.Coherent log) {record : ClassRecord} (mem : record ∈ b.liveClasses) {x y v w}
    (memx : x ∈ record.constraints) (memy : y ∈ record.constraints)
    (forces : Fact.Forces x.fact y.fact v w) : a.Congruent v w := by
  obtain ⟨logx, ex⟩ := (ap.coherent.mem_constraints mem).1 memx
  obtain ⟨logy, ey⟩ := (ap.coherent.mem_constraints mem).1 memy
  have same : b.SameClass x.subject y.subject := ap.coherent.sameClass_iff.2
    ⟨ap.coherent.subject_lt logx, ap.coherent.subject_lt logy, ex.trans ey.symm⟩
  exact .force (ap.within same) (co.holds_iff.2 ⟨x, logx, rfl, rfl⟩)
    (co.holds_iff.2 ⟨y, logy, rfl, rfl⟩) forces

/-- The groups of a live class are merged. -/
lemma closes_congruentGroups {a b : Arena} {log} (alloc : a.Allocated) (co : a.Coherent log)
    (ap : a.Approaches log b) {record : ClassRecord} (mem : record ∈ b.liveClasses) :
    a.Closes log (record.congruentGroups.foldlM
        (fun merged group => return merged + (← ArenaM.mergeGroup group)) 0)
      fun b => ∀ group ∈ record.congruentGroups, ∀ v ∈ group, ∀ w ∈ group, b.SameClass v w := by
  refine Closes.foldlM fun group inside => closes_mergeGroup ?_ ?_
  · intro v memv
    obtain ⟨x, memx, y, _, forces⟩ :=
      ClassRecord.mem_congruentGroups.1 ⟨group, inside, memv, memv⟩
    have logx := ((ap.coherent.mem_constraints mem).1 memx).1
    exact alloc (co.holds_iff.2 ⟨x, logx, rfl, rfl⟩) forces.linked_left
  · intro v memv w memw
    obtain ⟨x, memx, y, memy, forces⟩ :=
      ClassRecord.mem_congruentGroups.1 ⟨group, inside, memv, memw⟩
    exact ap.congruent_of_forces co mem memx memy forces

/-- What the evidence of a class forces together is merged. -/
lemma closes_closeClass {a : Arena} {log} (alloc : a.Allocated) (co : a.Coherent log)
    (c : ClassId) : a.Closes log (ArenaM.closeClass c) fun b => b.Settled c := by
  intro b ap
  have only : ∀ {record}, record ∈ b.liveClasses → record.id = c → b.class? c = some record := by
    rintro record mem rfl
    exact (ap.coherent.mem_liveClasses.1 mem).1
  rw [ArenaM.closeClass, bind_of_ok (get_run b)]
  cases found : b.class? c with
  | none =>
    refine ⟨0, b, rfl, ap, rfl, fun _ => ⟨rfl, fun mem id => ?_⟩⟩
    rw [only mem id] at found
    cases found
  | some record =>
    cases live : record.isLive with
    | false =>
      -- absorbed earlier in the round: its evidence is now looked at under the survivor
      simp only [live]
      refine ⟨0, b, rfl, ap, rfl, fun _ => ⟨rfl, fun mem id => ?_⟩⟩
      rw [only mem id, Option.some.injEq] at found
      subst found
      have := List.of_mem_filter mem
      simp [live] at this
    | true =>
      have id : record.id = c := (ap.coherent.records found).id
      have mem : record ∈ b.liveClasses := List.mem_filter.2
        ⟨Array.mem_toList_iff.2 (Array.mem_of_getElem? found), live⟩
      obtain ⟨k, d, run, apd, count, none⟩ := closes_congruentGroups alloc co ap mem b ap
      simp only [live, if_true]
      refine ⟨k, d, run, apd, count, fun zero => ?_⟩
      obtain ⟨rfl, same⟩ := none zero
      refine ⟨rfl, fun mem' id' x y v w memx memy forces => ?_⟩
      rw [only mem' id', Option.some.injEq] at found
      subst found
      obtain ⟨group, inside, memv, memw⟩ :=
        ClassRecord.mem_congruentGroups.2 ⟨_, memx, _, memy, forces⟩
      exact same group inside v memv w memw

/-- A round that merges nothing has found nothing to merge. -/
lemma closes_closeRound {a : Arena} {log} (alloc : a.Allocated) (co : a.Coherent log) :
    a.Closes log ArenaM.closeRound fun b => ∀ c ∈ b.liveIds, b.Settled c := by
  intro b ap
  rw [ArenaM.closeRound, bind_of_ok (get_run b)]
  exact Closes.foldlM (fun c _ => closes_closeClass alloc co c) b ap

/-- Rounds that are more than there are live classes end with one that merges nothing. -/
lemma closeWithin_settles {a b : Arena} {log} (alloc : a.Allocated) (co : a.Coherent log)
    (ap : a.Approaches log b) {rounds : Nat} (lt : b.liveIds.length < rounds) :
    ∃ k c, ArenaM.closeWithin rounds b = .ok k c ∧ a.Approaches log c ∧
      c.liveIds.length + k = b.liveIds.length ∧ ∀ d ∈ c.liveIds, c.Settled d := by
  induction rounds generalizing b with
  | zero => omega
  | succ rounds ih =>
    obtain ⟨k, c, run, apc, count, none⟩ := closes_closeRound alloc co b ap
    rw [ArenaM.closeWithin, bind_of_ok run]
    by_cases zero : k = 0
    · obtain ⟨rfl, settled⟩ := none zero
      rw [if_pos zero]
      exact ⟨0, c, rfl, apc, rfl, settled⟩
    · obtain ⟨k', c', run', apc', count', settled⟩ := ih apc (by omega)
      rw [if_neg zero]
      refine ⟨k + k', c', ?_, apc', by omega, settled⟩
      rw [bind_of_ok run']
      rfl

/-- Where nothing is left to be merged, congruent variables share a class. -/
lemma Approaches.sameClass_of_congruent {a b : Arena} {log} (ap : a.Approaches log b)
    (co : a.Coherent log) (settled : ∀ c ∈ b.liveIds, b.Settled c) {x y : VarId}
    (cong : a.Congruent x y) : b.SameClass x y := by
  have coB := ap.coherent
  induction cong with
  | same h => exact ap.keeps h
  | symm _ ih =>
    obtain ⟨c, hx, hy⟩ := ih
    exact ⟨c, hy, hx⟩
  | trans _ _ ih ih' =>
    obtain ⟨c, hx, hy⟩ := ih
    obtain ⟨c', hy', hz⟩ := ih'
    obtain rfl := Option.some.inj (hy.symm.trans hy')
    exact ⟨c, hx, hz⟩
  | force _ holdsx holdsy forces ih =>
    obtain ⟨p, memp, rfl, rfl⟩ := co.holds_iff.1 holdsx
    obtain ⟨q, memq, rfl, rfl⟩ := co.holds_iff.1 holdsy
    obtain ⟨ltx, _, e⟩ := coB.sameClass_iff.1 ih
    obtain ⟨record, mem, h⟩ := coB.leader_live ltx
    have memx : p ∈ record.constraints := by
      rw [h.constraints, mem_evidence]
      exact ⟨memp, rfl⟩
    have memy : q ∈ record.constraints := by
      rw [h.constraints, mem_evidence]
      exact ⟨memq, e.symm⟩
    exact settled record.id (List.mem_map_of_mem mem) mem rfl memx memy forces

/-- An arena is on the way to its own closure. -/
lemma Approaches.refl {a : Arena} {log} (co : a.Coherent log) (uf : a.Unfrozen) :
    a.Approaches log a :=
  ⟨co, rfl, uf, fun h => h, fun h => h, .same⟩

/-- Closing a coherent arena succeeds, counts the merges, and makes the congruence classes the
classes. -/
lemma Coherent.close {a : Arena} {log} (co : a.Coherent log) (uf : a.Unfrozen)
    (alloc : a.Allocated) :
    ∃ k b, ArenaM.close a = .ok k b ∧ a.Approaches log b ∧
      b.liveIds.length + k = a.liveIds.length ∧ ∀ x y, b.SameClass x y ↔ a.Congruent x y := by
  obtain ⟨k, b, run, ap, count, settled⟩ :=
    closeWithin_settles alloc co (.refl co uf) (Nat.lt_succ_self _)
  refine ⟨k, b, ?_, ap, count, fun x y => ⟨ap.within, ap.sameClass_of_congruent co settled⟩⟩
  rw [ArenaM.close, bind_of_ok (get_run a)]
  exact run

/-- Closing an arena always succeeds, unless a class is finalized or evidence mentions a variable
that does not exist, and then two variables share a class if and only if they are congruent. -/
theorem close_iff_congruent {a : Arena} (re : a.Reachable) (uf : a.Unfrozen)
    (alloc : a.Allocated) :
    ∃ k b, ArenaM.close a = .ok k b ∧ ∀ x y, b.SameClass x y ↔ a.Congruent x y := by
  obtain ⟨log, co⟩ := re.coherent
  obtain ⟨k, b, run, _, _, iff⟩ := co.close uf alloc
  exact ⟨k, b, run, iff⟩

/-- A pointer to two structures, with a value at the same place of each. -/
def twoTargets : Arena :=
  Arena.empty.afterAll
    [.newVariable (.storage "p"), .newVariable (.pointee ⟨0⟩), .newVariable (.pointee ⟨0⟩),
      .newVariable (.storage "x"), .newVariable (.storage "y"),
      .constrain ⟨0⟩ 0 (.pointsTo ⟨1⟩), .constrain ⟨0⟩ 1 (.pointsTo ⟨2⟩),
      .constrain ⟨1⟩ 2 (.field ⟨8, 4, ⟨3⟩⟩), .constrain ⟨2⟩ 3 (.field ⟨8, 4, ⟨4⟩⟩)]

/-- None of the five classes is finalized. -/
lemma twoTargets_unfrozen : twoTargets.Unfrozen := by
  unfold Unfrozen
  decide +kernel

/-- All that the four facts link exists. -/
lemma twoTargets_allocated : twoTargets.Allocated := by
  have all : ∀ record ∈ twoTargets.liveClasses, ∀ constraint ∈ record.constraints,
      ∀ v ∈ constraint.fact.linked?, v.index < twoTargets.size := by decide +kernel
  rintro x fact v ⟨record, mem, constraint, inside, _, rfl⟩ linked
  exact all record mem constraint inside v linked

/-- The structures are congruent as targets of one pointer, and then so are their values. -/
lemma twoTargets_congruent : twoTargets.Congruent ⟨1⟩ ⟨2⟩ ∧ twoTargets.Congruent ⟨3⟩ ⟨4⟩ := by
  have holds : twoTargets.Holds ⟨0⟩ (.pointsTo ⟨1⟩) ∧ twoTargets.Holds ⟨0⟩ (.pointsTo ⟨2⟩) ∧
      twoTargets.Holds ⟨1⟩ (.field ⟨8, 4, ⟨3⟩⟩) ∧ twoTargets.Holds ⟨2⟩ (.field ⟨8, 4, ⟨4⟩⟩) := by
    unfold Holds
    decide +kernel
  have pointer : twoTargets.Congruent ⟨0⟩ ⟨0⟩ :=
    .same ⟨⟨0⟩, by decide +kernel, by decide +kernel⟩
  have targets : twoTargets.Congruent ⟨1⟩ ⟨2⟩ := .force pointer holds.1 holds.2.1 .targets
  exact ⟨targets, .force targets holds.2.2.1 holds.2.2.2 (.fields rfl rfl)⟩

/-- The closure brings the values of the two structures together. -/
theorem close_twoTargets :
    twoTargets.Unfrozen ∧ twoTargets.Allocated ∧ ∃ k b, ArenaM.close twoTargets = .ok k b ∧
      (∀ x y, b.SameClass x y ↔ twoTargets.Congruent x y) ∧ b.SameClass ⟨3⟩ ⟨4⟩ := by
  obtain ⟨k, b, run, iff⟩ :=
    close_iff_congruent ⟨_, rfl⟩ twoTargets_unfrozen twoTargets_allocated
  exact ⟨twoTargets_unfrozen, twoTargets_allocated, k, b, run, iff,
    (iff ⟨3⟩ ⟨4⟩).2 twoTargets_congruent.2⟩

end Arena

end TypeRecovery
