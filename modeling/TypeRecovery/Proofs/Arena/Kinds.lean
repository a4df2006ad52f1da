import TypeRecovery.Proofs.Arena.LeastCongruence

/-!
# Pointees and values

A variable stands for a value or, if its use is a pointee, for what a pointer points into. In a
sorted arena the two kinds never share a class, and every fact is about a variable of the kind that
it makes sense for. Sorted arenas stay sorted when they grow, when classes of one kind are merged,
and when they are closed under their evidence.
-/

namespace TypeRecovery

/-- Whether a use stands for what a pointer points into. -/
def UseSite.isPointee : UseSite → Bool
  | .pointee _ => true
  | _ => false

namespace Fact

/-- Whether the fact is about what a pointer points into; the others are about values. -/
def isAboutPointee : Fact → Bool
  | .field _ | .element _ | .extent _ | .callSite _ => true
  | _ => false

/-- Whether what a pointer points into is accessed or called. -/
def isAccess : Fact → Bool
  | .field _ | .element _ | .callSite _ => true
  | _ => false

/-- The variables that a fact mentions, and whether they have to be pointees. -/
def mentions : Fact → List (VarId × Bool)
  | .pointsTo target => [(target, true)]
  | .field access => [(access.value, false)]
  | .element access => [(access.value, false)]
  | .callSite site => (site.args ++ site.result.toList).map fun v => (v, false)
  | _ => []

/-- What is accessed or called is a pointee. -/
lemma isAboutPointee_of_isAccess {fact : Fact} (access : fact.isAccess = true) :
    fact.isAboutPointee = true := by
  cases fact <;> simp [isAccess, isAboutPointee] at access ⊢

/-- Only facts about pointees mention values. -/
lemma isAboutPointee_of_mentions {fact : Fact} {v : VarId} (mention : (v, false) ∈ fact.mentions) :
    fact.isAboutPointee = true := by
  cases fact <;> simp [mentions, isAboutPointee] at mention ⊢

/-- What a fact can force into a class is mentioned in it. -/
lemma exists_mention_of_linked? {fact : Fact} {v : VarId} (linked : fact.linked? = some v) :
    ∃ kind, (v, kind) ∈ fact.mentions := by
  cases fact with
  | pointsTo target => cases linked; exact ⟨true, List.mem_singleton_self _⟩
  | field access => cases linked; exact ⟨false, List.mem_singleton_self _⟩
  | element access => cases linked; exact ⟨false, List.mem_singleton_self _⟩
  | _ => cases linked

/-- What facts force together is of one kind. -/
lemma Forces.mentions {p q : Fact} {v w : VarId} (forces : Forces p q v w) :
    ∃ kind, (v, kind) ∈ p.mentions ∧ (w, kind) ∈ q.mentions := by
  cases forces with
  | targets => exact ⟨true, List.mem_singleton_self _, List.mem_singleton_self _⟩
  | fields => exact ⟨false, List.mem_singleton_self _, List.mem_singleton_self _⟩
  | elements => exact ⟨false, List.mem_singleton_self _, List.mem_singleton_self _⟩

end Fact

namespace Arena

/-- Whether a variable is a pointee, if there is such a variable. -/
def isPointee? (a : Arena) (v : VarId) : Option Bool :=
  (a.var? v).map fun found => found.site.isPointee

/-- Pointees and values are kept apart; only the pointees in `fresh` may lack an access. -/
structure Sorted (a : Arena) (log : List Constraint) (fresh : List VarId) : Prop where
  coherent : a.Coherent log
  same : ∀ {x y}, a.SameClass x y → a.isPointee? x = a.isPointee? y
  subject : ∀ {c}, c ∈ log → a.isPointee? c.subject = some c.fact.isAboutPointee
  mentions : ∀ {c}, c ∈ log → ∀ {v kind}, (v, kind) ∈ c.fact.mentions →
    a.isPointee? v = some kind
  accessed : ∀ {v}, a.isPointee? v = some true →
    v ∈ fresh ∨ ∃ c ∈ log, c.subject = v ∧ c.fact.isAccess = true

/-! ## Kinds -/

/-- What has a kind is there. -/
lemma lt_of_isPointee? {a : Arena} {v : VarId} {kind : Bool} (e : a.isPointee? v = some kind) :
    v.index < a.size := by
  obtain ⟨found, here, _⟩ := Option.map_eq_some_iff.1 e
  exact (Array.getElem?_eq_some_iff.1 here).1

/-- What is there has a kind. -/
lemma isPointee?_of_lt {a : Arena} {v : VarId} (lt : v.index < a.size) :
    ∃ kind, a.isPointee? v = some kind := by
  have here : a.var? v = some a.store.vars[v.index] := Array.getElem?_eq_getElem lt
  exact ⟨_, by rw [isPointee?, here]; rfl⟩

/-- Kinds depend on the store alone. -/
lemma isPointee?_congr {a b : Arena} (store : b.store = a.store) (v : VarId) :
    b.isPointee? v = a.isPointee? v := by
  simp only [isPointee?, var?, store]

/-- A new variable stands under its number, and the others are as they were. -/
lemma var?_addVariable (a : Arena) (site : UseSite) (v : VarId) :
    (a.addVariable site).var? v =
      if v.index = a.size then some ⟨a.store.next, site, none⟩ else a.var? v :=
  Array.getElem?_push

/-- A new variable has the kind of its use, and changes no other kind. -/
lemma isPointee?_addVariable (a : Arena) (site : UseSite) (v : VarId) :
    (a.addVariable site).isPointee? v =
      if v.index = a.size then some site.isPointee else a.isPointee? v := by
  rw [isPointee?, isPointee?, var?_addVariable]
  split <;> rfl

/-- Recording a first type changes no kind. -/
lemma isPointee?_withConstraint (a : Arena) (u : VarId) (evidence : Option DataType)
    (constraint : Constraint) (v : VarId) :
    (a.withConstraint (ArenaM.storeWith a u evidence) constraint).isPointee? v =
      a.isPointee? v := by
  have site : ∀ t, ((a.store.recordFirst u t).get? v).map (fun found => found.site.isPointee) =
      (a.store.get? v).map fun found => found.site.isPointee := by
    intro t
    simp only [VariableStore.get?, VariableStore.recordFirst, Array.getElem?_modify]
    split
    · rw [Option.map_map]
      rfl
    · rfl
  cases evidence with
  | none => rfl
  | some t => exact site t

/-! ## Sorted arenas -/

/-- An empty arena is sorted. -/
lemma empty_sorted : Arena.empty.Sorted [] [] where
  coherent := empty_coherent
  same := by
    rintro x y ⟨c, held, _⟩
    have lt : x.index < 0 := (empty_coherent.classOf?_eq_some.1 held).1
    omega
  subject mem := by simp at mem
  mentions mem := by simp at mem
  accessed e := by simp [isPointee?, var?, VariableStore.get?, empty, VariableStore.empty] at e

/-- More pointees may be allowed to lack an access. -/
lemma Sorted.mono {a : Arena} {log fresh fresh'} (so : a.Sorted log fresh)
    (sub : ∀ v ∈ fresh, v ∈ fresh') : a.Sorted log fresh' where
  coherent := so.coherent
  same := so.same
  subject := so.subject
  mentions := so.mentions
  accessed e := (so.accessed e).imp_left (sub _)

/-- A new variable is sorted in; a pointee has no access yet. -/
lemma Sorted.addVariable {a : Arena} {log fresh} (so : a.Sorted log fresh) (site : UseSite) :
    (a.addVariable site).Sorted log (if site.isPointee then a.store.next :: fresh else fresh) := by
  have co := so.coherent
  have co' := co.addVariable site
  have keeps : ∀ {v kind}, a.isPointee? v = some kind →
      (a.addVariable site).isPointee? v = some kind := by
    intro v kind e
    rw [isPointee?_addVariable, if_neg (lt_of_isPointee? e).ne, e]
  refine ⟨co', ?_, fun mem => keeps (so.subject mem),
    fun mem _ _ mention => keeps (so.mentions mem mention), ?_⟩
  · intro x y same
    obtain ⟨ltx, lty, e⟩ := co'.sameClass_iff.1 same
    rw [co.leaderOf_addVariable, co.leaderOf_addVariable] at e
    rw [size_addVariable] at ltx lty
    rw [isPointee?_addVariable, isPointee?_addVariable]
    have own : a.forest.leaderOf a.size = a.size := Forest.leaderOf_of_size_le co.forest_size.le
    -- the new variable is alone in its class, so either both are new or none is
    by_cases ex : x.index = a.size
    · by_cases ey : y.index = a.size
      · rw [if_pos ex, if_pos ey]
      · have := co.leaderOf_lt (i := y.index) (by omega)
        rw [ex, own] at e
        omega
    · by_cases ey : y.index = a.size
      · have := co.leaderOf_lt (i := x.index) (by omega)
        rw [ey, own] at e
        omega
      · rw [if_neg ex, if_neg ey]
        exact so.same (co.sameClass_iff.2 ⟨by omega, by omega, e⟩)
  · intro v e
    rw [isPointee?_addVariable] at e
    split at e
    · rename_i new
      rw [Option.some.inj e, if_pos rfl]
      exact .inl (List.mem_cons.2 (.inl (congrArg VarId.mk new)))
    · refine (so.accessed e).imp_left fun mem => ?_
      split
      · exact List.mem_cons_of_mem _ mem
      · exact mem

/-- A constraint on a variable of the kind that it makes sense for; an access gives what it
accesses an access. -/
lemma Sorted.withConstraint {a : Arena} {log fresh} (so : a.Sorted log fresh) {v : VarId}
    (position : Nat) {fact : Fact} (evidence : Option DataType)
    (subject : a.isPointee? v = some fact.isAboutPointee)
    (mentions : ∀ {u kind}, (u, kind) ∈ fact.mentions → a.isPointee? u = some kind) :
    (a.withConstraint (ArenaM.storeWith a v evidence) ⟨position, a.nextSeq, v, fact⟩).Sorted
      (log ++ [⟨position, a.nextSeq, v, fact⟩])
      (if fact.isAccess then fresh.filter (· ≠ v) else fresh) := by
  have co := so.coherent
  have co' : (a.withConstraint (ArenaM.storeWith a v evidence)
      ⟨position, a.nextSeq, v, fact⟩).Coherent (log ++ [⟨position, a.nextSeq, v, fact⟩]) :=
    co.withConstraint (ArenaM.size_storeWith a v evidence) rfl (lt_of_isPointee? subject)
  have kinds := isPointee?_withConstraint a v evidence ⟨position, a.nextSeq, v, fact⟩
  refine ⟨co', ?_, ?_, ?_, ?_⟩
  · intro x y same
    rw [kinds, kinds]
    obtain ⟨ltx, lty, e⟩ := co'.sameClass_iff.1 same
    have size : (a.withConstraint (ArenaM.storeWith a v evidence)
        ⟨position, a.nextSeq, v, fact⟩).size = a.size := ArenaM.size_storeWith a v evidence
    rw [size] at ltx lty
    exact so.same (co.sameClass_iff.2 ⟨ltx, lty, e⟩)
  · intro c mem
    rw [kinds]
    rcases List.mem_append.1 mem with mem | mem
    · exact so.subject mem
    · rw [List.mem_singleton.1 mem]
      exact subject
  · intro c mem u kind m
    rw [kinds]
    rcases List.mem_append.1 mem with mem | mem
    · exact so.mentions mem m
    · rw [List.mem_singleton.1 mem] at m
      exact mentions m
  · intro u e
    rw [kinds] at e
    rcases so.accessed e with mem | ⟨c, mem, about, access⟩
    · split
      · rename_i access
        by_cases here : u = v
        · refine .inr ⟨_, List.mem_append_right _ List.mem_cons_self, here.symm, access⟩
        · exact .inl (List.mem_filter.2 ⟨mem, by simpa using here⟩)
      · exact .inl mem
    · exact .inr ⟨c, List.mem_append_left _ mem, about, access⟩

/-- The same store and the same log, with classes that hold one kind only. -/
lemma Sorted.of_store {a b : Arena} {log fresh} (so : a.Sorted log fresh) (co : b.Coherent log)
    (store : b.store = a.store)
    (same : ∀ {x y}, b.SameClass x y → a.isPointee? x = a.isPointee? y) :
    b.Sorted log fresh := by
  have kinds := isPointee?_congr store
  refine ⟨co, ?_, ?_, ?_, ?_⟩
  · intro x y h
    rw [kinds, kinds, same h]
  · intro c mem
    rw [kinds, so.subject mem]
  · intro c mem v kind m
    rw [kinds, so.mentions mem m]
  · intro v e
    rw [kinds] at e
    exact so.accessed e

/-- A change that moves nothing keeps an arena sorted. -/
lemma Sorted.retouches {a b : Arena} {log fresh} (so : a.Sorted log fresh) (rt : a.Retouches b) :
    b.Sorted log fresh := by
  have co := so.coherent
  have coB := rt.coherent co
  refine so.of_store coB rt.store ?_
  intro x y same
  have size := rt.size
  have leaderOf := rt.forest.leaderOf_eq co.forest.toRanked
  rw [coB.sameClass_iff, size, leaderOf, leaderOf, ← co.sameClass_iff] at same
  exact so.same same

/-- The leader of a variable is of its kind. -/
lemma Sorted.leaderOf {a : Arena} {log fresh} (so : a.Sorted log fresh) {v : VarId}
    (lt : v.index < a.size) : a.isPointee? ⟨a.forest.leaderOf v.index⟩ = a.isPointee? v := by
  have co := so.coherent
  apply so.same
  exact co.sameClass_iff.2 ⟨co.leaderOf_lt lt, lt, co.forest.leaderOf_leaderOf _⟩

/-- The merge of two classes of one kind. -/
lemma Sorted.merges {a b : Arena} {log fresh lo hi} (so : a.Sorted log fresh)
    (mg : a.Merges b lo hi) (kinds : a.isPointee? ⟨lo⟩ = a.isPointee? ⟨hi⟩) :
    b.Sorted log fresh := by
  have co := so.coherent
  have coB := mg.coherent co
  refine so.of_store coB mg.store ?_
  intro x y same
  have size := mg.size
  obtain ⟨ltx, lty, _⟩ := coB.sameClass_iff.1 same
  rw [size] at ltx lty
  rcases mg.sameClass_cases co same with old | ⟨ex, ey⟩ | ⟨ex, ey⟩
  · exact so.same old
  · rw [← so.leaderOf ltx, ← so.leaderOf lty, ex, ey, kinds]
  · rw [← so.leaderOf ltx, ← so.leaderOf lty, ex, ey, kinds]

/-! ## Closing -/

/-- Congruent variables of a sorted arena are of one kind. -/
lemma Sorted.congruent {a : Arena} {log fresh} (so : a.Sorted log fresh) {x y : VarId}
    (cong : a.Congruent x y) : a.isPointee? x = a.isPointee? y := by
  induction cong with
  | same h => exact so.same h
  | symm _ ih => exact ih.symm
  | trans _ _ ih ih' => exact ih.trans ih'
  | force _ holdsx holdsy forces _ =>
    obtain ⟨c, memc, _, rfl⟩ := so.coherent.holds_iff.1 holdsx
    obtain ⟨d, memd, _, rfl⟩ := so.coherent.holds_iff.1 holdsy
    obtain ⟨kind, mv, mw⟩ := forces.mentions
    rw [so.mentions memc mv, so.mentions memd mw]

/-- What the facts of a sorted arena can force into a class is there. -/
lemma Sorted.allocated {a : Arena} {log fresh} (so : a.Sorted log fresh) : a.Allocated := by
  intro x fact v holds linked
  obtain ⟨c, mem, _, rfl⟩ := so.coherent.holds_iff.1 holds
  obtain ⟨kind, mention⟩ := Fact.exists_mention_of_linked? linked
  exact lt_of_isPointee? (so.mentions mem mention)

/-- An arena on the way to the closure of a sorted one is sorted. -/
lemma Sorted.approaches {a b : Arena} {log fresh} (so : a.Sorted log fresh)
    (ap : a.Approaches log b) : b.Sorted log fresh :=
  so.of_store ap.coherent ap.store fun same => so.congruent (ap.within same)

/-- Closing a sorted arena succeeds, and leaves it sorted. -/
lemma Sorted.close {a : Arena} {log fresh} (so : a.Sorted log fresh) (uf : a.Unfrozen) :
    ∃ k b, ArenaM.close a = .ok k b ∧ b.Sorted log fresh := by
  obtain ⟨k, b, run, ap, _, _⟩ := so.coherent.close uf so.allocated
  exact ⟨k, b, run, so.approaches ap⟩

/-! ## Separation -/

/-- All members of a class are pointees. -/
def HoldsPointees (a : Arena) (record : ClassRecord) : Prop :=
  ∀ v ∈ record.members, a.isPointee? v = some true

/-- All members of a class are values. -/
def HoldsValues (a : Arena) (record : ClassRecord) : Prop :=
  ∀ v ∈ record.members, a.isPointee? v = some false

/-- Every live class holds pointees or holds values, with facts that fit them, and what is pointed
into is accessed. -/
structure Separated (a : Arena) : Prop where
  kinds : ∀ record ∈ a.liveClasses, a.HoldsPointees record ∨ a.HoldsValues record
  facts : ∀ record ∈ a.liveClasses, ∀ c ∈ record.constraints,
    if c.fact.isAboutPointee then a.HoldsPointees record else a.HoldsValues record
  accessed : ∀ record ∈ a.liveClasses, a.HoldsPointees record →
    ∃ c ∈ record.constraints, c.fact.isAccess = true

/-- All members of a class are of the kind of its leader. -/
lemma Sorted.members {a : Arena} {log fresh} (so : a.Sorted log fresh) {record : ClassRecord}
    (mem : record ∈ a.liveClasses) {v : VarId} (inside : v ∈ record.members) :
    a.isPointee? v = a.isPointee? ⟨record.id.index⟩ := by
  rw [(so.coherent.records_live mem).members, mem_followers] at inside
  rw [← so.leaderOf inside.1, inside.2]

/-- In a sorted arena pointees and values are separated, once every pointee has an access. -/
lemma Sorted.separated {a : Arena} {log} (so : a.Sorted log []) : a.Separated := by
  have co := so.coherent
  refine ⟨?_, ?_, ?_⟩
  · intro record mem
    obtain ⟨found, _⟩ := co.mem_liveClasses.1 mem
    obtain ⟨kind, e⟩ := isPointee?_of_lt (v := ⟨record.id.index⟩) (co.lt_of_record found)
    cases kind with
    | true => exact .inl fun v inside => (so.members mem inside).trans e
    | false => exact .inr fun v inside => (so.members mem inside).trans e
  · intro record mem c inside
    obtain ⟨logged, leads⟩ := (co.mem_constraints mem).1 inside
    have kind : ∀ v ∈ record.members, a.isPointee? v = some c.fact.isAboutPointee := by
      intro v member
      rw [so.members mem member, ← leads, so.leaderOf (co.subject_lt logged), so.subject logged]
    cases h : c.fact.isAboutPointee with
    | true => rw [h] at kind; exact kind
    | false => rw [h] at kind; exact kind
  · intro record mem pointees
    rcases so.accessed (pointees _ (co.own_mem_members mem)) with none | ⟨c, logged, about, access⟩
    · simp at none
    · refine ⟨c, (co.mem_constraints mem).2 ⟨logged, ?_⟩, access⟩
      rw [about]
      exact (co.mem_liveClasses.1 mem).2

end Arena

end TypeRecovery
