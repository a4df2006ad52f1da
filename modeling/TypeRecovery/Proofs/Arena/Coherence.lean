import TypeRecovery.Arena.Basic
import TypeRecovery.Proofs.Arena.Forest
import TypeRecovery.Proofs.Ascending

/-!
# Coherence of the arena

The records of the classes say the same as the forest. `Coherent a log` ties every record to the
leaders of the forest and to `log`, the list of all constraints that were ever added: the members of
a class are the variables that it leads, in order, and its constraints are those of the log whose
subjects it leads, in order. A class is live if it leads itself.

There are three kinds of change. `Retouches` is one that moves nothing (a compressed path, a
verdict, a frozen class), `Merges` is the merge of two classes, and `Coherent.addVariable` and
`Coherent.withConstraint` are about growth. Each of them keeps an arena coherent.
-/

namespace TypeRecovery

namespace Arena

/-! ## What a class should hold -/

/-- All variables, in order. -/
def vars (a : Arena) : List VarId :=
  (List.range a.size).map VarId.mk

/-- The variables that follow a leader, in order. -/
def followers (a : Arena) (c : Nat) : List VarId :=
  a.vars.filter fun v => a.forest.leaderOf v.index = c

/-- The constraints of a log whose subjects follow a leader, in order. -/
def evidence (a : Arena) (log : List Constraint) (c : Nat) : List Constraint :=
  log.filter fun constraint => a.forest.leaderOf constraint.subject.index = c

/-- A record says of class `c` what the forest and the log say. -/
structure Records (a : Arena) (log : List Constraint) (c : Nat) (record : ClassRecord) : Prop where
  id : record.id = ⟨c⟩
  members : record.members = a.followers c
  constraints : record.constraints = a.evidence log c
  isLive : record.isLive = decide (a.forest.leaderOf c = c)

/-- The records of all classes say what the forest and the log say. -/
structure Coherent (a : Arena) (log : List Constraint) : Prop where
  forest : a.forest.WellFormed
  forest_size : a.forest.size = a.size
  classes_size : a.classes.size = a.size
  records : ∀ {c record}, a.class? ⟨c⟩ = some record → a.Records log c record
  seq : log.map Constraint.seq = List.range a.nextSeq
  subject_lt : ∀ {constraint}, constraint ∈ log → constraint.subject.index < a.size

/-! ## Consequences -/

/-- The variables are the numbers below the size. -/
lemma mem_vars {a : Arena} {v : VarId} : v ∈ a.vars ↔ v.index < a.size := by
  simp only [vars, List.mem_map, List.mem_range]
  constructor
  · rintro ⟨i, lt, rfl⟩
    exact lt
  · intro lt
    exact ⟨v.index, lt, rfl⟩

/-- The variables are listed in ascending order. -/
lemma vars_ascending (a : Arena) : a.vars.Pairwise fun v w => v.index < w.index := by
  rw [vars, List.pairwise_map]
  exact List.pairwise_lt_range

/-- The followers of a class are the variables that it leads. -/
lemma mem_followers {a : Arena} {c : Nat} {v : VarId} :
    v ∈ a.followers c ↔ v.index < a.size ∧ a.forest.leaderOf v.index = c := by
  simp [followers, mem_vars]

/-- The evidence of a class is what the log has on the variables that it leads. -/
lemma mem_evidence {a : Arena} {log : List Constraint} {c : Nat} {constraint : Constraint} :
    constraint ∈ a.evidence log c ↔
      constraint ∈ log ∧ a.forest.leaderOf constraint.subject.index = c := by
  simp [evidence]

/-- Every class number in range has a record. -/
lemma Coherent.exists_record {a : Arena} {log} (co : a.Coherent log) {c : Nat} (lt : c < a.size) :
    ∃ record, a.class? ⟨c⟩ = some record ∧ a.Records log c record := by
  have lt' : c < a.classes.size := co.classes_size ▸ lt
  have found : a.class? ⟨c⟩ = some a.classes[c] := Array.getElem?_eq_getElem lt'
  exact ⟨_, found, co.records found⟩

/-- A class number with a record is in range. -/
lemma Coherent.lt_of_record {a : Arena} {log} (co : a.Coherent log) {c : Nat} {record}
    (found : a.class? ⟨c⟩ = some record) : c < a.size := by
  rw [← co.classes_size]
  exact (Array.getElem?_eq_some_iff.1 found).1

/-- The leader of a variable is in range. -/
lemma Coherent.leaderOf_lt {a : Arena} {log} (co : a.Coherent log) {i : Nat} (lt : i < a.size) :
    a.forest.leaderOf i < a.size := by
  rw [← co.forest_size] at lt ⊢
  exact co.forest.leaderOf_lt lt

/-- The class of a variable is its leader. -/
lemma Coherent.classOf?_eq {a : Arena} {log} (co : a.Coherent log) {v : VarId}
    (lt : v.index < a.size) : a.classOf? v = some ⟨a.forest.leaderOf v.index⟩ := by
  simp [classOf?, representative?, co.forest_size, lt]

/-- A class holds the variables that it leads. -/
lemma Coherent.classOf?_eq_some {a : Arena} {log} (co : a.Coherent log) {v : VarId} {c : ClassId} :
    a.classOf? v = some c ↔ v.index < a.size ∧ a.forest.leaderOf v.index = c.index := by
  rcases Nat.lt_or_ge v.index a.size with lt | ge
  · rw [co.classOf?_eq lt, Option.some.injEq, and_iff_right lt]
    exact ⟨congrArg ClassId.index, congrArg ClassId.mk⟩
  · simp [classOf?, representative?, co.forest_size, ge.not_gt]

/-- The sequence numbers of the log ascend. -/
lemma Coherent.log_ascending {a : Arena} {log} (co : a.Coherent log) :
    log.Pairwise fun x y => x.seq < y.seq := by
  have h : (log.map Constraint.seq).Pairwise (· < ·) := co.seq ▸ List.pairwise_lt_range
  exact List.pairwise_map.1 h

/-! ## Live classes -/

/-- Records stand in the order of their numbers, with no number missing. -/
lemma Coherent.ids {a : Arena} {log} (co : a.Coherent log) :
    a.classes.toList.map (fun record => record.id.index) = List.range a.size := by
  apply List.ext_getElem?
  intro c
  rw [List.getElem?_map, Array.getElem?_toList]
  rcases Nat.lt_or_ge c a.size with lt | ge
  · obtain ⟨record, found, h⟩ := co.exists_record lt
    have found : a.classes[c]? = some record := found
    rw [found, List.getElem?_range lt, Option.map_some, h.id]
  · rw [Array.getElem?_eq_none (co.classes_size ▸ ge), List.getElem?_eq_none (by simpa using ge)]
    rfl

/-- The record of a class stands under its own number. -/
lemma Coherent.class?_of_mem {a : Arena} {log} (co : a.Coherent log) {record : ClassRecord}
    (mem : record ∈ a.classes.toList) : a.class? record.id = some record := by
  obtain ⟨c, found⟩ := List.mem_iff_getElem?.1 mem
  rw [Array.getElem?_toList] at found
  rw [(co.records found).id]
  exact found

/-- A record is live if its class leads itself. -/
lemma Coherent.mem_liveClasses {a : Arena} {log} (co : a.Coherent log) {record : ClassRecord} :
    record ∈ a.liveClasses ↔
      a.class? record.id = some record ∧ a.forest.leaderOf record.id.index = record.id.index := by
  rw [liveClasses, List.mem_filter]
  constructor
  · rintro ⟨mem, live⟩
    have found := co.class?_of_mem mem
    rw [(co.records found).isLive] at live
    exact ⟨found, by simpa using live⟩
  · rintro ⟨found, leads⟩
    refine ⟨?_, by simpa [(co.records found).isLive] using leads⟩
    rw [Array.mem_toList_iff]
    exact Array.mem_of_getElem? found

/-- The numbers of the live classes are those that lead themselves. -/
lemma Coherent.liveIds_eq {a : Arena} {log} (co : a.Coherent log) :
    a.liveIds = ((List.range a.size).filter fun c => a.forest.leaderOf c = c).map ClassId.mk := by
  have live : a.liveClasses = a.classes.toList.filter
      ((fun c => decide (a.forest.leaderOf c = c)) ∘ fun record => record.id.index) := by
    refine List.filter_congr fun record mem => ?_
    exact (co.records (co.class?_of_mem mem)).isLive
  rw [liveIds, live, ← co.ids, List.filter_map, List.map_map]
  rfl

/-- Live classes with one number are one class. -/
lemma Coherent.eq_of_id {a : Arena} {log} (co : a.Coherent log) {x y : ClassRecord}
    (memx : x ∈ a.liveClasses) (memy : y ∈ a.liveClasses) (same : x.id = y.id) : x = y := by
  have found := (co.mem_liveClasses.1 memx).1
  rw [same, (co.mem_liveClasses.1 memy).1] at found
  exact (Option.some.inj found).symm

/-- The numbers of the live classes ascend. -/
lemma Coherent.liveClasses_ascending {a : Arena} {log} (co : a.Coherent log) :
    a.liveClasses.Pairwise fun x y => x.id.index < y.id.index := by
  refine List.Pairwise.sublist List.filter_sublist ?_
  rw [← List.pairwise_map (f := fun record : ClassRecord => record.id.index), co.ids]
  exact List.pairwise_lt_range

/-- The class of a variable is live. -/
lemma Coherent.leader_live {a : Arena} {log} (co : a.Coherent log) {i : Nat} (lt : i < a.size) :
    ∃ record, record ∈ a.liveClasses ∧ a.Records log (a.forest.leaderOf i) record := by
  obtain ⟨record, found, h⟩ := co.exists_record (co.leaderOf_lt lt)
  refine ⟨record, co.mem_liveClasses.2 ?_, h⟩
  rw [h.id]
  exact ⟨found, co.forest.leaderOf_leaderOf i⟩

/-- A live record says what the forest and the log say of its class. -/
lemma Coherent.records_live {a : Arena} {log} (co : a.Coherent log) {record : ClassRecord}
    (mem : record ∈ a.liveClasses) : a.Records log record.id.index record :=
  co.records (co.mem_liveClasses.1 mem).1

/-- A live class has its own number among its members. -/
lemma Coherent.own_mem_members {a : Arena} {log} (co : a.Coherent log) {record : ClassRecord}
    (mem : record ∈ a.liveClasses) : (⟨record.id.index⟩ : VarId) ∈ record.members := by
  obtain ⟨found, leads⟩ := co.mem_liveClasses.1 mem
  rw [(co.records found).members, mem_followers]
  exact ⟨co.lt_of_record found, leads⟩

/-- A class that was absorbed leads no variable. -/
lemma Coherent.leaderOf_ne_absorbed {a : Arena} {log} (co : a.Coherent log) {c : ClassId} {record}
    (found : a.class? c = some record) (gone : record.isLive = false) (i : Nat) :
    a.forest.leaderOf i ≠ c.index := by
  rw [(co.records found).isLive, decide_eq_false_iff_not] at gone
  intro leads
  apply gone
  rw [← leads, co.forest.leaderOf_leaderOf]

/-! ## Sharing a class -/

/-- Two variables share a class. -/
def SameClass (a : Arena) (x y : VarId) : Prop :=
  ∃ c, a.classOf? x = some c ∧ a.classOf? y = some c

/-- A live class holds a fact about a variable. -/
def Holds (a : Arena) (v : VarId) (fact : Fact) : Prop :=
  ∃ record ∈ a.liveClasses, ∃ constraint ∈ record.constraints,
    constraint.subject = v ∧ constraint.fact = fact

/-- No live class is finalized. -/
def Unfrozen (a : Arena) : Prop :=
  ∀ record ∈ a.liveClasses, record.state ≠ .finalized

/-- Variables share a class if they exist and have one leader. -/
lemma Coherent.sameClass_iff {a : Arena} {log} (co : a.Coherent log) {x y : VarId} :
    a.SameClass x y ↔ x.index < a.size ∧ y.index < a.size ∧
      a.forest.leaderOf x.index = a.forest.leaderOf y.index := by
  constructor
  · rintro ⟨c, holdsx, holdsy⟩
    obtain ⟨ltx, ex⟩ := co.classOf?_eq_some.1 holdsx
    obtain ⟨lty, ey⟩ := co.classOf?_eq_some.1 holdsy
    exact ⟨ltx, lty, ex.trans ey.symm⟩
  · rintro ⟨ltx, lty, same⟩
    exact ⟨_, co.classOf?_eq ltx, by rw [co.classOf?_eq lty, same]⟩

/-- The facts that live classes hold are those of the log. -/
lemma Coherent.holds_iff {a : Arena} {log} (co : a.Coherent log) {v : VarId} {fact : Fact} :
    a.Holds v fact ↔ ∃ constraint ∈ log, constraint.subject = v ∧ constraint.fact = fact := by
  constructor
  · rintro ⟨record, mem, constraint, inside, about, holds⟩
    rw [(co.records_live mem).constraints, mem_evidence] at inside
    exact ⟨constraint, inside.1, about, holds⟩
  · rintro ⟨constraint, inside, about, holds⟩
    obtain ⟨record, mem, h⟩ := co.leader_live (co.subject_lt inside)
    refine ⟨record, mem, constraint, ?_, about, holds⟩
    rw [h.constraints, mem_evidence]
    exact ⟨inside, rfl⟩

/-- Facts about variables of one class are held by one record. -/
lemma Coherent.mem_constraints {a : Arena} {log} (co : a.Coherent log) {record : ClassRecord}
    (mem : record ∈ a.liveClasses) {constraint : Constraint} :
    constraint ∈ record.constraints ↔
      constraint ∈ log ∧ a.forest.leaderOf constraint.subject.index = record.id.index := by
  rw [(co.records_live mem).constraints, mem_evidence]

/-- A live class is finalized if its record says so. -/
lemma Coherent.isFinalized_iff {a : Arena} {log} (co : a.Coherent log) {record : ClassRecord}
    (mem : record ∈ a.liveClasses) :
    a.isFinalized record.id = true ↔ record.state = .finalized := by
  simp only [isFinalized, (co.mem_liveClasses.1 mem).1, beq_iff_eq]

/-- The class of a variable is not finalized if no live class is. -/
lemma Coherent.isFinalized_eq_false {a : Arena} {log} (co : a.Coherent log) (uf : a.Unfrozen)
    {i : Nat} (lt : i < a.size) : a.isFinalized ⟨a.forest.leaderOf i⟩ = false := by
  obtain ⟨record, mem, h⟩ := co.leader_live lt
  rw [← h.id, ← Bool.not_eq_true, co.isFinalized_iff mem]
  exact uf record mem

/-! ## Changes that move nothing -/

/-- One arena is another one in which no class gained or lost anything. -/
structure Retouches (a b : Arena) : Prop where
  store : b.store = a.store
  nextSeq : b.nextSeq = a.nextSeq
  forest : a.forest.Compresses b.forest
  classes_size : b.classes.size = a.classes.size
  records : ∀ {c record}, b.class? c = some record → ∃ old, a.class? c = some old ∧
    record.id = old.id ∧ record.members = old.members ∧ record.constraints = old.constraints ∧
    record.absorbedInto = old.absorbedInto

/-- A change that moves nothing adds no variable. -/
lemma Retouches.size {a b : Arena} (rt : a.Retouches b) : b.size = a.size := by
  simp only [Arena.size, rt.store]

/-- A change that moves nothing keeps an arena coherent. -/
lemma Retouches.coherent {a b : Arena} {log} (rt : a.Retouches b) (co : a.Coherent log) :
    b.Coherent log := by
  have size := rt.size
  have leaderOf := rt.forest.leaderOf_eq co.forest.toRanked
  refine ⟨rt.forest.wellFormed co.forest, ?_, ?_, ?_, ?_, ?_⟩
  · rw [rt.forest.size, co.forest_size, size]
  · rw [rt.classes_size, co.classes_size, size]
  · intro c record found
    obtain ⟨old, was, id, members, constraints, absorbed⟩ := rt.records found
    have h := co.records was
    refine ⟨id.trans h.id, ?_, ?_, ?_⟩
    · rw [members, h.members]
      simp only [followers, vars, size, leaderOf]
    · rw [constraints, h.constraints]
      simp only [evidence, leaderOf]
    · rw [leaderOf, ← h.isLive]
      simp only [ClassRecord.isLive, absorbed]
  · rw [rt.nextSeq, co.seq]
  · intro constraint mem
    rw [size]
    exact co.subject_lt mem

/-- Doing nothing moves nothing. -/
lemma Retouches.refl {a : Arena} (rk : a.forest.Ranked) : a.Retouches a where
  store := rfl
  nextSeq := rfl
  forest := .refl rk
  classes_size := rfl
  records found := ⟨_, found, rfl, rfl, rfl, rfl⟩

/-- Changes one after the other that each move nothing move nothing. -/
lemma Retouches.trans {a b c : Arena} (rt : a.Retouches b) (rt' : b.Retouches c) :
    a.Retouches c where
  store := rt'.store.trans rt.store
  nextSeq := rt'.nextSeq.trans rt.nextSeq
  forest := rt.forest.trans rt'.forest
  classes_size := rt'.classes_size.trans rt.classes_size
  records := by
    intro d record found
    obtain ⟨mid, was, id, members, constraints, absorbed⟩ := rt'.records found
    obtain ⟨old, was', id', members', constraints', absorbed'⟩ := rt.records was
    exact ⟨old, was', id.trans id', members.trans members', constraints.trans constraints',
      absorbed.trans absorbed'⟩

/-- Compressing a path moves nothing. -/
lemma Retouches.of_compresses {a : Arena} {g : Forest} (cp : a.forest.Compresses g) :
    a.Retouches { a with forest := g } where
  store := rfl
  nextSeq := rfl
  forest := cp
  classes_size := rfl
  records found := ⟨_, found, rfl, rfl, rfl, rfl⟩

/-- A change of a record that keeps what the class holds moves nothing. -/
lemma Retouches.modifyClass {a : Arena} (rk : a.forest.Ranked) (c : ClassId)
    {f : ClassRecord → ClassRecord}
    (keeps : ∀ r, (f r).id = r.id ∧ (f r).members = r.members ∧
      (f r).constraints = r.constraints ∧ (f r).absorbedInto = r.absorbedInto) :
    a.Retouches (a.modifyClass c f) where
  store := rfl
  nextSeq := rfl
  forest := .refl rk
  classes_size := by simp [Arena.modifyClass]
  records := by
    intro d record found
    simp only [Arena.modifyClass, class?, Array.getElem?_modify] at found
    split at found
    · obtain ⟨old, was, rfl⟩ := Option.map_eq_some_iff.1 found
      exact ⟨old, was, keeps old⟩
    · exact ⟨record, found, rfl, rfl, rfl, rfl⟩

/-- A change that moves nothing keeps the live classes alive. -/
lemma Retouches.liveIds {a b : Arena} {log} (rt : a.Retouches b) (co : a.Coherent log) :
    b.liveIds = a.liveIds := by
  have leaderOf := rt.forest.leaderOf_eq co.forest.toRanked
  rw [(rt.coherent co).liveIds_eq, co.liveIds_eq, rt.size]
  simp only [leaderOf]

/-- What a live class holds is what it held. -/
lemma Retouches.records_live {a b : Arena} {log} (rt : a.Retouches b) (co : a.Coherent log)
    {record : ClassRecord} (mem : record ∈ b.liveClasses) :
    a.Records log record.id.index record := by
  have leaderOf := rt.forest.leaderOf_eq co.forest.toRanked
  obtain ⟨id, members, constraints, isLive⟩ := (rt.coherent co).records_live mem
  refine ⟨id, ?_, ?_, ?_⟩
  · rw [members]
    simp only [followers, vars, rt.size, leaderOf]
  · rw [constraints]
    simp only [evidence, leaderOf]
  · rw [isLive, leaderOf]

/-- The live classes after the record of one of them was changed. -/
lemma Coherent.mem_liveClasses_modifyClass {a : Arena} {log log'} (co : a.Coherent log)
    {c : ClassId} {f : ClassRecord → ClassRecord} (co' : (a.modifyClass c f).Coherent log')
    (keeps : ∀ r, (f r).id = r.id) {record : ClassRecord} :
    record ∈ (a.modifyClass c f).liveClasses ↔
      ∃ old ∈ a.liveClasses, record = if old.id = c then f old else old := by
  have class? : ∀ d : ClassId, (a.modifyClass c f).class? d =
      if d = c then (a.class? d).map f else a.class? d := by
    intro d
    simp only [modifyClass, Arena.class?, Array.getElem?_modify]
    refine if_congr ?_ rfl rfl
    constructor
    · intro e
      exact congrArg ClassId.mk e.symm
    · rintro rfl
      rfl
  rw [co'.mem_liveClasses, class?]
  constructor
  · rintro ⟨found, leads⟩
    split at found
    · rename_i here
      obtain ⟨old, was, rfl⟩ := Option.map_eq_some_iff.1 found
      rw [keeps] at here was leads
      exact ⟨old, co.mem_liveClasses.2 ⟨was, leads⟩, (if_pos here).symm⟩
    · rename_i elsewhere
      exact ⟨record, co.mem_liveClasses.2 ⟨found, leads⟩, (if_neg elsewhere).symm⟩
  · rintro ⟨old, mem, rfl⟩
    obtain ⟨was, leads⟩ := co.mem_liveClasses.1 mem
    split
    · rename_i here
      rw [keeps, if_pos here, was]
      exact ⟨rfl, leads⟩
    · exact ⟨was, leads⟩

/-- Freezing every live class moves nothing. -/
lemma Retouches.finalizeAll {a : Arena} (rk : a.forest.Ranked) : a.Retouches a.finalizeAll where
  store := rfl
  nextSeq := rfl
  forest := .refl rk
  classes_size := by simp [Arena.finalizeAll]
  records := by
    intro c record found
    simp only [Arena.finalizeAll, class?, Array.getElem?_map] at found
    obtain ⟨old, was, rfl⟩ := Option.map_eq_some_iff.1 found
    refine ⟨old, was, ?_⟩
    split <;> exact ⟨rfl, rfl, rfl, rfl⟩

/-! ## Merging -/

/-- One arena is another one with class `hi` merged into class `lo`. -/
structure Merges (a b : Arena) (lo hi : Nat) : Prop where
  lt : lo < hi
  hi_lt : hi < a.size
  leads_lo : a.forest.leaderOf lo = lo
  leads_hi : a.forest.leaderOf hi = hi
  store : b.store = a.store
  nextSeq : b.nextSeq = a.nextSeq
  forest : b.forest.WellFormed
  forest_size : b.forest.size = a.forest.size
  leaderOf : ∀ i, b.forest.leaderOf i =
    if a.forest.leaderOf i = hi then lo else a.forest.leaderOf i
  classes_size : b.classes.size = a.classes.size
  merged : ∃ kept gone, a.class? ⟨lo⟩ = some kept ∧ a.class? ⟨hi⟩ = some gone ∧
    b.class? ⟨lo⟩ = some (kept.takeOver gone) ∧ b.class? ⟨hi⟩ = some (gone.handOver ⟨lo⟩)
  others : ∀ {c}, c ≠ lo → c ≠ hi → b.class? ⟨c⟩ = a.class? ⟨c⟩

/-- A merge adds no variable. -/
lemma Merges.size {a b : Arena} {lo hi : Nat} (mg : a.Merges b lo hi) : b.size = a.size := by
  simp only [Arena.size, mg.store]

/-- The survivor leads the variables of both classes. -/
lemma Merges.leaderOf_eq_lo {a b : Arena} {lo hi i : Nat} (mg : a.Merges b lo hi) :
    b.forest.leaderOf i = lo ↔ a.forest.leaderOf i = lo ∨ a.forest.leaderOf i = hi := by
  rw [mg.leaderOf]
  split <;> simp_all

/-- The class that is gone leads no variable. -/
lemma Merges.leaderOf_ne_hi {a b : Arena} {lo hi i : Nat} (mg : a.Merges b lo hi) :
    b.forest.leaderOf i ≠ hi := by
  have := mg.lt
  rw [mg.leaderOf]
  split <;> omega

/-- Every other class leads the variables that it led before. -/
lemma Merges.leaderOf_eq_iff {a b : Arena} {lo hi c i : Nat} (mg : a.Merges b lo hi)
    (ne_lo : c ≠ lo) (ne_hi : c ≠ hi) :
    b.forest.leaderOf i = c ↔ a.forest.leaderOf i = c := by
  rw [mg.leaderOf]
  split <;> omega

/-- A merge ends the lead of one class. -/
lemma Merges.leads_iff {a b : Arena} {lo hi c : Nat} (mg : a.Merges b lo hi) :
    b.forest.leaderOf c = c ↔ a.forest.leaderOf c = c ∧ c ≠ hi := by
  by_cases e_hi : c = hi
  · subst e_hi
    simp [mg.leaderOf_ne_hi]
  · by_cases e_lo : c = lo
    · subst e_lo
      simp [mg.leaderOf_eq_lo, mg.leads_lo, e_hi]
    · simp [mg.leaderOf_eq_iff e_lo e_hi, e_hi]

/-- The members of the survivor are those of both classes, in order. -/
lemma Merges.followers_lo {a b : Arena} {lo hi : Nat} (mg : a.Merges b lo hi) :
    (a.followers lo).merge (a.followers hi) (fun x y => decide (x.index ≤ y.index)) =
      b.followers lo := by
  have lt := mg.lt
  rw [followers, followers, Ascending.merge_filter a.vars_ascending]
  · have vars : b.vars = a.vars := by simp only [Arena.vars, mg.size]
    rw [followers, vars]
    congr 1
    funext v
    simp [mg.leaderOf_eq_lo]
  · intro v _ e
    simp only [decide_eq_true_eq, decide_eq_false_iff_not] at e ⊢
    omega

/-- The constraints of the survivor are those of both classes, in order. -/
lemma Merges.evidence_lo {a b : Arena} {log lo hi} (mg : a.Merges b lo hi) (co : a.Coherent log) :
    (a.evidence log lo).merge (a.evidence log hi) (fun x y => decide (x.seq ≤ y.seq)) =
      b.evidence log lo := by
  have lt := mg.lt
  rw [evidence, evidence, Ascending.merge_filter co.log_ascending]
  · rw [evidence]
    congr 1
    funext constraint
    simp [mg.leaderOf_eq_lo]
  · intro constraint _ e
    simp only [decide_eq_true_eq, decide_eq_false_iff_not] at e ⊢
    omega

/-- The records after a merge say what the forest says after it. -/
lemma Merges.records {a b : Arena} {log lo hi} (mg : a.Merges b lo hi) (co : a.Coherent log)
    {c : Nat} {record : ClassRecord} (found : b.class? ⟨c⟩ = some record) :
    b.Records log c record := by
  obtain ⟨kept, gone, was_lo, was_hi, now_lo, now_hi⟩ := mg.merged
  have rec_lo := co.records was_lo
  have rec_hi := co.records was_hi
  have lt := mg.lt
  by_cases e_lo : c = lo
  · -- the survivor holds what both classes held
    subst e_lo
    obtain rfl := Option.some.inj (now_lo.symm.trans found)
    refine ⟨rec_lo.id, ?_, ?_, ?_⟩
    · simp only [ClassRecord.takeOver, rec_lo.members, rec_hi.members]
      exact mg.followers_lo
    · simp only [ClassRecord.takeOver, rec_lo.constraints, rec_hi.constraints]
      exact mg.evidence_lo co
    · have live : (kept.takeOver gone).isLive = kept.isLive := rfl
      rw [live, rec_lo.isLive, mg.leaderOf_eq_lo.2 (.inl mg.leads_lo), mg.leads_lo]
  · by_cases e_hi : c = hi
    · -- the other class leads nobody any more
      subst e_hi
      obtain rfl := Option.some.inj (now_hi.symm.trans found)
      refine ⟨rec_hi.id, ?_, ?_, ?_⟩
      · refine (List.filter_eq_nil_iff.2 fun v _ => ?_).symm
        simpa using mg.leaderOf_ne_hi
      · refine (List.filter_eq_nil_iff.2 fun constraint _ => ?_).symm
        simpa using mg.leaderOf_ne_hi
      · have dead : (gone.handOver ⟨lo⟩).isLive = false := rfl
        simpa [dead] using mg.leaderOf_ne_hi
    · have h := co.records ((mg.others e_lo e_hi).symm.trans found)
      have same := fun i => mg.leaderOf_eq_iff (i := i) e_lo e_hi
      refine ⟨h.id, ?_, ?_, ?_⟩
      · simp only [h.members, followers, Arena.vars, mg.size, same]
      · simp only [h.constraints, evidence, same]
      · simp only [h.isLive, same]

/-- A merge keeps an arena coherent. -/
lemma Merges.coherent {a b : Arena} {log lo hi} (mg : a.Merges b lo hi) (co : a.Coherent log) :
    b.Coherent log where
  forest := mg.forest
  forest_size := by rw [mg.forest_size, co.forest_size, mg.size]
  classes_size := by rw [mg.classes_size, co.classes_size, mg.size]
  records := mg.records co
  seq := by rw [mg.nextSeq, co.seq]
  subject_lt mem := by
    rw [mg.size]
    exact co.subject_lt mem

/-- The records after a merge of two roots. -/
lemma class?_mergeRoots {a : Arena} {x y : Nat} {gone : ClassRecord}
    (was : a.class? ⟨max (a.forest.leader x) (a.forest.leader y)⟩ = some gone) (c : Nat) :
    (a.mergeRoots x y).class? ⟨c⟩ =
      let lo := min (a.forest.leader x) (a.forest.leader y)
      let hi := max (a.forest.leader x) (a.forest.leader y)
      let handed := if hi = c then (a.class? ⟨c⟩).map (·.handOver ⟨lo⟩) else a.class? ⟨c⟩
      if lo = c then handed.map (·.takeOver gone) else handed := by
  simp only [mergeRoots, was, modifyClass]
  simp only [class?, Array.getElem?_modify]

/-- The new leader is the lower one of the leaders that the roots store. -/
lemma forest_mergeRoots (a : Arena) (x y : Nat) : (a.mergeRoots x y).forest =
    a.forest.link x y (min (a.forest.leader x) (a.forest.leader y)) := by
  simp only [mergeRoots]
  split <;> rfl

/-- Merging two roots merges the classes of their leaders, the lower one surviving. -/
lemma Coherent.mergeRoots {a : Arena} {log} (co : a.Coherent log) {x y : Nat} (ne : x ≠ y)
    (ltx : x < a.size) (lty : y < a.size)
    (rx : a.forest.parent x = x) (ry : a.forest.parent y = y) :
    a.Merges (a.mergeRoots x y) (min (a.forest.leaderOf x) (a.forest.leaderOf y))
      (max (a.forest.leaderOf x) (a.forest.leaderOf y)) := by
  have wf := co.forest
  have lx : a.forest.leader x = a.forest.leaderOf x := wf.leader_of_isRoot rx
  have ly : a.forest.leader y = a.forest.leaderOf y := wf.leader_of_isRoot ry
  have apart : a.forest.leaderOf x ≠ a.forest.leaderOf y := by
    rw [Ne, wf.leaderOf_eq_iff, wf.root_of_isRoot rx, wf.root_of_isRoot ry]
    exact ne
  have lead_x := co.leaderOf_lt ltx
  have lead_y := co.leaderOf_lt lty
  have own_x := wf.leaderOf_leaderOf x
  have own_y := wf.leaderOf_leaderOf y
  rw [← co.forest_size] at ltx lty
  have hi_lt : max (a.forest.leaderOf x) (a.forest.leaderOf y) < a.size := by omega
  have lo_lt : min (a.forest.leaderOf x) (a.forest.leaderOf y) < a.size := by omega
  obtain ⟨gone, was_hi, _⟩ := co.exists_record hi_lt
  obtain ⟨kept, was_lo, _⟩ := co.exists_record lo_lt
  -- which record is kept depends on the leaders, and not on which root becomes the parent
  have records := class?_mergeRoots (a := a) (x := x) (y := y) (by rw [lx, ly]; exact was_hi)
  have forest := a.forest_mergeRoots x y
  simp only [lx, ly] at records
  refine ⟨by omega, hi_lt, ?_, ?_, ?_, ?_, ?_, ?_, ?_, ?_, ?_, ?_⟩
  · rcases min_choice (a.forest.leaderOf x) (a.forest.leaderOf y) with e | e <;> rw [e] <;>
      assumption
  · rcases max_choice (a.forest.leaderOf x) (a.forest.leaderOf y) with e | e <;> rw [e] <;>
      assumption
  · simp only [Arena.mergeRoots]
    split <;> rfl
  · simp only [Arena.mergeRoots]
    split <;> rfl
  · rw [forest]
    exact wf.link ne ltx lty rx ry
  · rw [forest, Forest.size_link]
  · intro i
    rw [forest, wf.leaderOf_link ne ltx lty rx ry, lx, ly]
  · simp only [Arena.mergeRoots, Arena.modifyClass]
    split <;> simp
  · refine ⟨kept, gone, was_lo, was_hi, ?_, ?_⟩
    · rw [records, if_pos rfl, if_neg (by omega), was_lo]
      rfl
    · rw [records, if_neg (by omega), if_pos rfl, was_hi]
      rfl
  · intro c ne_lo ne_hi
    rw [records, if_neg ne_lo.symm, if_neg ne_hi.symm]

/-! ## Growth -/

/-- An empty arena is coherent, with an empty log. -/
lemma empty_coherent : Arena.empty.Coherent [] where
  forest := Forest.empty_wellFormed
  forest_size := rfl
  classes_size := rfl
  records found := by simp [class?, empty] at found
  seq := rfl
  subject_lt mem := by simp at mem

/-- A new variable makes the arena larger by one. -/
@[simp] lemma size_addVariable (a : Arena) (site : UseSite) :
    (a.addVariable site).size = a.size + 1 := by
  simp [addVariable, Arena.size, VariableStore.size, VariableStore.push]

/-- A new variable changes no leader. -/
lemma Coherent.leaderOf_addVariable {a : Arena} {log} (co : a.Coherent log) (site : UseSite)
    (i : Nat) : (a.addVariable site).forest.leaderOf i = a.forest.leaderOf i :=
  co.forest.toRanked.leaderOf_push i

/-- The record of a new class, and the records that were there before. -/
lemma Coherent.class?_addVariable {a : Arena} {log} (co : a.Coherent log) (site : UseSite)
    (c : Nat) : (a.addVariable site).class? ⟨c⟩ =
      if c = a.size then some (.singleton a.size) else a.class? ⟨c⟩ := by
  simp only [class?, addVariable, Array.getElem?_push, co.classes_size]

/-- A new variable follows itself alone. -/
lemma Coherent.followers_addVariable {a : Arena} {log} (co : a.Coherent log) (site : UseSite)
    {c : Nat} (le : c ≤ a.size) : (a.addVariable site).followers c =
      if c = a.size then [⟨a.size⟩] else a.followers c := by
  have own : a.forest.leaderOf a.size = a.size :=
    Forest.leaderOf_of_size_le co.forest_size.le
  simp only [followers, vars, size_addVariable, co.leaderOf_addVariable, List.range_succ,
    List.map_append, List.filter_append, List.map_cons, List.map_nil, List.filter_cons,
    List.filter_nil, own]
  by_cases e : c = a.size
  · subst e
    rw [if_pos (by simp), if_pos rfl]
    -- nobody follows a higher number, so none of the old variables follows the new one
    refine congrArg (· ++ _) (List.filter_eq_nil_iff.2 fun v mem => ?_)
    have := co.forest.leaderOf_le v.index
    have := mem_vars.1 mem
    simp only [decide_eq_true_eq]
    omega
  · rw [if_neg (by simpa using Ne.symm e), if_neg e, List.append_nil]

/-- A new variable keeps an arena coherent. -/
lemma Coherent.addVariable {a : Arena} {log} (co : a.Coherent log) (site : UseSite) :
    (a.addVariable site).Coherent log := by
  have leaderOf := co.leaderOf_addVariable site
  refine ⟨co.forest.push, ?_, ?_, ?_, co.seq, ?_⟩
  · rw [size_addVariable, ← co.forest_size]
    exact Forest.size_push _
  · rw [size_addVariable, ← co.classes_size]
    simp [Arena.addVariable]
  · intro c record found
    rw [co.class?_addVariable] at found
    split at found
    · rename_i e
      subst e
      obtain rfl := Option.some.inj found
      refine ⟨rfl, ?_, ?_, ?_⟩
      · rw [co.followers_addVariable site le_rfl, if_pos rfl]
        rfl
      · refine (List.filter_eq_nil_iff.2 fun constraint mem => ?_).symm
        have := co.forest.leaderOf_le constraint.subject.index
        have := co.subject_lt mem
        simp only [leaderOf, decide_eq_true_eq]
        omega
      · rw [leaderOf, Forest.leaderOf_of_size_le co.forest_size.le]
        simp [ClassRecord.singleton, ClassRecord.isLive]
    · rename_i ne
      have h := co.records found
      have lt := co.lt_of_record found
      refine ⟨h.id, ?_, ?_, ?_⟩
      · rw [co.followers_addVariable site lt.le, if_neg ne, h.members]
      · simp only [h.constraints, evidence, leaderOf]
      · rw [h.isLive, leaderOf]
  · intro constraint mem
    have := co.subject_lt mem
    rw [size_addVariable]
    omega

/-- The arena with one more constraint in the class of its subject. -/
def withConstraint (a : Arena) (store : VariableStore) (constraint : Constraint) : Arena :=
  { a with store, nextSeq := a.nextSeq + 1 }.modifyClass
    ⟨a.forest.leaderOf constraint.subject.index⟩ (·.addConstraint constraint)

/-- The records after a constraint was added. -/
lemma class?_withConstraint (a : Arena) (store : VariableStore) (constraint : Constraint)
    (c : Nat) : (a.withConstraint store constraint).class? ⟨c⟩ =
      if a.forest.leaderOf constraint.subject.index = c
      then (a.class? ⟨c⟩).map (·.addConstraint constraint) else a.class? ⟨c⟩ := by
  simp only [withConstraint, modifyClass, class?, Array.getElem?_modify]

/-- A constraint that is added to its class and to the log keeps an arena coherent. -/
lemma Coherent.withConstraint {a : Arena} {log} (co : a.Coherent log) {store : VariableStore}
    {constraint : Constraint} (size : store.size = a.size) (seq : constraint.seq = a.nextSeq)
    (lt : constraint.subject.index < a.size) :
    (a.withConstraint store constraint).Coherent (log ++ [constraint]) := by
  refine ⟨co.forest, ?_, ?_, ?_, ?_, ?_⟩
  · exact co.forest_size.trans size.symm
  · simp only [Arena.withConstraint, Arena.modifyClass, Array.size_modify]
    exact co.classes_size.trans size.symm
  · intro c record found
    rw [class?_withConstraint] at found
    have followers : (a.withConstraint store constraint).followers c = a.followers c := by
      have size : (a.withConstraint store constraint).size = a.size := size
      simp only [Arena.followers, vars, size]
      rfl
    have evidence : (a.withConstraint store constraint).evidence (log ++ [constraint]) c =
        a.evidence log c ++
          if a.forest.leaderOf constraint.subject.index = c then [constraint] else [] := by
      simp only [Arena.evidence, List.filter_append, List.filter_cons, List.filter_nil,
        decide_eq_true_eq]
      rfl
    -- only the record of the class that leads the subject changes
    split at found
    · rename_i e
      obtain ⟨old, was, rfl⟩ := Option.map_eq_some_iff.1 found
      have h := co.records was
      refine ⟨h.id, ?_, ?_, h.isLive⟩
      · rw [followers, ← h.members]
        rfl
      · rw [evidence, if_pos e, ← h.constraints]
        rfl
    · rename_i ne
      have h := co.records found
      refine ⟨h.id, ?_, ?_, h.isLive⟩
      · rw [followers, h.members]
      · rw [evidence, if_neg ne, List.append_nil, h.constraints]
  · rw [List.map_append, co.seq, List.map_cons, List.map_nil, seq]
    exact List.range_succ.symm
  · intro other mem
    have size : (a.withConstraint store constraint).size = a.size := size
    rw [size]
    rcases List.mem_append.1 mem with mem | mem
    · exact co.subject_lt mem
    · rw [List.mem_singleton] at mem
      exact mem ▸ lt

/-! ## The live classes after a change -/

/-- After a merge the survivor stands for two classes, and the others are as they were. -/
lemma Merges.mem_liveClasses {a b : Arena} {log lo hi} (mg : a.Merges b lo hi)
    (co : a.Coherent log) {record : ClassRecord} :
    record ∈ b.liveClasses ↔
      (∃ kept ∈ a.liveClasses, ∃ gone ∈ a.liveClasses,
        kept.id = ⟨lo⟩ ∧ gone.id = ⟨hi⟩ ∧ record = kept.takeOver gone) ∨
      record ∈ a.liveClasses ∧ record.id ≠ ⟨lo⟩ ∧ record.id ≠ ⟨hi⟩ := by
  obtain ⟨kept, gone, was_lo, was_hi, now_lo, _⟩ := mg.merged
  have id_lo := (co.records was_lo).id
  have id_hi := (co.records was_hi).id
  have live_lo : kept ∈ a.liveClasses :=
    co.mem_liveClasses.2 (by rw [id_lo]; exact ⟨was_lo, mg.leads_lo⟩)
  have live_hi : gone ∈ a.liveClasses :=
    co.mem_liveClasses.2 (by rw [id_hi]; exact ⟨was_hi, mg.leads_hi⟩)
  rw [(mg.coherent co).mem_liveClasses, mg.leads_iff]
  constructor
  · rintro ⟨found, leads, ne_hi⟩
    by_cases e : record.id.index = lo
    · subst e
      obtain rfl := Option.some.inj (found.symm.trans now_lo)
      exact .inl ⟨kept, live_lo, gone, live_hi, id_lo, id_hi, rfl⟩
    · have was := (mg.others e ne_hi).symm.trans found
      refine .inr ⟨co.mem_liveClasses.2 ⟨was, leads⟩, ?_, ?_⟩
      · exact fun same => e (congrArg ClassId.index same)
      · exact fun same => ne_hi (congrArg ClassId.index same)
  · rintro (⟨kept', mem, gone', mem', e, e', rfl⟩ | ⟨mem, ne_lo, ne_hi⟩)
    · have found := (co.mem_liveClasses.1 mem).1
      have found' := (co.mem_liveClasses.1 mem').1
      rw [e, was_lo] at found
      rw [e', was_hi] at found'
      obtain rfl := Option.some.inj found
      obtain rfl := Option.some.inj found'
      have id : (kept.takeOver gone).id = ⟨lo⟩ := id_lo
      rw [id]
      exact ⟨now_lo, mg.leads_lo, mg.lt.ne⟩
    · obtain ⟨found, leads⟩ := co.mem_liveClasses.1 mem
      have ne_lo : record.id.index ≠ lo := fun e => ne_lo (congrArg ClassId.mk e)
      have ne_hi : record.id.index ≠ hi := fun e => ne_hi (congrArg ClassId.mk e)
      exact ⟨(mg.others ne_lo ne_hi).trans found, leads, ne_hi⟩

/-- A new variable has a class of its own. -/
lemma mem_liveClasses_addVariable {a : Arena} {site : UseSite} {record : ClassRecord} :
    record ∈ (a.addVariable site).liveClasses ↔
      record ∈ a.liveClasses ∨ record = .singleton a.size := by
  have live : (ClassRecord.singleton a.size).isLive = true := rfl
  simp [liveClasses, Arena.addVariable, List.filter_append, live]

/-- A new constraint is in the class of its subject. -/
lemma Coherent.mem_liveClasses_withConstraint {a : Arena} {log log'} (co : a.Coherent log)
    {store : VariableStore} {constraint : Constraint}
    (co' : (a.withConstraint store constraint).Coherent log') {record : ClassRecord} :
    record ∈ (a.withConstraint store constraint).liveClasses ↔
      ∃ old ∈ a.liveClasses, record =
        if a.forest.leaderOf constraint.subject.index = old.id.index
        then old.addConstraint constraint else old := by
  have leaderOf : ∀ i, (a.withConstraint store constraint).forest.leaderOf i =
      a.forest.leaderOf i := fun _ => rfl
  have class? : ∀ c : ClassId, (a.withConstraint store constraint).class? c =
      if a.forest.leaderOf constraint.subject.index = c.index
      then (a.class? c).map (·.addConstraint constraint) else a.class? c :=
    fun c => class?_withConstraint a store constraint c.index
  rw [co'.mem_liveClasses, class?, leaderOf]
  constructor
  · rintro ⟨found, leads⟩
    split at found
    · rename_i here
      obtain ⟨old, was, rfl⟩ := Option.map_eq_some_iff.1 found
      exact ⟨old, co.mem_liveClasses.2 ⟨was, leads⟩, (if_pos here).symm⟩
    · rename_i elsewhere
      exact ⟨record, co.mem_liveClasses.2 ⟨found, leads⟩, (if_neg elsewhere).symm⟩
  · rintro ⟨old, mem, rfl⟩
    obtain ⟨was, leads⟩ := co.mem_liveClasses.1 mem
    by_cases here : a.forest.leaderOf constraint.subject.index = old.id.index
    · have id : (old.addConstraint constraint).id = old.id := rfl
      rw [if_pos here, id, if_pos here, was]
      exact ⟨rfl, leads⟩
    · rw [if_neg here, if_neg here]
      exact ⟨was, leads⟩

/-- Freezing every live class freezes each of them. -/
lemma mem_liveClasses_finalizeAll {a : Arena} {record : ClassRecord} :
    record ∈ a.finalizeAll.liveClasses ↔ ∃ old ∈ a.liveClasses, record = old.finalize := by
  simp only [Arena.liveClasses, Arena.finalizeAll, Array.toList_map, List.mem_filter, List.mem_map]
  constructor
  · rintro ⟨⟨old, mem, rfl⟩, live⟩
    split at live
    · rename_i was
      exact ⟨old, ⟨mem, was⟩, if_pos was⟩
    · rename_i was
      exact absurd live was
  · rintro ⟨old, ⟨mem, live⟩, rfl⟩
    exact ⟨⟨old, mem, if_pos live⟩, live⟩

/-- A merge keeps what holds of every live class, if it holds of every survivor. -/
lemma Merges.forall_live {a b : Arena} {log lo hi} (mg : a.Merges b lo hi) (co : a.Coherent log)
    {P : ClassRecord → Prop} (each : ∀ record ∈ a.liveClasses, P record)
    (survivor : ∀ kept gone, P (ClassRecord.takeOver kept gone)) :
    ∀ record ∈ b.liveClasses, P record := by
  intro record mem
  rcases (mg.mem_liveClasses co).1 mem with ⟨kept, _, gone, _, _, _, rfl⟩ | ⟨mem, _⟩
  · exact survivor kept gone
  · exact each record mem

/-- No class has a verdict yet. -/
def Unjudged (a : Arena) : Prop :=
  ∀ record ∈ a.liveClasses, record.dataType = none ∧
    record.state = if record.constraints = [] then .unresolved else .constrained

/-- A class without a verdict is not finalized. -/
lemma Unjudged.unfrozen {a : Arena} (uj : a.Unjudged) : a.Unfrozen := by
  intro record mem
  rw [(uj record mem).2]
  split <;> simp

/-- An empty arena has no verdicts. -/
lemma empty_unjudged : Arena.empty.Unjudged := by
  intro record mem
  simp [liveClasses, empty] at mem

/-- A merge voids verdicts and makes none. -/
lemma Unjudged.merges {a b : Arena} {log lo hi} (uj : a.Unjudged) (co : a.Coherent log)
    (mg : a.Merges b lo hi) : b.Unjudged :=
  mg.forall_live co uj fun _ _ => ⟨rfl, by simp [ClassRecord.takeOver]⟩

/-- The class of a new variable has no verdict. -/
lemma Unjudged.addVariable {a : Arena} (uj : a.Unjudged) (site : UseSite) :
    (a.addVariable site).Unjudged := by
  intro record mem
  rcases mem_liveClasses_addVariable.1 mem with mem | rfl
  · exact uj record mem
  · exact ⟨rfl, rfl⟩

/-- A new constraint makes no verdict. -/
lemma Unjudged.withConstraint {a : Arena} {log log'} (uj : a.Unjudged) (co : a.Coherent log)
    {store : VariableStore} {constraint : Constraint}
    (co' : (a.withConstraint store constraint).Coherent log') :
    (a.withConstraint store constraint).Unjudged := by
  intro record mem
  obtain ⟨old, was, rfl⟩ := (co.mem_liveClasses_withConstraint co').1 mem
  split
  · exact ⟨(uj old was).1, by simp [ClassRecord.addConstraint]⟩
  · exact uj old was

end Arena

end TypeRecovery
