import Mathlib.Data.List.Perm.Subperm
import TypeRecovery.Proofs.Arena.Calls
import TypeRecovery.Proofs.Resolution.Questions
import TypeRecovery.Proofs.Resolution.Resolver

/-!
# Runs of a resolution

`Runs` says what resolving a class does, without a bound on how many classes can wait for each
other. A run has one outcome (`Runs.unique`), moves nothing and gives a verdict only to classes that
have none (`Runs.judges`), and leaves the classes that wait alone (`Runs.keeps_pending`). The bound of
`resolveWithin` is never reached if it is at least the number of live classes that do not wait
(`resolveWithin_runs`), as a class that waits is not resolved again.
-/

namespace TypeRecovery

open ResolveM (settled?)

namespace Arena

/-- Nothing is moved, and only live classes without a verdict get one. -/
structure Judges (a b : Arena) : Prop where
  retouches : a.Retouches b
  records : ∀ {c old}, a.class? c = some old → b.class? c = some old ∨
    old.isLive = true ∧ settled? old = none ∧ ∃ t, b.class? c = some (old.setType t)

section
variable {a b d : Arena} {log : List Constraint} {c : ClassId} {t : DataType}

/-- An arena gets no verdict by itself. -/
lemma Judges.refl (co : a.Coherent log) : a.Judges a :=
  ⟨.refl co.forest.toRanked, .inl⟩

/-- Verdicts may be given in two steps. -/
lemma Judges.trans (first : a.Judges b) (last : b.Judges d) : a.Judges d := by
  refine ⟨first.retouches.trans last.retouches, ?_⟩
  intro c old was
  rcases first.records was with same | ⟨live, blank, t, given⟩
  · exact last.records same
  · rcases last.records given with same | ⟨_, blank', _⟩
    · exact .inr ⟨live, blank, t, same⟩
    · cases blank'

/-- Shorter paths in the forest give no verdict. -/
lemma Compresses.judges (cp : a.Compresses b) : a.Judges b := by
  refine ⟨cp.retouches, ?_⟩
  obtain ⟨g, _, rfl⟩ := cp
  exact .inl

/-- A class that has a verdict keeps it. -/
lemma Judges.settled (ju : a.Judges b) {old : ClassRecord} (was : a.class? c = some old)
    (settled : settled? old = some t) : b.class? c = some old := by
  rcases ju.records was with same | ⟨_, blank, _⟩
  · exact same
  · rw [settled] at blank
    cases blank

/-- The record of a class that was merged into another one is left alone. -/
lemma Judges.class?_of_absorbed (ju : a.Judges b) {old : ClassRecord}
    (was : a.class? c = some old) (absorbed : old.isLive = false) : b.class? c = some old := by
  rcases ju.records was with same | ⟨live, _⟩
  · exact same
  · cases absorbed.symm.trans live

/-- A class that has no verdict is as it was. -/
lemma Judges.blank (ju : a.Judges b) {old record : ClassRecord} (was : a.class? c = some old)
    (found : b.class? c = some record) (blank : settled? record = none) : record = old := by
  rcases ju.records was with same | ⟨_, _, t, given⟩
  · rw [found] at same
    exact Option.some.inj same
  · rw [found] at given
    cases given
    cases blank

/-- A class that is found to stand for itself leads its class, and nothing but paths has changed. -/
lemma leads_of_find (co : a.Coherent log) (found : ArenaM.find c a = .ok c b) :
    a.Compresses b ∧ b.forest.leaderOf c.index = c.index := by
  obtain ⟨_, own, cp⟩ := ArenaM.of_find_eq_ok co found
  rw [cp.leaderOf_eq co]
  exact ⟨cp, (congrArg ClassId.index own).symm⟩

/-- The records after a verdict was given. -/
lemma class?_of_setType (co : a.Coherent log) (leads : a.forest.leaderOf c.index = c.index)
    (run : ArenaM.setType c t a = .ok () b) (d : ClassId) :
    b.class? d = if d = c then (a.class? d).map (·.setType t) else a.class? d := by
  obtain ⟨e, m, found, _⟩ := bind_eq_ok.1 run
  obtain ⟨lt, _, _⟩ := ArenaM.of_find_eq_ok co found
  obtain ⟨b', cp, ran⟩ := ArenaM.setType_of_lt co t lt
  rw [run] at ran
  split at ran
  · cases ran
  · cases ran
    obtain ⟨g, _, rfl⟩ := cp
    have same : c.index = d.index ↔ d = c :=
      ⟨fun e => (congrArg ClassId.mk e).symm, fun e => (congrArg ClassId.index e).symm⟩
    simp only [class?, modifyClass, Array.getElem?_modify, leads, same]

/-- A class has the verdict that it is given, whatever it was given before. -/
lemma Judges.class?_of_setType {record : ClassRecord} (ju : a.Judges b) (co : a.Coherent log)
    (leads : a.forest.leaderOf c.index = c.index) (here : a.class? c = some record)
    (run : ArenaM.setType c t b = .ok () d) (e : ClassId) :
    d.class? e = if e = c then some (record.setType t) else b.class? e := by
  rw [← ju.retouches.forest.leaderOf_eq co.forest.toRanked] at leads
  rw [Arena.class?_of_setType (ju.retouches.coherent co) leads run]
  split
  · rename_i same
    subst same
    rcases ju.records here with same | ⟨_, _, u, given⟩
    · rw [same, Option.map_some]
    · rw [given, Option.map_some]
      rfl
  · rfl

end

end Arena

namespace ResolveM

open Arena

/-- What there is to do. -/
inductive Task where
  | resolve (c : ClassId)
  | inquire (x : Inquiry DataType)

/-- Doing a task, for which the classes in `pending` wait, takes one state to another one and gives
a type. -/
inductive Runs (config : Config) :
    List ClassId → Task → Resolution → DataType → Resolution → Prop
  | known {pending c s b record t} : ArenaM.find c s.arena = .ok c b →
    b.class? c = some record → settled? record = some t →
    Runs config pending (.resolve c) s t { s with arena := b }
  | judged {pending c s b record t m b'} : c ∉ pending → ArenaM.find c s.arena = .ok c b →
    b.class? c = some record → settled? record = none →
    Runs config (c :: pending) (.inquire (.verdict config c (.gather record.constraints)))
      { s with arena := b } t m →
    ArenaM.setType c t m.arena = .ok () b' →
    Runs config pending (.resolve c) s t { m with arena := b' }
  | answer {pending s t} : Runs config pending (.inquire (.answer t)) s t s
  | remark {pending n next s t s'} :
    Runs config pending (.inquire next) { s with remarks := s.remarks.push n } t s' →
    Runs config pending (.inquire (.remark n next)) s t s'
  | askClass {pending v next s c t s'} : s.arena.classOf? v = some c →
    Runs config pending (.inquire (next c)) s t s' →
    Runs config pending (.inquire (.askClass v next)) s t s'
  | askOpen {pending v next s c t s'} : s.arena.classOf? v = some c → c ∈ pending →
    Runs config pending (.inquire (next none)) s t s' →
    Runs config pending (.inquire (.askType v next)) s t s'
  | askType {pending v next s c u m t s'} : s.arena.classOf? v = some c → c ∉ pending →
    Runs config pending (.resolve c) s u m → Runs config pending (.inquire (next (some u))) m t s' →
    Runs config pending (.inquire (.askType v next)) s t s'

section
variable {config : Config} {pending : List ClassId} {task : Task} {s s' : Resolution}
  {t : DataType} {log : List Constraint}

/-- A run has one outcome. -/
lemma Runs.unique {t' : DataType} {s'' : Resolution} (run : Runs config pending task s t s')
    (other : Runs config pending task s t' s'') : t = t' ∧ s' = s'' := by
  -- the rules for one task exclude each other, so the other run ends with the same rule
  induction run generalizing t' s'' with
  | known found here settled =>
    cases other with
    | known found' here' settled' =>
      cases found.symm.trans found'
      cases here.symm.trans here'
      cases settled.symm.trans settled'
      exact ⟨rfl, rfl⟩
    | judged _ found' here' blank =>
      cases found.symm.trans found'
      cases here.symm.trans here'
      cases settled.symm.trans blank
  | judged _ found here blank _ set ih =>
    cases other with
    | known found' here' settled =>
      cases found.symm.trans found'
      cases here.symm.trans here'
      cases settled.symm.trans blank
    | judged _ found' here' _ inquired set' =>
      cases found.symm.trans found'
      cases here.symm.trans here'
      obtain ⟨rfl, rfl⟩ := ih inquired
      cases set.symm.trans set'
      exact ⟨rfl, rfl⟩
  | answer =>
    cases other
    exact ⟨rfl, rfl⟩
  | remark _ ih =>
    cases other with
    | remark next => exact ih next
  | askClass held _ ih =>
    cases other with
    | askClass held' next =>
      cases held.symm.trans held'
      exact ih next
  | askOpen held waits _ ih =>
    cases other with
    | askOpen _ _ next => exact ih next
    | askType held' ready =>
      cases held.symm.trans held'
      exact absurd waits ready
  | askType held ready _ _ ih ih' =>
    cases other with
    | askOpen held' waits =>
      cases held.symm.trans held'
      exact absurd waits ready
    | askType held' _ resolved next =>
      cases held.symm.trans held'
      obtain ⟨rfl, rfl⟩ := ih resolved
      exact ih' next

/-- A run moves nothing, and gives verdicts to live classes without one only. -/
lemma Runs.judges (run : Runs config pending task s t s') (co : s.arena.Coherent log) :
    s.arena.Judges s'.arena := by
  induction run with
  | known found =>
    obtain ⟨_, _, cp⟩ := ArenaM.of_find_eq_ok co found
    exact cp.judges
  | @judged pending c s b record t m b' _ found here blank _ set ih =>
    obtain ⟨cp, leads⟩ := leads_of_find co found
    have cob := cp.coherent co
    have inner : b.Judges m.arena := ih cob
    have live : record.isLive = true := by
      rw [(cob.records here).isLive]
      exact decide_eq_true leads
    have touched := ArenaM.retouches_of_setType (inner.retouches.coherent cob) set
    refine cp.judges.trans ⟨inner.retouches.trans touched, ?_⟩
    intro d old was
    show b'.class? d = _ ∨ _ ∧ _ ∧ ∃ t, b'.class? d = _
    rw [inner.class?_of_setType cob leads here set]
    by_cases same : d = c
    · subst same
      rw [here] at was
      cases was
      exact .inr ⟨live, blank, t, if_pos rfl⟩
    · rw [if_neg same]
      exact inner.records was
  | answer => exact .refl co
  | remark _ ih => exact ih co
  | askClass _ _ ih => exact ih co
  | askOpen _ _ _ ih => exact ih co
  | askType _ _ _ _ ih ih' =>
    have first := ih co
    exact first.trans (ih' (first.retouches.coherent co))

/-- The verdict on a class is a type. -/
def Settled (s : Resolution) (c : ClassId) (t : DataType) : Prop :=
  ∃ record, s.arena.class? c = some record ∧ settled? record = some t

/-- Verdicts stay. -/
lemma Settled.judges {c : ClassId} (settled : Settled s c t) (ju : s.arena.Judges s'.arena) :
    Settled s' c t := by
  obtain ⟨record, found, verdict⟩ := settled
  exact ⟨record, ju.settled found verdict, verdict⟩

/-- A class that was resolved has the verdict that was given. -/
lemma Runs.settled {c : ClassId} (run : Runs config pending (.resolve c) s t s')
    (co : s.arena.Coherent log) : Settled s' c t := by
  cases run with
  | known _ here settled => exact ⟨_, here, settled⟩
  | judged _ found here _ inquired set =>
    obtain ⟨cp, leads⟩ := leads_of_find co found
    have inner := inquired.judges (cp.coherent co)
    have given := inner.class?_of_setType (cp.coherent co) leads here set c
    rw [if_pos rfl] at given
    exact ⟨_, given, rfl⟩

/-- A run leaves the classes that wait for it alone. -/
lemma Runs.keeps_pending (run : Runs config pending task s t s') (co : s.arena.Coherent log)
    {d : ClassId} (waits : d ∈ pending) : s'.arena.class? d = s.arena.class? d := by
  induction run with
  | known found =>
    obtain ⟨⟨g, _, rfl⟩, _⟩ := leads_of_find co found
    rfl
  | @judged pending c s b record t m b' ready found here _ inquired set ih =>
    obtain ⟨cp, leads⟩ := leads_of_find co found
    have inner := inquired.judges (cp.coherent co)
    have other : d ≠ c := fun same => ready (same ▸ waits)
    have kept := ih (cp.coherent co) (List.mem_cons_of_mem _ waits)
    show b'.class? d = s.arena.class? d
    rw [inner.class?_of_setType (cp.coherent co) leads here set, if_neg other, kept]
    obtain ⟨g, _, rfl⟩ := cp
    rfl
  | answer => rfl
  | remark _ ih => exact ih co waits
  | askClass _ _ ih => exact ih co waits
  | askOpen _ _ _ ih => exact ih co waits
  | askType _ _ resolved _ ih ih' =>
    rw [ih' ((resolved.judges co).retouches.coherent co) waits, ih co waits]

end

end ResolveM

/-! ## Every class has a run -/

namespace Arena

/-- What the resolution of an arena relies on: the variables that constraints mention are there, no
stride is zero, and no class was finalized without a verdict. -/
structure Resolvable (a : Arena) : Prop where
  mentions : ∀ record ∈ a.liveClasses, ∀ constraint ∈ record.constraints,
    ∀ mention ∈ constraint.fact.mentions, mention.1.index < a.size
  strides : ∀ record ∈ a.liveClasses, ∀ constraint ∈ record.constraints,
    ∀ access ∈ constraint.fact.element?, access.stride ≠ 0
  finalized : ∀ record ∈ a.liveClasses, record.state = .finalized → record.dataType ≠ none

instance (a : Arena) : Decidable a.Resolvable :=
  decidable_of_iff (_ ∧ _ ∧ _) ⟨fun ⟨x, y, z⟩ => ⟨x, y, z⟩, fun ⟨x, y, z⟩ => ⟨x, y, z⟩⟩

/-- A class contains another one by value: as a field, an element, an argument or a result. -/
def Contains (a : Arena) (c d : ClassId) : Prop :=
  ∃ record ∈ a.liveClasses, record.id = c ∧ ∃ constraint ∈ record.constraints,
    ∃ mention ∈ constraint.fact.mentions, mention.2 = false ∧ a.classOf? mention.1 = some d

instance (a : Arena) (c d : ClassId) : Decidable (a.Contains c d) :=
  inferInstanceAs (Decidable (∃ record ∈ a.liveClasses, record.id = c ∧
    ∃ constraint ∈ record.constraints, ∃ mention ∈ constraint.fact.mentions,
      mention.2 = false ∧ a.classOf? mention.1 = some d))

/-- A class has a part at an offset, a field or an element, whose value is in another class. -/
def Embeds (a : Arena) (c : ClassId) (offset : Int64) (d : ClassId) : Prop :=
  ∃ record ∈ a.liveClasses, record.id = c ∧ ∃ constraint ∈ record.constraints,
    ∃ part ∈ constraint.fact.part?, part.1 = offset ∧ a.classOf? part.2 = some d

instance (a : Arena) (c : ClassId) (offset : Int64) (d : ClassId) :
    Decidable (a.Embeds c offset d) :=
  inferInstanceAs (Decidable (∃ record ∈ a.liveClasses, record.id = c ∧
    ∃ constraint ∈ record.constraints, ∃ part ∈ constraint.fact.part?,
      part.1 = offset ∧ a.classOf? part.2 = some d))

section
variable {a b : Arena} {log : List Constraint} {c : ClassId}

/-- The record of a live class is as it was, or has got a verdict. -/
lemma Judges.exists_live (ju : a.Judges b) (co : a.Coherent log) (live : c ∈ a.liveIds) :
    ∃ old ∈ a.liveClasses, a.class? c = some old ∧ ∃ record, b.class? c = some record ∧
      record.constraints = old.constraints ∧
      (record = old ∨ ∃ t, record = old.setType t) := by
  obtain ⟨old, mem, rfl⟩ := List.mem_map.1 live
  have was := (co.mem_liveClasses.1 mem).1
  refine ⟨old, mem, was, ?_⟩
  rcases ju.records was with same | ⟨_, _, t, given⟩
  · exact ⟨old, same, rfl, .inl rfl⟩
  · exact ⟨old.setType t, given, rfl, .inr ⟨t, rfl⟩⟩

/-- The evidence on a live class is not changed by verdicts. -/
lemma Judges.evidence (ju : a.Judges b) (co : a.Coherent log) (live : c ∈ a.liveIds)
    {record : ClassRecord} (here : b.class? c = some record) :
    record.constraints = a.evidence log c.index := by
  obtain ⟨old, mem, was, record', found, constraints, _⟩ := ju.exists_live co live
  cases here.symm.trans found
  rw [constraints]
  exact (co.records was).constraints

/-- A record that is live is that of a live class. -/
lemma Coherent.live_of_isLive (co : a.Coherent log) {record : ClassRecord}
    (found : a.class? c = some record) (lives : record.isLive = true) :
    record ∈ a.liveClasses ∧ c ∈ a.liveIds := by
  have mem : record ∈ a.liveClasses :=
    List.mem_filter.2 ⟨Array.mem_toList_iff.2 (Array.mem_of_getElem? found), lives⟩
  have id : record.id = c := (co.records found).id
  exact ⟨mem, id ▸ List.mem_map_of_mem mem⟩

/-- A live class was made and leads its class. -/
lemma Coherent.leads_of_live (co : a.Coherent log) (live : c ∈ a.liveIds) :
    c.index < a.size ∧ a.forest.leaderOf c.index = c.index := by
  obtain ⟨old, mem, rfl⟩ := List.mem_map.1 live
  obtain ⟨found, leads⟩ := co.mem_liveClasses.1 mem
  exact ⟨co.lt_of_record found, leads⟩

/-- The leader of a class is live. -/
lemma Coherent.leader_mem_liveIds (co : a.Coherent log) {i : Nat} (lt : i < a.size) :
    (⟨a.forest.leaderOf i⟩ : ClassId) ∈ a.liveIds := by
  obtain ⟨record, mem, h⟩ := co.leader_live lt
  exact h.id ▸ List.mem_map_of_mem mem

/-- Verdicts move no variable. -/
lemma Judges.classOf? (ju : a.Judges b) (co : a.Coherent log) (v : VarId) :
    b.classOf? v = a.classOf? v := by
  have leaderOf := ju.retouches.forest.leaderOf_eq co.forest.toRanked
  simp only [Arena.classOf?, representative?, ju.retouches.forest.size, leaderOf]

/-- A variable that was made is in the class of its leader, whatever verdicts were given. -/
lemma Judges.classOf?_eq (ju : a.Judges b) (co : a.Coherent log) {v : VarId}
    (lt : v.index < a.size) : b.classOf? v = some ⟨a.forest.leaderOf v.index⟩ :=
  (ju.classOf? co v).trans (co.classOf?_eq lt)

/-- A class without a verdict is not finalized. -/
lemma Resolvable.state_ne_finalized (res : a.Resolvable) {record : ClassRecord}
    (mem : record ∈ a.liveClasses) (blank : settled? record = none) :
    record.state ≠ .finalized := by
  intro frozen
  apply res.finalized record mem frozen
  rw [settled?, frozen] at blank
  exact blank

/-- A class can be given a verdict if it was not finalized. -/
lemma Judges.exists_setType (ju : a.Judges b) (co : a.Coherent log) {record : ClassRecord}
    (here : a.class? c = some record) (leads : a.forest.leaderOf c.index = c.index)
    (unfrozen : record.state ≠ .finalized) (t : DataType) :
    ∃ b', ArenaM.setType c t b = .ok () b' := by
  have lt := co.lt_of_record here
  rw [← ju.retouches.size] at lt
  obtain ⟨b', _, ran⟩ := ArenaM.setType_of_lt (ju.retouches.coherent co) t lt
  have free : b.isFinalized c = false := by
    rcases ju.records here with same | ⟨_, _, u, given⟩
    · simpa [isFinalized, same] using unfrozen
    · simp [isFinalized, given, ClassRecord.setType]
  rw [ju.retouches.forest.leaderOf_eq co.forest.toRanked, leads, free] at ran
  exact ⟨_, ran⟩

end

end Arena

namespace ResolveM

open Arena

/-- A question for a type, answered as a run answers it. -/
inductive Answered (config : Config) (pending : List ClassId) (v : VarId) (s : Resolution) :
    Option DataType → Resolution → Prop
  | waiting {c} : s.arena.classOf? v = some c → c ∈ pending → Answered config pending v s none s
  | found {c u m} : s.arena.classOf? v = some c → c ∉ pending →
    Runs config pending (.resolve c) s u m → Answered config pending v s (some u) m

section
variable {config : Config} {pending : List ClassId} {a : Arena} {log : List Constraint}
  {s : Resolution} {c : ClassId}

/-- An inquiry has a run if its questions are answered as a run answers them. -/
lemma inquire_runs {x : Inquiry DataType} {constraints : List Constraint}
    {post : DataType → Prop} {typeOf : VarId → ResolveM (Option DataType)} (co : a.Coherent log)
    (asks : x.Asks (.of constraints) post)
    (known : ∀ {v pointee}, Mentions constraints v pointee → v.index < a.size)
    (answers : ∀ v m, v.index < a.size → a.Judges m.arena →
      ∃ r m', typeOf v m = .ok r m' ∧ Answered config pending v m r m')
    (ju : a.Judges s.arena) :
    ∃ t s', inquire typeOf x s = .ok t s' ∧ Runs config pending (.inquire x) s t s' := by
  induction asks generalizing s with
  | answer => exact ⟨_, s, rfl, .answer⟩
  | @remark n next _ _ ih =>
    obtain ⟨t, s', ran, run⟩ := ih (s := { s with remarks := s.remarks.push n }) ju
    exact ⟨t, s', ran, .remark run⟩
  | @askType v next asked _ _ ih ih' =>
    obtain ⟨r, m, told, answered⟩ := answers v s (known asked) ju
    cases answered with
    | waiting held waits =>
      obtain ⟨t, s', ran, run⟩ := ih' trivial ju
      exact ⟨t, s', by rw [inquire, bind_of_ok told, ran], .askOpen held waits run⟩
    | found held ready resolved =>
      have further := ju.trans (resolved.judges (ju.retouches.coherent co))
      obtain ⟨t, s', ran, run⟩ := ih _ further
      exact ⟨t, s', by rw [inquire, bind_of_ok told, ran], .askType held ready resolved run⟩
  | @askClass v next asked _ ih =>
    have held := ju.classOf?_eq co (known asked)
    obtain ⟨t, s', ran, run⟩ := ih ⟨a.forest.leaderOf v.index⟩ ju
    have told := onArena_of_ok (s := s) (ArenaM.classOf_eq_ok.2 ⟨held, rfl⟩)
    exact ⟨t, s', by rw [inquire, bind_of_ok told, ran], .askClass held run⟩

/-- A class has a run if its questions are answered. -/
lemma resolveWithin_runs_of {depth : Nat} (co : a.Coherent log) (res : a.Resolvable)
    (live : c ∈ a.liveIds) (ready : c ∉ pending)
    (answers : ∀ v m, v.index < a.size → a.Judges m.arena →
      ∃ r m', answerFor config depth pending c v m = .ok r m' ∧
        Answered config (c :: pending) v m r m')
    (ju : a.Judges s.arena) :
    ∃ t s', resolveWithin config depth pending c s = .ok t s' ∧
      Runs config pending (.resolve c) s t s' := by
  have cos := ju.retouches.coherent co
  obtain ⟨lt, leads⟩ := co.leads_of_live live
  obtain ⟨b, cp, found⟩ := ArenaM.find_of_lt cos (c := c) (ju.retouches.size.symm ▸ lt)
  rw [ju.retouches.forest.leaderOf_eq co.forest.toRanked, leads] at found
  rw [resolveWithin_eq, bind_of_ok (onArena_of_ok found), bind_of_ok (get_run _)]
  have jub : a.Judges b := ju.trans cp.judges
  obtain ⟨old, mem, was, record, here, constraints, _⟩ := jub.exists_live co live
  simp only [here]
  cases verdict : settled? record with
  | some t => exact ⟨t, _, rfl, .known found here verdict⟩
  | none =>
    have asks : (Inquiry.verdict config c (.gather record.constraints)).Asks
        (.of old.constraints) fun _ => True := by
      rw [constraints]
      exact Inquiry.verdict_asks (res.strides old mem) id (fun _ _ => trivial)
        fun _ _ _ _ _ _ => trivial
    have known : ∀ {v pointee}, Mentions old.constraints v pointee → v.index < a.size :=
      fun ⟨constraint, inside, mention⟩ => res.mentions old mem constraint inside _ mention
    -- the class itself waits while its questions are answered
    obtain ⟨t, m, ran, run⟩ :=
      inquire_runs (s := { s with arena := b }) co asks known answers jub
    have blank := jub.blank was here verdict
    subst blank
    have cob := jub.retouches.coherent co
    rw [← jub.retouches.forest.leaderOf_eq co.forest.toRanked] at leads
    obtain ⟨b', set⟩ := (run.judges cob).exists_setType cob here leads
      (res.state_ne_finalized mem verdict) t
    refine ⟨t, _, ?_, .judged ready found here verdict run set⟩
    simp only [judge]
    rw [bind_of_ok ran, bind_of_ok (onArena_of_ok set)]
    rfl

/-- The members of a list are all there are if it is as long as it can be. -/
lemma mem_of_length_le {α : Type} {l l' : List α} (nodup : l.Nodup) (sub : l ⊆ l')
    (full : l'.length ≤ l.length) {x : α} (mem : x ∈ l') : x ∈ l :=
  ((List.subperm_of_subset nodup sub).perm_of_length_le full).mem_iff.2 mem

/-- Every live class has a run, and the bound is not reached if it leaves room for all classes that
do not wait. -/
lemma resolveWithin_runs {depth : Nat} (co : a.Coherent log) (res : a.Resolvable)
    (live : c ∈ a.liveIds) (nodup : (c :: pending).Nodup) (waiting : pending ⊆ a.liveIds)
    (room : a.liveIds.length ≤ (c :: pending).length + depth) (ju : a.Judges s.arena) :
    ∃ t s', resolveWithin config depth pending c s = .ok t s' ∧
      Runs config pending (.resolve c) s t s' := by
  induction depth generalizing pending c s with
  | zero =>
    apply resolveWithin_runs_of co res live (List.nodup_cons.1 nodup).1 _ ju
    intro v m lt jum
    refine ⟨none, m, rfl, .waiting (jum.classOf?_eq co lt) ?_⟩
    apply mem_of_length_le nodup (List.cons_subset.2 ⟨live, waiting⟩) room
    exact co.leader_mem_liveIds lt
  | succ depth ih =>
    apply resolveWithin_runs_of co res live (List.nodup_cons.1 nodup).1 _ ju
    intro v m lt jum
    have held := jum.classOf?_eq co lt
    have told := onArena_of_ok (s := m) (ArenaM.classOf_eq_ok.2 ⟨held, rfl⟩)
    simp only [answerFor]
    rw [bind_of_ok told]
    split
    · rename_i waits
      exact ⟨none, m, rfl, .waiting held waits⟩
    · rename_i ready
      obtain ⟨u, m', ran, run⟩ := ih (co.leader_mem_liveIds lt) (List.nodup_cons.2 ⟨ready, nodup⟩)
        (List.cons_subset.2 ⟨live, waiting⟩) (by simp only [List.length_cons] at room ⊢; omega) jum
      rw [bind_of_ok ran]
      exact ⟨some u, m', rfl, .found held ready run⟩

end

end ResolveM

end TypeRecovery
