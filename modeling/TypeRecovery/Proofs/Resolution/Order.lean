import Mathlib.Algebra.Order.Group.Multiset
import Mathlib.Order.WellFoundedSet
import TypeRecovery.Proofs.Resolution.Completion

/-!
# The order of resolution

Where no class contains itself, the verdicts on all classes are determined by the constraints alone:
`Solves` says that each follows from the others, and `solution` does so (`solution_solves`).
Resolving a class finds its part of the solution, whatever was resolved before, and the remarks that
were left are those of the classes that have a verdict (`Runs.agrees`). So it does not matter in which
order classes are resolved (`resolve_any_order`).
-/

namespace TypeRecovery

namespace Inquiry

variable {α : Type}

/-- The answer and the remarks of an inquiry whose questions are all answered. -/
def outcome (typeOf : VarId → DataType) (classOf : VarId → ClassId) :
    Inquiry α → Option α × List Remark
  | .answer r => (some r, [])
  | .failure _ => (none, [])
  | .remark n next => ((outcome typeOf classOf next).1, n :: (outcome typeOf classOf next).2)
  | .askType v next => outcome typeOf classOf (next (some (typeOf v)))
  | .askClass v next => outcome typeOf classOf (next (classOf v))

variable {S : Scope} {post : α → Prop} {x : Inquiry α} {classOf : VarId → ClassId}

/-- Only the answers to questions that are asked matter. -/
lemma Asks.outcome_congr {f g : VarId → DataType} (asks : x.Asks S post)
    (same : ∀ v, S.asked v false → f v = g v) : x.outcome f classOf = x.outcome g classOf := by
  induction asks with
  | answer => rfl
  | remark _ _ ih => rw [outcome, outcome, ih]
  | askType asked _ _ ih => rw [outcome, outcome, same _ asked, ih]
  | askClass _ _ ih => rw [outcome, outcome, ih]

/-- An inquiry that cannot fail has an answer once its questions are answered. -/
lemma Asks.exists_outcome (asks : x.Asks S post) (f : VarId → DataType)
    (classOf : VarId → ClassId) : ∃ r, (x.outcome f classOf).1 = some r := by
  induction asks with
  | answer => exact ⟨_, rfl⟩
  | remark _ _ ih => exact ih
  | askType _ _ _ ih => exact ih _
  | askClass _ _ ih => exact ih _

/-- The remarks of an inquiry are those that its scope admits. -/
lemma Asks.remarks_outcome (asks : x.Asks S post) {f : VarId → DataType} :
    ∀ n ∈ (x.outcome f classOf).2, S.remarks n := by
  induction asks with
  | answer => exact List.forall_mem_nil _
  | remark left _ ih =>
    rw [outcome, List.forall_mem_cons]
    exact ⟨left, ih⟩
  | askType _ _ _ ih => exact ih _
  | askClass _ _ ih => exact ih _

end Inquiry

namespace Arena

/-! ## Solutions -/

/-- The class that a variable is in. -/
def holder (a : Arena) (v : VarId) : ClassId :=
  ⟨a.forest.leaderOf v.index⟩

/-- What the verdict on a class may do while classes wait for it. The type of a value in one of these
is not known, and the verdict remarks on it if the value is a part. -/
def scope (a : Arena) (log : List Constraint) (pending : List ClassId) (c : ClassId) :
    Inquiry.Scope where
  asked := Mentions (a.evidence log c.index)
  unanswered v := a.holder v ∈ pending
  remarks n := n.subject = c ∧
    ∀ {offset}, n = .recursiveLayout c offset → ∃ d ∈ pending, a.Embeds c offset d

/-- The answer and the remarks of the verdict on a class, given the types of variables. -/
def judgement (a : Arena) (log : List Constraint) (config : Config) (typeOf : VarId → DataType)
    (c : ClassId) : Option DataType × List Remark :=
  (Inquiry.verdict config c (.gather (a.evidence log c.index))).outcome typeOf a.holder

/-- The type of each live class is the verdict on it. -/
def Solves (a : Arena) (log : List Constraint) (config : Config) (types : ClassId → DataType) :
    Prop :=
  ∀ c ∈ a.liveIds, (a.judgement log config (fun v => types (a.holder v)) c).1 = some (types c)

/-- The remarks that the verdict on a class leaves, by a solution. -/
def remarksOn (a : Arena) (log : List Constraint) (config : Config) (types : ClassId → DataType)
    (c : ClassId) : List Remark :=
  (a.judgement log config (fun v => types (a.holder v)) c).2

/-- The verdicts on all classes, each found from those on the classes that it contains. -/
noncomputable def solution (a : Arena) (log : List Constraint) (config : Config)
    (wf : WellFounded fun d c => a.Contains c d) : ClassId → DataType :=
  wf.fix fun c below => (a.judgement log config (fun v =>
    if inside : a.Contains c (a.holder v) then below (a.holder v) inside else .void) c).1.getD .void

section
variable {a : Arena} {log : List Constraint} {config : Config} {c : ClassId}

/-- The variables that the evidence of a live class mentions were made. -/
lemma Coherent.lt_of_mentions (co : a.Coherent log) (res : a.Resolvable) (live : c ∈ a.liveIds)
    {v : VarId} {pointee : Bool} (mentioned : Mentions (a.evidence log c.index) v pointee) :
    v.index < a.size := by
  obtain ⟨record, mem, rfl⟩ := List.mem_map.1 live
  rw [← (co.records_live mem).constraints] at mentioned
  obtain ⟨constraint, inside, mention⟩ := mentioned
  exact res.mentions record mem constraint inside _ mention

/-- The verdict on a live class keeps to its scope. -/
lemma Coherent.asks (co : a.Coherent log) (res : a.Resolvable) (config : Config)
    (pending : List ClassId) (live : c ∈ a.liveIds) :
    (Inquiry.verdict config c (.gather (a.evidence log c.index))).Asks (a.scope log pending c)
      fun _ => True := by
  have known : ∀ {v pointee}, Mentions (a.evidence log c.index) v pointee → v.index < a.size :=
    co.lt_of_mentions res live
  obtain ⟨record, mem, rfl⟩ := List.mem_map.1 live
  have constraints := (co.records_live mem).constraints
  refine Inquiry.verdict_asks ?_ id ?_ ?_
  · rw [← constraints]
    exact res.strides record mem
  · intro n settles
    refine ⟨settles.subject, ?_⟩
    rintro offset rfl
    cases settles.calm
  · intro constraint inside offset v part waits
    refine ⟨rfl, ?_⟩
    rintro _ ⟨⟩
    have held := co.classOf?_eq (known ⟨constraint, inside, Fact.mentions_of_part? part⟩)
    rw [← constraints] at inside
    exact ⟨_, waits, record, mem, rfl, constraint, inside, _, part, rfl, held⟩

/-- A class contains the classes of the values that its evidence mentions. -/
lemma Coherent.contains_holder (co : a.Coherent log) (res : a.Resolvable) (live : c ∈ a.liveIds)
    {v : VarId} (mentioned : Mentions (a.evidence log c.index) v false) :
    a.Contains c (a.holder v) := by
  have held := co.classOf?_eq (co.lt_of_mentions res live mentioned)
  obtain ⟨record, mem, rfl⟩ := List.mem_map.1 live
  rw [← (co.records_live mem).constraints] at mentioned
  obtain ⟨constraint, inside, mention⟩ := mentioned
  exact ⟨record, mem, rfl, constraint, inside, _, mention, rfl, held⟩

/-- The holder of a variable is the class that it is looked up in. -/
lemma Coherent.holder_eq (co : a.Coherent log) {v : VarId} (held : a.classOf? v = some c) :
    a.holder v = c :=
  congrArg ClassId.mk (co.classOf?_eq_some.1 held).2

/-- Only live classes contain others, and only live ones are contained. -/
lemma Contains.live (co : a.Coherent log) {d : ClassId} (contains : a.Contains c d) :
    c ∈ a.liveIds ∧ d ∈ a.liveIds := by
  obtain ⟨record, mem, rfl, _, _, mention, _, _, held⟩ := contains
  obtain ⟨lt, leads⟩ := co.classOf?_eq_some.1 held
  have live := co.leader_mem_liveIds lt
  rw [leads] at live
  exact ⟨List.mem_map_of_mem mem, live⟩

/-- Where no class contains itself, containment is well founded. -/
lemma wellFounded_contains (co : a.Coherent log)
    (acyclic : ∀ c, ¬ Relation.TransGen a.Contains c c) :
    WellFounded fun d c => a.Contains c d := by
  have order : IsStrictOrder ClassId fun d c => Relation.TransGen a.Contains c d :=
    { irrefl := acyclic
      trans := fun _ _ _ lower upper => upper.trans lower }
  have finite : {c | c ∈ a.liveIds}.WellFoundedOn fun d c => Relation.TransGen a.Contains c d :=
    (List.finite_toSet a.liveIds).wellFoundedOn
  refine Subrelation.wf (fun {d c} contains => ?_) (Set.wellFoundedOn_iff.1 finite)
  have live := contains.live co
  exact ⟨.single contains, live.2, live.1⟩

/-- The verdicts that are found from below are a solution. -/
lemma solution_solves (co : a.Coherent log) (res : a.Resolvable)
    (wf : WellFounded fun d c => a.Contains c d) :
    a.Solves log config (a.solution log config wf) := by
  intro c live
  have asks := co.asks res config [] live
  have unfolded : a.solution log config wf c =
      (a.judgement log config (fun v => a.solution log config wf (a.holder v)) c).1.getD .void := by
    rw [solution, wf.fix_eq]
    congr 2
    apply asks.outcome_congr
    intro v mentioned
    exact dif_pos (co.contains_holder res live mentioned)
  obtain ⟨t, outcome⟩ := asks.exists_outcome (fun v => a.solution log config wf (a.holder v)) a.holder
  rw [unfolded, judgement, outcome, Option.getD_some]

end

/-- No live class is listed twice. -/
lemma Coherent.liveIds_nodup {a : Arena} {log : List Constraint} (co : a.Coherent log) :
    a.liveIds.Nodup := by
  rw [liveIds, List.Nodup, List.pairwise_map]
  refine co.liveClasses_ascending.imp fun lt same => ?_
  exact absurd (congrArg ClassId.index same) lt.ne

end Arena

namespace ResolveM

open Arena

/-! ## Remarks -/

/-- Whether a class has no verdict. -/
def isOpen (s : Resolution) (c : ClassId) : Bool :=
  match s.arena.class? c with
  | some record => (settled? record).isNone
  | none => true

/-- The remarks that the classes without a verdict will leave. -/
def due (a : Arena) (own : ClassId → List Remark) (s : Resolution) : Multiset Remark :=
  ((a.liveIds.filter (isOpen s)).flatMap own : List Remark)

/-- The remarks that were left and those that are due. -/
def ledger (a : Arena) (own : ClassId → List Remark) (s : Resolution) : Multiset Remark :=
  s.remarks.toList + due a own s

section
variable {a : Arena} {log : List Constraint} {own : ClassId → List Remark} {s s' : Resolution}

/-- The remarks of a class are no longer due once it has a verdict. -/
lemma due_of_judged (co : a.Coherent log) {c : ClassId} (live : c ∈ a.liveIds)
    (before : isOpen s c = true) (after : isOpen s' c = false)
    (others : ∀ d, d ≠ c → s'.arena.class? d = s.arena.class? d) :
    due a own s = own c + due a own s' := by
  have perm : (a.liveIds.filter (isOpen s)).Perm (c :: a.liveIds.filter (isOpen s')) := by
    have closed : c ∉ a.liveIds.filter (isOpen s') := by simp [after]
    rw [List.perm_ext_iff_of_nodup (co.liveIds_nodup.filter _)
      (List.nodup_cons.2 ⟨closed, co.liveIds_nodup.filter _⟩)]
    intro d
    by_cases same : d = c
    · simp [same, live, before]
    · have other : isOpen s' d = isOpen s d := by rw [isOpen, isOpen, others d same]
      simp [same, other]
  rw [due, due, Multiset.coe_eq_coe.2 (perm.flatMap_right own), List.flatMap_cons, Multiset.coe_add]

end

/-! ## Runs that find a solution -/

/-- A resolution whose verdicts are those of a solution. -/
structure Agrees (a : Arena) (types : ClassId → DataType) (s : Resolution) : Prop where
  judges : a.Judges s.arena
  types : ∀ c ∈ a.liveIds, ∀ {t}, Settled s c t → t = types c

/-- What a task gives and remarks, by a solution. The remarks of a class are not due before and not
after it is resolved. -/
def Task.outcome (a : Arena) (types : ClassId → DataType) : Task → Option DataType × List Remark
  | .resolve c => (some (types c), [])
  | .inquire x => x.outcome (fun v => types (a.holder v)) a.holder

/-- A task about a class that all classes contain which wait for it. -/
inductive Descends (a : Arena) (log : List Constraint) (pending : List ClassId) : Task → Prop
  | resolve {c} : c ∈ a.liveIds → (∀ d ∈ pending, Relation.TransGen a.Contains d c) →
    Descends a log pending (.resolve c)
  | inquire {c x} : c ∈ a.liveIds → (∀ d ∈ pending, Relation.ReflTransGen a.Contains d c) →
    x.Asks (a.scope log pending c) (fun _ => True) → Descends a log pending (.inquire x)

section
variable {a : Arena} {log : List Constraint} {config : Config} {types : ClassId → DataType}
  {pending : List ClassId} {task : Task} {s s' : Resolution} {t : DataType}

/-- A class waits for the verdict on it. -/
lemma Descends.verdict {c : ClassId} (descends : Descends a log pending (.resolve c))
    (co : a.Coherent log) (res : a.Resolvable) (config : Config) :
    c ∈ a.liveIds ∧ Descends a log (c :: pending)
      (.inquire (.verdict config c (.gather (a.evidence log c.index)))) := by
  cases descends with
  | resolve live chain =>
    refine ⟨live, .inquire live ?_ (co.asks res config _ live)⟩
    rw [List.forall_mem_cons]
    exact ⟨.refl, fun d waits => (chain d waits).to_reflTransGen⟩

/-- The rest of an inquiry behind a remark is about the same class. -/
lemma Descends.remark {n : Remark} {next : Inquiry DataType}
    (descends : Descends a log pending (.inquire (.remark n next))) :
    Descends a log pending (.inquire next) := by
  cases descends with
  | inquire live chain asks =>
    cases asks with
    | remark _ asks => exact .inquire live chain asks

/-- The rest of an inquiry behind a question for a class is about the same class, and the variable
was made. -/
lemma Descends.askClass {v : VarId} {next : ClassId → Inquiry DataType}
    (descends : Descends a log pending (.inquire (.askClass v next)))
    (co : a.Coherent log) (res : a.Resolvable) :
    v.index < a.size ∧ ∀ d, Descends a log pending (.inquire (next d)) := by
  cases descends with
  | inquire live chain asks =>
    cases asks with
    | askClass asked asks =>
      exact ⟨co.lt_of_mentions res live asked, fun d => .inquire live chain (asks d)⟩

/-- The class of a value that is asked for is contained in those that wait. -/
lemma Descends.askType {v : VarId} {next : Option DataType → Inquiry DataType}
    (descends : Descends a log pending (.inquire (.askType v next)))
    (co : a.Coherent log) (res : a.Resolvable) :
    v.index < a.size ∧ Descends a log pending (.resolve (a.holder v)) ∧
      (∀ t, Descends a log pending (.inquire (next (some t)))) ∧
      (a.holder v ∈ pending → Descends a log pending (.inquire (next none))) := by
  cases descends with
  | inquire live chain asks =>
    cases asks with
    | askType asked told untold =>
      have contains := co.contains_holder res live asked
      refine ⟨co.lt_of_mentions res live asked, .resolve (contains.live co).2 ?_, ?_, ?_⟩
      · exact fun d waits => .tail' (chain d waits) contains
      · exact fun t => .inquire live chain (told t)
      · exact fun waits => .inquire live chain (untold waits)

/-- Shorter paths in the forest change nothing about the verdicts. -/
lemma Agrees.compresses (ag : Agrees a types s) {b : Arena} (cp : s.arena.Compresses b) :
    Agrees a types { s with arena := b } := by
  refine ⟨ag.judges.trans cp.judges, ?_⟩
  obtain ⟨g, _, rfl⟩ := cp
  exact ag.types

/-- Shorter paths in the forest change nothing about the remarks. -/
lemma ledger_compresses {own : ClassId → List Remark} {b : Arena} (cp : s.arena.Compresses b) :
    ledger a own { s with arena := b } = ledger a own s := by
  obtain ⟨g, _, rfl⟩ := cp
  rfl

/-- A remark that is left adds to the ledger. -/
lemma ledger_remark {own : ClassId → List Remark} {n : Remark} :
    ledger a own { s with remarks := s.remarks.push n } = n ::ₘ ledger a own s := by
  have noted : ((s.remarks.push n).toList : Multiset Remark) = n ::ₘ s.remarks.toList := by
    rw [Array.toList_push, Multiset.cons_coe]
    exact Multiset.coe_eq_coe.2 (List.perm_append_singleton n _)
  rw [ledger, noted, Multiset.cons_add]
  rfl

/-- A class that had no verdict gets that of the solution, and its remarks are due no longer. -/
lemma Agrees.setType {c : ClassId} {m : Resolution} {b : Arena} {record : ClassRecord}
    (agm : Agrees a types m) (co : a.Coherent log) (live : c ∈ a.liveIds) (ju : a.Judges b)
    (here : m.arena.class? c = some record) (blank : settled? record = none)
    (given : ∀ d, b.class? d = if d = c then some (record.setType (types c)) else m.arena.class? d)
    (own : ClassId → List Remark) :
    Agrees a types { m with arena := b } ∧
      ledger a own m = own c + ledger a own { m with arena := b } := by
  refine ⟨⟨ju, ?_⟩, ?_⟩
  · rintro d lived u ⟨record', found, settled⟩
    rw [given d] at found
    split at found
    · rename_i same
      cases found
      cases settled
      rw [same]
    · exact agm.types d lived ⟨record', found, settled⟩
  · have before : isOpen m c = true := by simp [isOpen, here, blank]
    have after : isOpen { m with arena := b } c = false := by
      rw [isOpen, given c, if_pos rfl]
      rfl
    have others : ∀ d, d ≠ c → b.class? d = m.arena.class? d := by
      intro d other
      rw [given d, if_neg other]
    rw [ledger, ledger, due_of_judged co live before after others, add_left_comm]

/-- A run finds its part of the solution. The remarks that were left and those that are due grow by
the remarks of the task itself. -/
lemma Runs.agrees (run : Runs config pending task s t s') (co : a.Coherent log)
    (res : a.Resolvable) (acyclic : ∀ c, ¬ Relation.TransGen a.Contains c c)
    (solves : a.Solves log config types) (descends : Descends a log pending task)
    (ag : Agrees a types s) :
    (task.outcome a types).1 = some t ∧ Agrees a types s' ∧
      ledger a (a.remarksOn log config types) s' =
        (task.outcome a types).2 + ledger a (a.remarksOn log config types) s := by
  induction run with
  | known found here settled =>
    cases descends with
    | resolve live _ =>
      obtain ⟨cp, _⟩ := leads_of_find (ag.judges.retouches.coherent co) found
      have agb := ag.compresses cp
      refine ⟨congrArg some (agb.types _ live ⟨_, here, settled⟩).symm, agb, ?_⟩
      exact (ledger_compresses cp).trans (zero_add _).symm
  | @judged pending c s b record t m b' ready found here blank inquired set ih =>
    obtain ⟨live, verdict⟩ := descends.verdict co res config
    have cos := ag.judges.retouches.coherent co
    obtain ⟨cp, leads⟩ := leads_of_find cos found
    have cob := cp.coherent cos
    have agb := ag.compresses cp
    rw [agb.judges.evidence co live here] at ih
    obtain ⟨told, agm, balance⟩ := ih verdict agb
    have given : t = types c := Option.some.inj (told.symm.trans (solves c live))
    subst given
    have ju := ag.judges.trans ((Runs.judged ready found here blank inquired set).judges cos)
    have kept := (inquired.keeps_pending cob List.mem_cons_self).trans here
    obtain ⟨ag', settled⟩ := agm.setType co live ju kept blank
      ((inquired.judges cob).class?_of_setType cob leads here set) (a.remarksOn log config types)
    refine ⟨rfl, ag', ?_⟩
    rw [settled, ledger_compresses cp] at balance
    exact (add_left_cancel balance).trans (zero_add _).symm
  | answer => exact ⟨rfl, ag, (zero_add _).symm⟩
  | @remark pending n next s t s' _ ih =>
    obtain ⟨told, ag', balance⟩ := ih descends.remark ⟨ag.judges, ag.types⟩
    refine ⟨told, ag', ?_⟩
    rw [balance, ledger_remark, Multiset.add_cons, ← Multiset.cons_add]
    rfl
  | askClass held _ ih =>
    obtain ⟨lt, further⟩ := descends.askClass co res
    cases held.symm.trans (ag.judges.classOf?_eq co lt)
    exact ih (further _) ag
  | askOpen held waits _ _ =>
    obtain ⟨lt, below, _⟩ := descends.askType co res
    cases held.symm.trans (ag.judges.classOf?_eq co lt)
    cases below with
    | resolve _ chain =>
      -- a class that waits would contain itself
      exact absurd (chain _ waits) (acyclic _)
  | @askType pending v next s c u m t s' held ready resolved _ ih ih' =>
    obtain ⟨lt, below, further, _⟩ := descends.askType co res
    cases held.symm.trans (ag.judges.classOf?_eq co lt)
    obtain ⟨found, agm, balance⟩ := ih below ag
    cases found
    obtain ⟨told, ag', balance'⟩ := ih' (further _) agm
    refine ⟨told, ag', balance'.trans ?_⟩
    rw [balance]
    exact congrArg _ (zero_add _)

/-- Runs in a row find their part of the solution, and leave the ledger as it was. -/
lemma RunsEach.agrees {cs : List ClassId} (runs : RunsEach config cs s s') (co : a.Coherent log)
    (res : a.Resolvable) (acyclic : ∀ c, ¬ Relation.TransGen a.Contains c c)
    (solves : a.Solves log config types) (live : ∀ c ∈ cs, c ∈ a.liveIds)
    (ag : Agrees a types s) :
    Agrees a types s' ∧
      ledger a (a.remarksOn log config types) s' = ledger a (a.remarksOn log config types) s := by
  induction runs with
  | nil => exact ⟨ag, rfl⟩
  | cons run _ ih =>
    rw [List.forall_mem_cons] at live
    have descends : Descends a log [] (.resolve _) := .resolve live.1 (by simp)
    obtain ⟨_, agm, balance⟩ := run.agrees co res acyclic solves descends ag
    obtain ⟨ag', balance'⟩ := ih live.2 agm
    exact ⟨ag', balance'.trans (balance.trans (zero_add _))⟩

/-- Nothing is due any more once all classes have verdicts. -/
lemma due_eq_zero {own : ClassId → List Remark} (all : ∀ c ∈ a.liveIds, ∃ t, Settled s c t) :
    due a own s = 0 := by
  have none : a.liveIds.filter (isOpen s) = [] := by
    rw [List.filter_eq_nil_iff]
    intro c live
    obtain ⟨t, record, here, settled⟩ := all c live
    simp [isOpen, here, settled]
  rw [due, none]
  rfl

/-- A class that has got a verdict has that of the solution, and is otherwise as it was. -/
lemma Agrees.class?_eq (ag : Agrees a types s) {c : ClassId} {old : ClassRecord}
    (was : a.class? c = some old) (live : c ∈ a.liveIds) (blank : settled? old = none)
    (settled : Settled s c t) : s.arena.class? c = some (old.setType (types c)) := by
  have verdict := ag.types c live settled
  obtain ⟨record, here, settled⟩ := settled
  rcases ag.judges.records was with same | ⟨_, _, u, given⟩
  · cases here.symm.trans same
    cases blank.symm.trans settled
  · cases here.symm.trans given
    cases settled
    rw [given, verdict]

end

end ResolveM

namespace Arena

/-- No live class has come to a verdict. -/
def Fresh (a : Arena) : Prop :=
  ∀ record ∈ a.liveClasses, record.state ≠ .resolved ∧ record.state ≠ .finalized

instance (a : Arena) : Decidable a.Fresh :=
  inferInstanceAs (Decidable (∀ record ∈ a.liveClasses,
    record.state ≠ .resolved ∧ record.state ≠ .finalized))

/-- A fresh class has no verdict. -/
lemma Fresh.blank {a : Arena} (fresh : a.Fresh) {record : ClassRecord}
    (mem : record ∈ a.liveClasses) : ResolveM.settled? record = none := by
  obtain ⟨unresolved, unfrozen⟩ := fresh record mem
  cases state : record.state with
  | resolved => exact absurd state unresolved
  | finalized => exact absurd state unfrozen
  | _ => simp [ResolveM.settled?, state]

end Arena

namespace ResolveM

open Arena

section
variable {a : Arena} {log : List Constraint} {types : ClassId → DataType} {s s' : Resolution}

/-- In the beginning there is no verdict that could differ from the solution. -/
lemma agrees_start (co : a.Coherent log) (fresh : a.Fresh) : Agrees a types ⟨a, #[]⟩ := by
  refine ⟨.refl co, ?_⟩
  rintro c live t ⟨record, here, settled⟩
  obtain ⟨old, mem, rfl⟩ := List.mem_map.1 live
  cases here.symm.trans (co.mem_liveClasses.1 mem).1
  cases (fresh.blank mem).symm.trans settled

/-- In the beginning all remarks are due. -/
lemma due_start {own : ClassId → List Remark} (co : a.Coherent log) (fresh : a.Fresh) :
    due a own ⟨a, #[]⟩ = (a.liveIds.flatMap own : List Remark) := by
  have all : a.liveIds.filter (isOpen ⟨a, #[]⟩) = a.liveIds := by
    rw [List.filter_eq_self]
    intro c live
    obtain ⟨record, mem, rfl⟩ := List.mem_map.1 live
    simp [isOpen, (co.mem_liveClasses.1 mem).1, fresh.blank mem]
  rw [due, all]

/-- A class that is resolved has a verdict. -/
lemma Agrees.settled_of_resolved (ag : Agrees a types s) (co : a.Coherent log) (fresh : a.Fresh)
    {c : ClassId} (live : c ∈ a.liveIds) {record : ClassRecord}
    (here : s.arena.class? c = some record) (resolved : record.state = .resolved) :
    ∃ t, Settled s c t := by
  obtain ⟨old, mem, _, record', found, _, kept | ⟨t, given⟩⟩ := ag.judges.exists_live co live
  · cases here.symm.trans found
    subst kept
    exact absurd resolved (fresh _ mem).1
  · cases here.symm.trans found
    subst given
    exact ⟨t, _, found, rfl⟩

/-- Resolutions that have both found the verdict on a class have the same record of it. -/
lemma Agrees.class?_same (ag : Agrees a types s) (ag' : Agrees a types s') (co : a.Coherent log)
    (fresh : a.Fresh) {c : ClassId} (settled : c ∈ a.liveIds → ∃ t, Settled s c t)
    (settled' : c ∈ a.liveIds → ∃ t, Settled s' c t) :
    s.arena.class? c = s'.arena.class? c := by
  cases was : a.class? c with
  | none =>
    have beyond : ∀ {r : Resolution}, Agrees a types r → r.arena.class? c = none := by
      intro r ag
      refine Option.eq_none_iff_forall_ne_some.2 fun record here => ?_
      obtain ⟨old, there, _⟩ := ag.judges.retouches.records here
      cases was.symm.trans there
    rw [beyond ag, beyond ag']
  | some old =>
    cases lives : old.isLive with
    | true =>
      obtain ⟨mem, live⟩ := co.live_of_isLive was lives
      obtain ⟨t, settled⟩ := settled live
      obtain ⟨t', settled'⟩ := settled' live
      rw [ag.class?_eq was live (fresh.blank mem) settled,
        ag'.class?_eq was live (fresh.blank mem) settled']
    | false =>
      rw [ag.judges.class?_of_absorbed was lives, ag'.judges.class?_of_absorbed was lives]

end

end ResolveM

namespace Arena

/-- The remarks of a resolution are those of the verdicts on the classes. -/
lemma Coherent.remarks_perm {a b : Arena} {log : List Constraint} {config : Config}
    {types : ClassId → DataType} {remarks : List Remark} (co : a.Coherent log) (res : a.Resolvable)
    (fresh : a.Fresh) (acyclic : ∀ c, ¬ Relation.TransGen a.Contains c c)
    (solves : a.Solves log config types) (ran : ArenaM.resolveAll config a = .ok remarks b) :
    remarks.Perm (a.liveIds.flatMap (a.remarksOn log config types)) := by
  obtain ⟨z, ranAll, runs⟩ :=
    ResolveM.resolveEach_runs (s := ⟨a, #[]⟩) config co res (fun c live => live) (.refl co)
  cases ran.symm.trans (ArenaM.resolveAll_of_ok ranAll)
  have start : ResolveM.Agrees a types ⟨a, #[]⟩ := ResolveM.agrees_start co fresh
  obtain ⟨_, balance⟩ := runs.agrees co res acyclic solves (fun c live => live) start
  rw [ResolveM.ledger, ResolveM.ledger, ResolveM.due_eq_zero (runs.settled co),
    ResolveM.due_start co fresh, add_zero] at balance
  exact Multiset.coe_eq_coe.1 (balance.trans (zero_add _))

/-- A verdict remarks on its own class. -/
lemma Coherent.subject_of_remarksOn {a : Arena} {log : List Constraint} {config : Config}
    {types : ClassId → DataType} {c : ClassId} (co : a.Coherent log) (res : a.Resolvable)
    (live : c ∈ a.liveIds) {n : Remark} (left : n ∈ a.remarksOn log config types c) :
    n.subject = c :=
  ((co.asks res config [] live).remarks_outcome n left).1

/-- Resolving live classes in any order succeeds, and every verdict that a class gets on the way is
the one that resolving all classes in their own order gives it. Once all classes have verdicts, the
remarks are the same too, up to their order. -/
theorem resolve_any_order {a : Arena} (re : a.Reachable) (res : a.Resolvable) (fresh : a.Fresh)
    (acyclic : ∀ c, ¬ Relation.TransGen a.Contains c c) (config : Config) {order : List ClassId}
    (live : ∀ c ∈ order, c ∈ a.liveIds) :
    ∃ s remarks b,
      (order.forM fun c => do let _ ← ResolveM.resolve config c : ResolveM Unit) ⟨a, #[]⟩ =
        .ok () s ∧
      ArenaM.resolveAll config a = .ok remarks b ∧
      (∀ c ∈ order, ∃ record, s.arena.class? c = some record ∧ record.state = .resolved) ∧
      (∀ c record, s.arena.class? c = some record → record.state = .resolved →
        b.class? c = some record) ∧
      ((∀ c ∈ a.liveIds, ∃ record, s.arena.class? c = some record ∧ record.state = .resolved) →
        (∀ c, s.arena.class? c = b.class? c) ∧ s.remarks.toList.Perm remarks) := by
  obtain ⟨log, co⟩ := re.coherent
  obtain ⟨types, solves⟩ : ∃ types, a.Solves log config types :=
    ⟨_, solution_solves co res (wellFounded_contains co acyclic)⟩
  obtain ⟨s, ran, runs⟩ := ResolveM.resolveEach_runs (s := ⟨a, #[]⟩) config co res live (.refl co)
  obtain ⟨z, ranAll, runsAll⟩ :=
    ResolveM.resolveEach_runs (s := ⟨a, #[]⟩) config co res (fun c live => live) (.refl co)
  have start : ResolveM.Agrees a types ⟨a, #[]⟩ := ResolveM.agrees_start co fresh
  -- both runs start from the same ledger and agree with one solution
  obtain ⟨ag, balance⟩ := runs.agrees co res acyclic solves live start
  obtain ⟨agz, balancez⟩ := runsAll.agrees co res acyclic solves (fun c live => live) start
  have allz := runsAll.settled co
  refine ⟨s, z.remarks.toList, z.arena, ran, ArenaM.resolveAll_of_ok ranAll, ?_, ?_, ?_⟩
  · intro c mem
    obtain ⟨t, settled⟩ := runs.settled co c mem
    obtain ⟨old, inside, rfl⟩ := List.mem_map.1 (live c mem)
    have was := (co.mem_liveClasses.1 inside).1
    exact ⟨_, ag.class?_eq was (live _ mem) (fresh.blank inside) settled, rfl⟩
  · intro c record here resolved
    rw [← here]
    exact (ag.class?_same agz co fresh
      (fun live => ag.settled_of_resolved co fresh live here resolved) (allz c)).symm
  · intro resolved
    have all : ∀ c ∈ a.liveIds, ∃ t, ResolveM.Settled s c t := by
      intro c live
      obtain ⟨record, here, state⟩ := resolved c live
      exact ag.settled_of_resolved co fresh live here state
    refine ⟨fun c => ag.class?_same agz co fresh (all c) (allz c), ?_⟩
    rw [← Multiset.coe_eq_coe]
    have same := balance.trans balancez.symm
    rwa [ResolveM.ledger, ResolveM.ledger, ResolveM.due_eq_zero all, ResolveM.due_eq_zero allz,
      add_zero, add_zero] at same

/-- No class contains itself if classes contain later ones only. -/
lemma acyclic_of_ascends {a : Arena} (ascends : ∀ record ∈ a.liveClasses,
    ∀ constraint ∈ record.constraints, ∀ mention ∈ constraint.fact.mentions, mention.2 = false →
      ∀ d ∈ a.classOf? mention.1, record.id.index < d.index) (c : ClassId) :
    ¬ Relation.TransGen a.Contains c c := by
  have step : ∀ {c d}, a.Contains c d → c.index < d.index := by
    rintro c d ⟨record, mem, rfl, constraint, inside, mention, mentioned, value, held⟩
    exact ascends record mem constraint inside mention mentioned value d held
  have run : ∀ {c d}, Relation.TransGen a.Contains c d → c.index < d.index := by
    intro c d contains
    induction contains with
    | single contains => exact step contains
    | tail _ contains ih => exact ih.trans (step contains)
  exact fun cycle => (run cycle).false

/-- A function that is passed a structure and gives a value of two kinds; a part of the structure
points back to the function. -/
def callbackCalls : List Call :=
  [.newVariable (.storage "f"), .newVariable (.storage "p"), .newVariable (.storage "r"),
    .newVariable (.storage "q"), .constrain ⟨0⟩ 0 (.callSite ⟨[⟨1⟩], some ⟨2⟩⟩),
    .constrain ⟨1⟩ 1 (.field ⟨0, 8, ⟨3⟩⟩), .constrain ⟨1⟩ 2 (.field ⟨4, 8, ⟨3⟩⟩),
    .constrain ⟨2⟩ 3 (.constant 4), .constrain ⟨2⟩ 4 (.pointsTo ⟨1⟩),
    .constrain ⟨3⟩ 5 (.pointsTo ⟨0⟩)]

/-- The function, the structure and what is in it are resolved in another order, with the same
verdicts and the same remarks. -/
theorem resolve_any_order_callback :
    let a := Arena.empty.afterAll callbackCalls
    let order : List ClassId := [⟨1⟩, ⟨3⟩, ⟨1⟩, ⟨2⟩, ⟨0⟩]
    a.Resolvable ∧ a.Fresh ∧ (∀ c, ¬ Relation.TransGen a.Contains c c) ∧
      ∃ s remarks b,
        (order.forM fun c => do let _ ← ResolveM.resolve .lp64 c : ResolveM Unit) ⟨a, #[]⟩ =
          .ok () s ∧
        ArenaM.resolveAll .lp64 a = .ok remarks b ∧
        (∀ c, s.arena.class? c = b.class? c) ∧ s.remarks.toList.Perm remarks := by
  have res : (Arena.empty.afterAll callbackCalls).Resolvable := by decide +kernel
  have fresh : (Arena.empty.afterAll callbackCalls).Fresh := by decide +kernel
  have acyclic := acyclic_of_ascends (a := Arena.empty.afterAll callbackCalls) (by decide +kernel)
  have live : ∀ c ∈ ([⟨1⟩, ⟨3⟩, ⟨1⟩, ⟨2⟩, ⟨0⟩] : List ClassId),
      c ∈ (Arena.empty.afterAll callbackCalls).liveIds := by decide +kernel
  have all : ∀ c ∈ (Arena.empty.afterAll callbackCalls).liveIds,
      c ∈ ([⟨1⟩, ⟨3⟩, ⟨1⟩, ⟨2⟩, ⟨0⟩] : List ClassId) := by decide +kernel
  obtain ⟨s, remarks, b, ran, ranAll, resolved, _, same⟩ :=
    resolve_any_order ⟨callbackCalls, rfl⟩ res fresh acyclic .lp64 live
  exact ⟨res, fresh, acyclic, s, remarks, b, ran, ranAll, same fun c mem => resolved c (all c mem)⟩

end Arena

end TypeRecovery
