import TypeRecovery.Proofs.Resolution.Accesses
import TypeRecovery.Proofs.Resolution.Order

/-!
# Recursive layouts

A class that contains itself by value has no layout. A part whose class waits for the verdict is
laid out as a plain word, with a remark. This happens only where the part leads back to its own class
(`Descends.returns`). When a class gets its verdict, each of its parts has one already or was
remarked on (`Runs.parts`), so the parts without a remark lead to classes that were judged earlier,
and no cycle is made of them (`Unwinds`). Hence recursion is broken on cycles only, and on every cycle
of parts (`resolveAll_breaks_cycles`).
-/

namespace TypeRecovery

namespace Arena

/-- No constraint says that the class is called. -/
def Uncalled (a : Arena) (c : ClassId) : Prop :=
  ∀ record ∈ a.liveClasses, record.id = c → ∀ constraint ∈ record.constraints,
    constraint.fact.callSite? = none

instance (a : Arena) (c : ClassId) : Decidable (a.Uncalled c) :=
  inferInstanceAs (Decidable (∀ record ∈ a.liveClasses, record.id = c →
    ∀ constraint ∈ record.constraints, constraint.fact.callSite? = none))

/-- A class that has parts is live. -/
lemma Embeds.live {a : Arena} {c d : ClassId} {offset : Int64} (embeds : a.Embeds c offset d) :
    c ∈ a.liveIds := by
  obtain ⟨record, mem, rfl, _⟩ := embeds
  exact List.mem_map_of_mem mem

/-- The variables that a resolvable arena mentions were made. -/
lemma Resolvable.allocated {a : Arena} (res : a.Resolvable) : a.Allocated := by
  rintro x fact v ⟨record, mem, constraint, inside, _, rfl⟩ linked
  obtain ⟨kind, mention⟩ := Fact.exists_mention_of_linked? linked
  exact res.mentions record mem constraint inside _ mention

/-- Where closing merges nothing, nothing is left to be merged. -/
lemma Coherent.settled_of_closed {a : Arena} {log} (co : a.Coherent log) (uf : a.Unfrozen)
    (alloc : a.Allocated) (closed : ArenaM.close a = .ok 0 a) : ∀ c ∈ a.liveIds, a.Settled c := by
  obtain ⟨k, b, run, _, _, settled⟩ :=
    closeWithin_settles alloc co (.refl co uf) (Nat.lt_succ_self _)
  rw [ArenaM.close, bind_of_ok (get_run a)] at closed
  cases closed.symm.trans run
  exact settled

end Arena

/-- The first access to a part decides on the remark. -/
lemma Evidence.exists_recursion {constraints : List Constraint} {constraint : Constraint}
    (mem : constraint ∈ constraints) {offset : Int64} {v : VarId}
    (part : constraint.fact.part? = some (offset, v)) (types : VarId → Option DataType)
    (c : ClassId) :
    ∃ first ∈ constraints, ∃ w, Fact.Forces first.fact constraint.fact w v ∧
      Inquiry.recursion types c offset w ⊆ (Evidence.gather constraints).recursions types c := by
  cases fact : constraint.fact with
  | field access =>
    rw [fact] at part
    cases part
    obtain ⟨first, inside, same⟩ := Inquiry.exists_firstAccess FieldAccess.key
      (Inquiry.mem_fields.2 (List.mem_map.2 ⟨constraint, mem, fact⟩))
    obtain ⟨here, width⟩ := Prod.mk.inj same
    obtain ⟨other, listed, e⟩ :=
      List.mem_map.1 (Inquiry.mem_fields.1 (Inquiry.mem_of_mem_firstAccesses inside))
    refine ⟨other, listed, first.value, e ▸ .fields here width, ?_⟩
    intro n left
    rw [← here] at left
    exact List.mem_append_left _ (List.mem_flatMap.2 ⟨first, inside, left⟩)
  | element access =>
    rw [fact] at part
    cases part
    obtain ⟨first, inside, same⟩ := Inquiry.exists_firstAccess ElementAccess.key
      (Inquiry.mem_elements.2 (List.mem_map.2 ⟨constraint, mem, fact⟩))
    obtain ⟨here, rest⟩ := Prod.mk.inj same
    obtain ⟨stride, width⟩ := Prod.mk.inj rest
    obtain ⟨other, listed, e⟩ :=
      List.mem_map.1 (Inquiry.mem_elements.1 (Inquiry.mem_of_mem_firstAccesses inside))
    refine ⟨other, listed, first.value, e ▸ .elements here stride width, ?_⟩
    intro n left
    rw [← here] at left
    exact List.mem_append_right _ (List.mem_flatMap.2 ⟨first, inside, left⟩)
  | _ =>
    rw [fact] at part
    cases part

namespace ResolveM

open Arena

/-! ## What the steps of a run preserve -/

/-- If the remark is on recursion, then the part that it names leads back to its own class. -/
def Returns (a : Arena) (n : Remark) : Prop :=
  ∀ {c offset}, n = .recursiveLayout c offset →
    ∃ d, a.Embeds c offset d ∧ Relation.ReflTransGen a.Contains d c

/-- An inquiry has found the verdict on a class that has none, and `b` is the arena in which the
class has it. -/
structure Found (config : Config) (a : Arena) (log : List Constraint) (c : ClassId) (m : Resolution)
    (b : Arena) : Prop where
  live : c ∈ a.liveIds
  inquired : ∃ pending s t, a.Judges s.arena ∧ Runs config (c :: pending)
    (.inquire (.verdict config c (.gather (a.evidence log c.index)))) s t m
  blank : ∀ {t}, ¬ Settled m c t
  others : ∀ d, d ≠ c → b.class? d = m.arena.class? d

/-- Every step of a run preserves the property. -/
structure Preserved (config : Config) (a : Arena) (log : List Constraint)
    (P : Resolution → Prop) : Prop where
  compresses : ∀ {s b}, P s → s.arena.Compresses b → P { s with arena := b }
  remark : ∀ {s n}, P s → Returns a n → P { s with remarks := s.remarks.push n }
  found : ∀ {c m b}, P m → Found config a log c m b → P { m with arena := b }

section
variable {config : Config} {a : Arena} {log : List Constraint} {P : Resolution → Prop}
  {pending : List ClassId} {task : Task} {s s' : Resolution} {t : DataType}

/-- An inquiry that descends to a remark on recursion has found a part that leads back. -/
lemma Descends.returns {n : Remark} {next : Inquiry DataType}
    (descends : Descends a log pending (.inquire (.remark n next))) : Returns a n := by
  intro e offset same
  cases descends with
  | inquire live chain asks =>
    cases asks with
    | remark left _ =>
      obtain ⟨subject, parts⟩ := left
      subst same
      cases subject
      obtain ⟨d, waits, embeds⟩ := parts rfl
      exact ⟨d, embeds, chain d waits⟩

/-- A run keeps what each of its steps preserves. -/
lemma Runs.preserves (run : Runs config pending task s t s') (kept : Preserved config a log P)
    (co : a.Coherent log) (res : a.Resolvable) (descends : Descends a log pending task)
    (ju : a.Judges s.arena) (holds : P s) : P s' := by
  induction run with
  | known found =>
    obtain ⟨cp, _⟩ := leads_of_find (ju.retouches.coherent co) found
    exact kept.compresses holds cp
  | @judged pending c s b record t m b' _ found here blank inquired set ih =>
    obtain ⟨live, verdict⟩ := descends.verdict co res config
    have cos := ju.retouches.coherent co
    obtain ⟨cp, leads⟩ := leads_of_find cos found
    have cob := cp.coherent cos
    have jub : a.Judges b := ju.trans cp.judges
    have waited := (inquired.keeps_pending cob List.mem_cons_self).trans here
    have given := (inquired.judges cob).class?_of_setType cob leads here set
    rw [jub.evidence co live here] at ih inquired
    refine kept.found (ih verdict jub (kept.compresses holds cp)) (c := c) ?_
    refine ⟨live, ⟨pending, _, t, jub, inquired⟩, ?_, fun d other => ?_⟩
    · rintro u ⟨record', there, settled⟩
      cases waited.symm.trans there
      cases blank.symm.trans settled
    · rw [given d, if_neg other]
  | answer => exact holds
  | remark _ ih => exact ih descends.remark ju (kept.remark holds descends.returns)
  | askClass _ _ ih => exact ih ((descends.askClass co res).2 _) ju holds
  | askOpen held waits _ ih =>
    obtain ⟨lt, _, _, further⟩ := descends.askType co res
    cases held.symm.trans (ju.classOf?_eq co lt)
    exact ih (further waits) ju holds
  | askType held _ resolved _ ih ih' =>
    obtain ⟨lt, below, further, _⟩ := descends.askType co res
    cases held.symm.trans (ju.classOf?_eq co lt)
    have jum := ju.trans (resolved.judges (ju.retouches.coherent co))
    exact ih' (further _) jum (ih below ju holds)

/-- Runs in a row keep what each of their steps preserves. -/
lemma RunsEach.preserves {cs : List ClassId} (runs : RunsEach config cs s s')
    (kept : Preserved config a log P) (co : a.Coherent log) (res : a.Resolvable)
    (live : ∀ c ∈ cs, c ∈ a.liveIds) (ju : a.Judges s.arena) (holds : P s) : P s' := by
  induction runs with
  | nil => exact holds
  | cons run _ ih =>
    rw [List.forall_mem_cons] at live
    have descends : Descends a log [] (.resolve _) := .resolve live.1 (by simp)
    have jum := ju.trans (run.judges (ju.retouches.coherent co))
    exact ih live.2 jum (run.preserves kept co res descends ju holds)

/-- That remarks on recursion are about parts that lead back is preserved. -/
lemma returns_preserved : Preserved config a log fun s => ∀ n ∈ s.remarks, Returns a n where
  compresses holds _ := holds
  remark holds returns n left := by
    rcases Array.mem_push.1 left with left | rfl
    · exact holds n left
    · exact returns
  found holds _ := holds

/-! ## The parts of a class that is judged -/

/-- What an inquiry that ends in `s` was told of a value. -/
def told (a : Arena) (pending : List ClassId) (s : Resolution) (v : VarId) : Option DataType :=
  if a.holder v ∈ pending then none else (s.arena.class? (a.holder v)).bind settled?

/-- What an inquiry was told is the verdict on the class of the value. -/
lemma settled_of_told {v : VarId} (answer : told a pending s v = some t) :
    Settled s (a.holder v) t := by
  rw [told] at answer
  split at answer
  · cases answer
  · exact Option.bind_eq_some_iff.1 answer

/-- An inquiry is told the verdict on a class that does not wait for one. -/
lemma told_of_settled {v : VarId} (ready : a.holder v ∉ pending)
    (settled : Settled s (a.holder v) t) : told a pending s v = some t := by
  rw [told, if_neg ready]
  exact Option.bind_eq_some_iff.2 settled

/-- A run leaves the earlier remarks. -/
lemma Runs.keeps_remarks (run : Runs config pending task s t s') {n : Remark}
    (left : n ∈ s.remarks) : n ∈ s'.remarks := by
  induction run with
  | known => exact left
  | judged _ _ _ _ _ _ ih => exact ih left
  | answer => exact left
  | remark _ ih => exact ih (Array.mem_push_of_mem _ left)
  | askClass _ _ ih => exact ih left
  | askOpen _ _ _ ih => exact ih left
  | askType _ _ _ _ ih ih' => exact ih' (ih left)

/-- A run leaves the remarks of an inquiry that is answered as the run answers it. -/
lemma Runs.leaves {x : Inquiry DataType} {remarks : List Remark} {r : DataType}
    (run : Runs config pending (.inquire x) s t s')
    (ends : x.Ends (told a pending s') remarks r) (co : a.Coherent log) (ju : a.Judges s.arena) :
    ∀ n ∈ remarks, n ∈ s'.remarks := by
  induction ends generalizing s with
  | answer => simp
  | remark _ ih =>
    cases run with
    | remark next =>
      rw [List.forall_mem_cons]
      exact ⟨next.keeps_remarks Array.mem_push_self, ih next ju⟩
  | @askType v next _ _ _ ih =>
    cases run with
    | askOpen held waits further =>
      rw [ju.classOf? co] at held
      cases co.holder_eq held
      have untold : told a pending s' v = none := if_pos waits
      rw [untold] at ih
      exact ih further ju
    | askType held ready resolved further =>
      rw [ju.classOf? co] at held
      cases co.holder_eq held
      have cos := ju.retouches.coherent co
      have first := resolved.judges cos
      have settled := (resolved.settled cos).judges (further.judges (first.retouches.coherent cos))
      rw [told_of_settled ready settled] at ih
      exact ih further (ju.trans first)

/-- When the verdict on a class is found, each of its parts has a verdict or was remarked on. -/
lemma Runs.parts {c : ClassId} (run : Runs config (c :: pending)
      (.inquire (.verdict config c (.gather (a.evidence log c.index)))) s t s')
    (co : a.Coherent log) (res : a.Resolvable) (ju : a.Judges s.arena) (closed : a.Settled c)
    (uncalled : a.Uncalled c) {offset : Int64} {d : ClassId} (embeds : a.Embeds c offset d) :
    .recursiveLayout c offset ∈ s'.remarks ∨ ∃ u, Settled s' d u := by
  obtain ⟨record, mem, rfl, constraint, inside, ⟨_, v⟩, part, rfl, held⟩ := embeds
  rw [← (co.records_live mem).constraints] at run
  have silent : (Evidence.gather record.constraints).callSites = [] := by
    rw [List.eq_nil_iff_forall_not_mem]
    intro site called
    obtain ⟨other, listed, e⟩ := List.mem_map.1 (Inquiry.mem_callSites.1 called)
    have none := uncalled record mem rfl other listed
    rw [e] at none
    cases none
  have accessed : (Evidence.gather record.constraints).isAggregate = true := by
    rw [← Bool.not_eq_false]
    intro whole
    have none := Inquiry.isAccess_eq_false_iff.2 ⟨silent, whole⟩ constraint inside
    rw [Fact.isAccess_of_part? part] at none
    cases none
  have strides : ∀ access ∈ (Evidence.gather record.constraints).elements, access.stride ≠ 0 := by
    intro access element
    obtain ⟨other, listed, e⟩ := List.mem_map.1 (Inquiry.mem_elements.1 element)
    exact res.strides record mem other listed access (Fact.element?_eq_some.2 e)
  rw [Inquiry.verdict, silent, accessed] at run
  let types := told a (record.id :: pending) s'
  have left :=
    run.leaves (@Inquiry.aggregateType_ends types _ strides config record.id) co ju
  obtain ⟨first, listed, w, forces, remarked⟩ :=
    Evidence.exists_recursion inside part types record.id
  -- the value of the first access is in the same class, as the arena is closed
  obtain ⟨e, heldw, heldv⟩ := closed mem rfl listed inside forces
  cases held.symm.trans heldv
  cases answer : types w with
  | none =>
    refine .inl (left _ (List.mem_append_left _ (remarked ?_)))
    rw [Inquiry.recursion, answer]
    exact List.mem_singleton_self _
  | some u =>
    exact .inr ⟨u, co.holder_eq heldw ▸ settled_of_told answer⟩

/-! ## Cycles of parts -/

/-- A class that is not called has a verdict, and a part in another class was not remarked on. -/
def Unbroken (a : Arena) (s : Resolution) (c d : ClassId) : Prop :=
  a.Uncalled c ∧ (∃ t, Settled s c t) ∧
    ∃ offset, a.Embeds c offset d ∧ .recursiveLayout c offset ∉ s.remarks

/-- The parts that were not remarked on lead to classes that have verdicts, and to no cycle. -/
structure Unwinds (a : Arena) (s : Resolution) : Prop where
  settled : ∀ {c d}, Unbroken a s c d → ∃ t, Settled s d t
  acyclic : ∀ c, ¬ Relation.TransGen (Unbroken a s) c c

/-- More remarks leave fewer parts unbroken, if no verdict changes. -/
lemma Unwinds.mono (un : Unwinds a s) (same : ∀ c, s'.arena.class? c = s.arena.class? c)
    (left : ∀ n ∈ s.remarks, n ∈ s'.remarks) : Unwinds a s' := by
  have settled : ∀ {c t}, Settled s' c t ↔ Settled s c t := by
    simp only [Settled, same, implies_true]
  have before : ∀ c d, Unbroken a s' c d → Unbroken a s c d := by
    rintro c d ⟨uncalled, ⟨t, judged⟩, offset, embeds, unremarked⟩
    exact ⟨uncalled, ⟨t, settled.1 judged⟩, offset, embeds, fun n => unremarked (left _ n)⟩
  refine ⟨fun unbroken => ?_, fun c cycle => un.acyclic c (.mono before _ _ cycle)⟩
  obtain ⟨t, judged⟩ := un.settled (before _ _ unbroken)
  exact ⟨t, settled.2 judged⟩

/-- A class that gets its verdict is on no cycle: no part of a class with a verdict leads to it. -/
lemma Unwinds.found {c : ClassId} {m : Resolution} {b : Arena} (un : Unwinds a m)
    (found : Found config a log c m b) (co : a.Coherent log) (res : a.Resolvable)
    (closed : ∀ c ∈ a.liveIds, a.Settled c) : Unwinds a { m with arena := b } := by
  have older : ∀ {e d}, e ≠ c → Unbroken a { m with arena := b } e d → Unbroken a m e d := by
    rintro e d other ⟨uncalled, ⟨t, record, here, settled⟩, parts⟩
    rw [found.others e other] at here
    exact ⟨uncalled, ⟨t, record, here, settled⟩, parts⟩
  -- the new unbroken parts are those of the class that gets its verdict; they lead to classes that
  -- had verdicts before, and hence not back to this one
  have target : ∀ {e d}, Unbroken a { m with arena := b } e d → ∃ t, Settled m d t := by
    intro e d unbroken
    by_cases same : e = c
    · subst same
      obtain ⟨uncalled, _, offset, embeds, unremarked⟩ := unbroken
      obtain ⟨pending, s, t, jus, run⟩ := found.inquired
      rcases run.parts co res jus (closed e found.live) uncalled embeds with left | judged
      · exact absurd left unremarked
      · exact judged
    · exact un.settled (older same unbroken)
  have unentered : ∀ {e d}, Unbroken a { m with arena := b } e d → d ≠ c := by
    rintro e d unbroken rfl
    obtain ⟨t, judged⟩ := target unbroken
    exact found.blank judged
  have path : ∀ {e d}, e ≠ c → Relation.TransGen (Unbroken a { m with arena := b }) e d →
      Relation.TransGen (Unbroken a m) e d := by
    intro e d other path
    induction path with
    | single unbroken => exact .single (older other unbroken)
    | tail front last ih =>
      obtain ⟨_, _, entered⟩ := Relation.TransGen.tail'_iff.1 front
      exact .tail ih (older (unentered entered) last)
  refine ⟨fun unbroken => ?_, fun e cycle => ?_⟩
  · obtain ⟨t, record, here, settled⟩ := target unbroken
    rw [← found.others _ (unentered unbroken)] at here
    exact ⟨t, record, here, settled⟩
  · obtain ⟨_, _, entered⟩ := Relation.TransGen.tail'_iff.1 cycle
    exact un.acyclic e (path (unentered entered) cycle)

/-- That parts without a remark lead to no cycle is preserved. -/
lemma unwinds_preserved (co : a.Coherent log) (res : a.Resolvable)
    (closed : ∀ c ∈ a.liveIds, a.Settled c) : Preserved config a log (Unwinds a) where
  compresses un cp := by
    obtain ⟨g, _, rfl⟩ := cp
    exact un.mono (fun _ => rfl) fun _ left => left
  remark un _ := un.mono (fun _ => rfl) fun _ left => Array.mem_push_of_mem _ left
  found un found := un.found found co res closed

/-- Without verdicts there are no unbroken parts. -/
lemma unwinds_start (co : a.Coherent log) (fresh : a.Fresh) : Unwinds a ⟨a, #[]⟩ := by
  have none : ∀ {c d}, ¬ Unbroken a ⟨a, #[]⟩ c d := by
    rintro c d ⟨_, ⟨t, record, here, settled⟩, _, ⟨old, mem, rfl, _⟩, _⟩
    cases here.symm.trans (co.mem_liveClasses.1 mem).1
    cases (fresh.blank mem).symm.trans settled
  refine ⟨fun unbroken => absurd unbroken none, fun c cycle => ?_⟩
  obtain ⟨_, _, last⟩ := Relation.TransGen.tail'_iff.1 cycle
  exact none last

end

end ResolveM

namespace Arena

/-- Resolving a closed arena remarks on recursion only at parts that lead back to their own class,
and it does so at one part at least of every cycle of parts. -/
theorem resolveAll_breaks_cycles {a : Arena} (re : a.Reachable) (fresh : a.Fresh)
    (closed : ArenaM.close a = .ok 0 a) (res : a.Resolvable) (config : Config) :
    ∃ remarks b, ArenaM.resolveAll config a = .ok remarks b ∧
      (∀ c offset, .recursiveLayout c offset ∈ remarks →
        ∃ d, a.Embeds c offset d ∧ Relation.ReflTransGen a.Contains d c) ∧
      ∀ (n : Nat) (cycle : Nat → ClassId) (offset : Nat → Int64), 0 < n → cycle n = cycle 0 →
        (∀ i < n, a.Uncalled (cycle i) ∧ a.Embeds (cycle i) (offset i) (cycle (i + 1))) →
        ∃ i < n, .recursiveLayout (cycle i) (offset i) ∈ remarks := by
  obtain ⟨log, co⟩ := re.coherent
  have settled := co.settled_of_closed (fun record mem => (fresh record mem).2) res.allocated closed
  obtain ⟨s, ran, runs⟩ := ResolveM.resolveEach_runs (s := ⟨a, #[]⟩) config co res
    (fun c live => live) (.refl co)
  have returns := runs.preserves ResolveM.returns_preserved co res (fun c live => live) (.refl co)
    (by simp)
  have unwinds := runs.preserves (ResolveM.unwinds_preserved co res settled) co res
    (fun c live => live) (.refl co) (ResolveM.unwinds_start co fresh)
  refine ⟨s.remarks.toList, s.arena, ArenaM.resolveAll_of_ok ran, ?_, ?_⟩
  · intro c offset left
    exact returns _ (Array.mem_toList_iff.1 left) rfl
  · intro n cycle offset pos back steps
    -- a cycle without a remark would consist of unbroken parts
    by_contra none
    push Not at none
    have unbroken : ∀ i < n, ResolveM.Unbroken a s (cycle i) (cycle (i + 1)) := by
      intro i lt
      obtain ⟨uncalled, embeds⟩ := steps i lt
      have judged := runs.settled co (cycle i) embeds.live
      exact ⟨uncalled, judged, _, embeds, fun left => none i lt (Array.mem_toList_iff.2 left)⟩
    have path : ∀ k < n, Relation.TransGen (ResolveM.Unbroken a s) (cycle 0) (cycle (k + 1)) := by
      intro k lt
      induction k with
      | zero => exact .single (unbroken 0 lt)
      | succ k ih => exact .tail (ih (Nat.lt_of_succ_lt lt)) (unbroken (k + 1) lt)
    obtain ⟨k, rfl⟩ := Nat.exists_eq_succ_of_ne_zero pos.ne'
    have round := path k (Nat.lt_succ_self k)
    rw [back] at round
    exact unwinds.acyclic _ round

/-- A class that contains itself and another one, of which it is an element, and a number. -/
def nestedCalls : List Call :=
  [.newVariable (.storage "p"), .newVariable (.storage "q"), .newVariable (.storage "r"),
    .constrain ⟨0⟩ 0 (.field ⟨0, 4, ⟨0⟩⟩), .constrain ⟨0⟩ 1 (.field ⟨8, 8, ⟨1⟩⟩),
    .constrain ⟨0⟩ 2 (.field ⟨16, 4, ⟨2⟩⟩), .constrain ⟨1⟩ 3 (.element ⟨0, 16, 8, ⟨0⟩⟩),
    .constrain ⟨2⟩ 4 (.size 4)]

/-- The class remarks on the part that is itself, one of the two parts that lead to and fro is
remarked on, and the number is not. -/
theorem resolveAll_breaks_cycles_nested :
    let a := Arena.empty.afterAll nestedCalls
    a.Fresh ∧ ArenaM.close a = .ok 0 a ∧ a.Resolvable ∧
      ∃ remarks b, ArenaM.resolveAll .lp64 a = .ok remarks b ∧
        .recursiveLayout ⟨0⟩ 0 ∈ remarks ∧
        (.recursiveLayout ⟨0⟩ 8 ∈ remarks ∨ .recursiveLayout ⟨1⟩ 0 ∈ remarks) ∧
        .recursiveLayout ⟨0⟩ 16 ∉ remarks := by
  have fresh : (Arena.empty.afterAll nestedCalls).Fresh := by decide +kernel
  have closed : ArenaM.close (Arena.empty.afterAll nestedCalls) =
      .ok 0 (Arena.empty.afterAll nestedCalls) := by rfl
  have res : (Arena.empty.afterAll nestedCalls).Resolvable := by decide +kernel
  obtain ⟨remarks, b, ran, returns, breaks⟩ :=
    resolveAll_breaks_cycles ⟨nestedCalls, rfl⟩ fresh closed res .lp64
  refine ⟨fresh, closed, res, remarks, b, ran, ?_, ?_, ?_⟩
  · obtain ⟨i, _, left⟩ := breaks 1 (fun _ => ⟨0⟩) (fun _ => 0) (by decide) rfl (by decide +kernel)
    exact left
  · obtain ⟨i, lt, left⟩ := breaks 2 (fun i => ⟨i % 2⟩) (fun i => if i = 0 then 8 else 0)
      (by decide) rfl (by decide +kernel)
    match i, lt with
    | 0, _ => exact .inl left
    | 1, _ => exact .inr left
  · intro left
    obtain ⟨d, ⟨record, mem, id, constraint, inside, part, accessed, here, held⟩, path⟩ :=
      returns _ _ left
    have number : ∀ record ∈ (Arena.empty.afterAll nestedCalls).liveClasses, record.id = ⟨0⟩ →
        ∀ constraint ∈ record.constraints, ∀ part ∈ constraint.fact.part?, part.1 = 16 →
          (Arena.empty.afterAll nestedCalls).classOf? part.2 = some ⟨2⟩ := by decide +kernel
    cases (number record mem id constraint inside part accessed here).symm.trans held
    have empty : ∀ record ∈ (Arena.empty.afterAll nestedCalls).liveClasses, record.id = ⟨2⟩ →
        ∀ constraint ∈ record.constraints, constraint.fact.mentions = [] := by decide +kernel
    rcases path.cases_head with same | ⟨_, contains, _⟩
    · cases same
    · obtain ⟨record, mem, id, constraint, inside, _, mentioned, _⟩ := contains
      rw [empty record mem id constraint inside] at mentioned
      cases mentioned

end Arena

end TypeRecovery
