import TypeRecovery.Proofs.Resolution.Verdict
import TypeRecovery.Resolution.Resolver

/-!
# Resolving a sorted arena

In a sorted arena the verdict on a class of values needs no other type, and the verdict on a class
of pointees needs the types of values only. So no question stays open, and resolution fails for
elements with a stride of zero only. Resolution moves nothing, which is why the arena stays sorted
all the while; in the end every live class has a verdict that follows from its evidence
(`resolveAll_concludes`).
-/

namespace TypeRecovery

namespace Arena

/-- Some element is accessed with a stride of zero. -/
def ZeroStride (log : List Constraint) : Prop :=
  ∃ c ∈ log, ∃ access, c.fact = .element access ∧ access.stride = 0

/-- What the verdict on a class may do: it asks for types only if the class holds pointees, and then
only for the types of values. -/
def terms (a : Arena) (fails : Prop) (about : ClassId) : Inquiry.Terms where
  about
  asked v := a.isPointee? ⟨about.index⟩ = some true ∧ a.isPointee? v = some false
  targeted v := v.index < a.size
  inside c := c.index < a.size
  classOf v := ⟨a.forest.leaderOf v.index⟩
  fails

/-- A type follows from the evidence of a class. -/
abbrev Entails (a : Arena) (log : List Constraint) (config : Config) (c : ClassId) : DataType → Prop :=
  Inquiry.Follows (·.index < a.size) (fun v => ⟨a.forest.leaderOf v.index⟩) config
    (a.evidence log c.index)

/-- The verdict on a class of a sorted arena keeps to its terms, and follows from the evidence. -/
lemma Sorted.verdict_meets {a : Arena} {log fresh} (so : a.Sorted log fresh) {fails : Prop}
    (zero : ZeroStride log → fails) (config : Config) (c : ClassId) :
    (Inquiry.verdict config c (.gather (a.evidence log c.index))).Meets (a.terms fails c)
      (a.Entails log config c) := by
  refine Inquiry.verdict_meets (T := a.terms fails c) ?_ ?_ ?_
  · intro constraint mem v mention
    obtain ⟨logged, leads⟩ := mem_evidence.1 mem
    refine ⟨?_, so.mentions logged mention⟩
    have subject := so.subject logged
    rwa [Fact.isAboutPointee_of_mentions mention, ← so.leaderOf (so.coherent.subject_lt logged),
      leads] at subject
  · intro constraint mem v mention
    exact lt_of_isPointee? (so.mentions (mem_evidence.1 mem).1 mention)
  · intro constraint mem access e stride
    exact zero ⟨constraint, (mem_evidence.1 mem).1, access, e, stride⟩

/-- Nothing that is about a pointee is told of the class of a value. -/
lemma Sorted.isAboutPointee_eq_false {a : Arena} {log fresh} (so : a.Sorted log fresh) {v : VarId}
    (value : a.isPointee? v = some false) {constraint : Constraint}
    (mem : constraint ∈ a.evidence log (a.forest.leaderOf v.index)) :
    constraint.fact.isAboutPointee = false := by
  obtain ⟨logged, leads⟩ := mem_evidence.1 mem
  have same : a.SameClass constraint.subject v := so.coherent.sameClass_iff.2
    ⟨so.coherent.subject_lt logged, lt_of_isPointee? value, leads⟩
  have kind := so.subject logged
  rw [so.same same, value] at kind
  exact (Option.some.inj kind).symm

/-- Accesses are about pointees. -/
lemma Sorted.isAccess_eq_false {a : Arena} {log fresh} (so : a.Sorted log fresh) {v : VarId}
    (value : a.isPointee? v = some false) :
    ∀ constraint ∈ a.evidence log (a.forest.leaderOf v.index), constraint.fact.isAccess = false := by
  intro constraint mem
  cases access : constraint.fact.isAccess with
  | false => rfl
  | true =>
    have about := so.isAboutPointee_eq_false value mem
    rw [Fact.isAboutPointee_of_isAccess access] at about
    cases about

/-- What follows from the evidence of a class of values is the type of a value. -/
lemma Sorted.valueType_of_entails {a : Arena} {log fresh} (so : a.Sorted log fresh)
    {config : Config} {v : VarId} (value : a.isPointee? v = some false) {t : DataType}
    (entails : a.Entails log config ⟨a.forest.leaderOf v.index⟩ t) :
    ∃ target, t = Inquiry.valueType config
        (.gather (a.evidence log (a.forest.leaderOf v.index))) target ∧
      ∀ {seen u}, (Evidence.gather (a.evidence log (a.forest.leaderOf v.index))).pointer =
        some (seen, u) → target = ⟨a.forest.leaderOf u.index⟩ :=
  entails.value (so.isAccess_eq_false value)

end Arena

namespace ResolveM

open Arena

/-- A step that succeeds on the arena succeeds in the course of a resolution. -/
lemma onArena_of_ok {α : Type} {x : ArenaM α} {s : Resolution} {r : α} {b : Arena}
    (h : x s.arena = .ok r b) : onArena x s = .ok r { s with arena := b } := by
  simp only [onArena, h]

/-- How the questions of the verdict on `c` are answered. -/
def answerFor (config : Config) (depth : Nat) (pending : List ClassId) (c : ClassId) :
    VarId → ResolveM (Option DataType) :=
  match depth with
  | 0 => fun _ => pure none
  | depth + 1 => fun v => do
    let other ← onArena (ArenaM.classOf v)
    if other ∈ c :: pending then return none
    return some (← resolveWithin config depth (c :: pending) other)

/-- The verdict on a class, which then stands in its record. -/
def judge (config : Config) (depth : Nat) (pending : List ClassId) (c : ClassId)
    (constraints : List Constraint) : ResolveM DataType := do
  let t ← inquire (answerFor config depth pending c) (.verdict config c (.gather constraints))
  onArena (ArenaM.setType c t)
  return t

/-- A class is judged unless it has a verdict already. -/
lemma resolveWithin_eq {config : Config} {depth : Nat} {pending : List ClassId} {c : ClassId} :
    resolveWithin config depth pending c = (do
      let c ← onArena (ArenaM.find c)
      match (← get).arena.class? c with
      | some record =>
        match settled? record with
        | some t => return t
        | none => judge config depth pending c record.constraints
      | none => judge config depth pending c []) := by
  cases depth <;> rfl

/-- The verdict on a class is its type. -/
lemma dataType_of_settled? {record : ClassRecord} {t : DataType}
    (settled : settled? record = some t) : record.dataType = some t := by
  rw [settled?] at settled
  split at settled
  · exact settled
  · exact settled
  · cases settled

/-- A class has a verdict. -/
def Judged (s : Resolution) (c : ClassId) : Prop :=
  ∃ record ∈ s.arena.liveClasses, record.id = c ∧ ∃ t, settled? record = some t

/-- A resolution of `a` whose verdicts so far follow from the evidence. -/
structure Resolves (a : Arena) (log : List Constraint) (config : Config) (s : Resolution) :
    Prop where
  retouches : a.Retouches s.arena
  unfrozen : s.arena.Unfrozen
  settles : ∀ n ∈ s.remarks, ∃ c ∈ a.liveIds, n.Settles c
  entails : ∀ record ∈ s.arena.liveClasses, ∀ {t}, settled? record = some t →
    a.Entails log config record.id t

/-- A resolution that goes on from `s`; no verdict is withdrawn. -/
structure Advances (a : Arena) (log : List Constraint) (config : Config) (s t : Resolution) :
    Prop where
  resolves : Resolves a log config t
  keeps : ∀ {c}, Judged s c → Judged t c

/-- A resolution goes on from itself. -/
lemma Resolves.refl {a : Arena} {log config s} (re : Resolves a log config s) :
    Advances a log config s s :=
  ⟨re, fun judged => judged⟩

/-- A resolution goes on from whatever an earlier one went on from. -/
lemma Advances.trans {a : Arena} {log config s t u} (ad : Advances a log config s t)
    (ad' : Advances a log config t u) : Advances a log config s u :=
  ⟨ad'.resolves, fun judged => ad'.keeps (ad.keeps judged)⟩

section
variable {a : Arena} {log : List Constraint} {fresh : List VarId} {config : Config} {fails : Prop}
  {s : Resolution}

/-! ## Steps -/

/-- Shorter paths in the forest keep a resolution going. -/
lemma Resolves.compresses (re : Resolves a log config s) {b : Arena} (cp : s.arena.Compresses b) :
    Advances a log config s { s with arena := b } := by
  have rt := re.retouches.trans cp.retouches
  obtain ⟨g, _, rfl⟩ := cp
  exact ⟨⟨rt, re.unfrozen, re.settles, re.entails⟩, fun judged => judged⟩

/-- A remark on a live class keeps a resolution going. -/
lemma Resolves.remark (re : Resolves a log config s) {n : Remark} {c : ClassId}
    (live : c ∈ a.liveIds) (settles : n.Settles c) :
    Advances a log config s { s with remarks := s.remarks.push n } := by
  refine ⟨⟨re.retouches, re.unfrozen, fun m mem => ?_, re.entails⟩, fun judged => judged⟩
  rcases Array.mem_push.1 mem with old | rfl
  · exact re.settles m old
  · exact ⟨c, live, settles⟩

/-- The record of a live class. -/
lemma Resolves.exists_live (re : Resolves a log config s) (so : a.Sorted log fresh) {c : ClassId}
    (live : c ∈ a.liveIds) :
    ∃ record ∈ s.arena.liveClasses, record.id = c ∧ s.arena.class? c = some record ∧
      record.constraints = a.evidence log c.index := by
  rw [← re.retouches.liveIds so.coherent] at live
  obtain ⟨record, mem, rfl⟩ := List.mem_map.1 live
  have found := ((re.retouches.coherent so.coherent).mem_liveClasses.1 mem).1
  exact ⟨record, mem, rfl, found, (re.retouches.records_live so.coherent mem).constraints⟩

/-- A verdict that follows from the evidence is accepted. -/
lemma Resolves.setType (re : Resolves a log config s) (so : a.Sorted log fresh) {c : ClassId}
    {t : DataType} (live : c ∈ a.liveIds) (entails : a.Entails log config c t) :
    ∃ s', onArena (ArenaM.setType c t) s = .ok () s' ∧ Advances a log config s s' ∧
      Judged s' c := by
  have co := re.retouches.coherent so.coherent
  obtain ⟨record, mem, rfl, found, _⟩ := re.exists_live so live
  have leads := (co.mem_liveClasses.1 mem).2
  have lt := co.lt_of_record found
  obtain ⟨b, cp, ran⟩ := ArenaM.setType_of_lt co t lt
  rw [co.isFinalized_eq_false re.unfrozen lt, leads] at ran
  have rt := ArenaM.retouches_of_setType co ran
  have iff : ∀ r, r ∈ (b.modifyClass record.id (·.setType t)).liveClasses ↔
      ∃ old ∈ s.arena.liveClasses, r = if old.id = record.id then old.setType t else old := by
    intro r
    rw [← cp.liveClasses]
    exact (cp.coherent co).mem_liveClasses_modifyClass (rt.coherent co) fun _ => rfl
  refine ⟨_, onArena_of_ok ran, ⟨⟨re.retouches.trans rt, ?_, re.settles, ?_⟩, ?_⟩, ?_⟩
  · intro r inside
    obtain ⟨old, was, rfl⟩ := (iff r).1 inside
    split
    · rintro ⟨⟩
    · exact re.unfrozen old was
  · intro r inside u settled
    obtain ⟨old, was, rfl⟩ := (iff r).1 inside
    split at settled
    · rename_i same
      cases settled
      rw [if_pos same]
      exact same ▸ entails
    · rename_i other
      rw [if_neg other]
      exact re.entails old was settled
  · rintro d ⟨old, was, rfl, u, settled⟩
    refine ⟨_, (iff _).2 ⟨old, was, rfl⟩, ?_⟩
    split
    · exact ⟨rfl, t, rfl⟩
    · exact ⟨rfl, u, settled⟩
  · exact ⟨record.setType t, (iff _).2 ⟨record, mem, (if_pos rfl).symm⟩, rfl, t, rfl⟩

/-! ## Inquiries -/

/-- An answer to a question for a type. -/
def Answers (a : Arena) (log : List Constraint) (config : Config) (s : Resolution)
    (r : Option DataType) (s' : Resolution) : Prop :=
  Advances a log config s s' ∧ ∃ t, r = some t ∧ t.Names (·.index < a.size) ∧ t.Grounded

/-- An inquiry that keeps to its terms is answered. -/
lemma inquire_concludes {α : Type} {x : Inquiry α} {c : ClassId} {post : α → Prop}
    {typeOf : VarId → ResolveM (Option DataType)} (so : a.Sorted log fresh)
    (live : c ∈ a.liveIds) (meets : x.Meets (a.terms fails c) post)
    (answers : ∀ v m, (a.terms fails c).asked v → Resolves a log config m →
      Concludes fails (Answers a log config m) (typeOf v m))
    (re : Resolves a log config s) :
    Concludes fails (fun r s' => Advances a log config s s' ∧ post r) (inquire typeOf x s) := by
  induction meets generalizing s with
  | answer holds => exact .ok ⟨re.refl, holds⟩
  | failure fails => exact .error fails
  | remark settles _ ih =>
    have noted := re.remark live settles
    exact (ih noted.resolves).mono fun r t h => ⟨noted.trans h.1, h.2⟩
  | askType asked _ ih =>
    refine (answers _ s asked re).bind fun r m answered => ?_
    obtain ⟨ad, t, rfl, named, grounded⟩ := answered
    exact (ih t named grounded ad.resolves).mono fun r t h => ⟨ad.trans h.1, h.2⟩
  | @askClass v next targeted _ ih =>
    have co := re.retouches.coherent so.coherent
    have lt : v.index < s.arena.size := re.retouches.size.symm ▸ targeted
    rw [inquire, bind_of_ok (onArena_of_ok (ArenaM.classOf_of_lt co lt)),
      re.retouches.forest.leaderOf_eq so.coherent.forest.toRanked]
    exact ih (so.coherent.leaderOf_lt targeted) re

/-- A class is judged if its questions are answered. -/
lemma judge_concludes (so : a.Sorted log fresh) (zero : ZeroStride log → fails) {depth : Nat}
    {pending : List ClassId} {c : ClassId} (live : c ∈ a.liveIds)
    (answers : ∀ v m, (a.terms fails c).asked v → Resolves a log config m →
      Concludes fails (Answers a log config m) (answerFor config depth pending c v m))
    (re : Resolves a log config s) :
    Concludes fails (fun t s' => Advances a log config s s' ∧ Judged s' c ∧
      a.Entails log config c t) (judge config depth pending c (a.evidence log c.index) s) := by
  refine (inquire_concludes so live (so.verdict_meets zero config c) answers re).bind ?_
  rintro t m ⟨ad, entails⟩
  obtain ⟨m', set, ad', judged⟩ := ad.resolves.setType so live entails
  rw [bind_of_ok set]
  exact .ok ⟨ad.trans ad', judged, entails⟩

/-! ## Classes -/

/-- Resolving a class gives it a verdict, if its questions are answered. -/
lemma resolveWithin_concludes (so : a.Sorted log fresh) (zero : ZeroStride log → fails)
    {depth : Nat} {pending : List ClassId} {c : ClassId} (lt : c.index < a.size)
    (answers : ∀ v m, (a.terms fails ⟨a.forest.leaderOf c.index⟩).asked v →
      Resolves a log config m → Concludes fails (Answers a log config m)
        (answerFor config depth pending ⟨a.forest.leaderOf c.index⟩ v m))
    (re : Resolves a log config s) :
    Concludes fails (fun t s' => Advances a log config s s' ∧
      Judged s' ⟨a.forest.leaderOf c.index⟩ ∧
      a.Entails log config ⟨a.forest.leaderOf c.index⟩ t)
      (resolveWithin config depth pending c s) := by
  have co := re.retouches.coherent so.coherent
  obtain ⟨b, cp, found⟩ := ArenaM.find_of_lt co (c := c) (re.retouches.size.symm ▸ lt)
  rw [re.retouches.forest.leaderOf_eq so.coherent.forest.toRanked] at found
  rw [resolveWithin_eq, bind_of_ok (onArena_of_ok found), bind_of_ok (get_run _)]
  -- the search has compressed a path, so that the class is now read off `b`
  have located := re.compresses cp
  have live : (⟨a.forest.leaderOf c.index⟩ : ClassId) ∈ a.liveIds := by
    obtain ⟨record, mem, h⟩ := so.coherent.leader_live lt
    exact h.id ▸ List.mem_map_of_mem mem
  obtain ⟨record, mem, id, here, constraints⟩ := located.resolves.exists_live so live
  simp only [here]
  cases known : settled? record with
  | some t =>
    have entails := located.resolves.entails record mem known
    exact .ok ⟨located, ⟨record, mem, id, t, known⟩, id ▸ entails⟩
  | none =>
    rw [constraints]
    refine (judge_concludes so zero live answers located.resolves).mono fun t m h => ?_
    exact ⟨located.trans h.1, h.2⟩

/-- Resolving a class of values needs no other type. -/
lemma resolveWithin_value (so : a.Sorted log fresh) (zero : ZeroStride log → fails) {depth : Nat}
    {pending : List ClassId} {c : ClassId} (value : a.isPointee? ⟨c.index⟩ = some false)
    (re : Resolves a log config s) :
    Concludes fails (fun t s' => Advances a log config s s' ∧
      Judged s' ⟨a.forest.leaderOf c.index⟩ ∧
      a.Entails log config ⟨a.forest.leaderOf c.index⟩ t)
      (resolveWithin config depth pending c s) := by
  have lt := lt_of_isPointee? value
  refine resolveWithin_concludes so zero lt (fun v m asked _ => ?_) re
  have pointee := asked.1
  rw [so.leaderOf (v := ⟨c.index⟩) lt, value] at pointee
  cases pointee

/-- The questions of the verdict on a class for which no other one waits are answered. -/
lemma answerFor_concludes (so : a.Sorted log fresh) (zero : ZeroStride log → fails) {depth : Nat}
    {c : ClassId} {v : VarId} (asked : (a.terms fails c).asked v) (re : Resolves a log config s) :
    Concludes fails (Answers a log config s) (answerFor config (depth + 1) [] c v s) := by
  obtain ⟨pointee, value⟩ := asked
  have lt := lt_of_isPointee? value
  have co := re.retouches.coherent so.coherent
  have leaderOf := re.retouches.forest.leaderOf_eq so.coherent.forest.toRanked
  have held := ArenaM.classOf_of_lt co (v := v) (re.retouches.size.symm ▸ lt)
  rw [leaderOf] at held
  have kind : a.isPointee? ⟨a.forest.leaderOf v.index⟩ = some false :=
    (so.leaderOf lt).trans value
  -- the class that asks holds pointees, so it is not the class of a value
  have other : (⟨a.forest.leaderOf v.index⟩ : ClassId) ∉ [c] := by
    intro mem
    rw [← List.mem_singleton.1 mem, kind] at pointee
    cases pointee
  simp only [answerFor]
  rw [bind_of_ok (onArena_of_ok held), if_neg other]
  refine (resolveWithin_value so zero kind re).bind fun t m resolved => ?_
  obtain ⟨ad, _, entails⟩ := resolved
  have grounded : t.Grounded := by
    obtain ⟨target, rfl, _⟩ := so.valueType_of_entails kind entails
    exact Inquiry.valueType_grounded
  exact .ok ⟨ad, t, rfl, entails.names, grounded⟩

/-- Resolving a live class gives it a verdict, and fails for a stride of zero only. -/
lemma resolve_concludes (so : a.Sorted log fresh) (zero : ZeroStride log → fails) {c : ClassId}
    (live : c ∈ a.liveIds) (re : Resolves a log config s) :
    Concludes fails (fun _ s' => Advances a log config s s' ∧ Judged s' c)
      (resolve config c s) := by
  have co := so.coherent
  obtain ⟨record, mem, rfl⟩ := List.mem_map.1 live
  obtain ⟨found, leads⟩ := co.mem_liveClasses.1 mem
  have lt := co.lt_of_record found
  have size : s.arena.classes.size = a.size := re.retouches.classes_size.trans co.classes_size
  rw [resolve, bind_of_ok (get_run s), size]
  obtain ⟨depth, e⟩ := Nat.exists_eq_add_one_of_ne_zero (Nat.ne_zero_of_lt lt)
  rw [e]
  refine (resolveWithin_concludes so zero lt (fun v m => answerFor_concludes so zero) re).mono ?_
  intro t s' h
  rw [leads] at h
  exact ⟨h.1, h.2.1⟩

/-- Resolving live classes one after the other gives each of them a verdict. -/
lemma resolveEach_concludes (so : a.Sorted log fresh) (zero : ZeroStride log → fails)
    {ids : List ClassId} (live : ∀ c ∈ ids, c ∈ a.liveIds) (re : Resolves a log config s) :
    Concludes fails (fun _ s' => Advances a log config s s' ∧ ∀ c ∈ ids, Judged s' c)
      ((ids.forM fun c => do let _ ← resolve config c : ResolveM Unit) s) := by
  induction ids generalizing s with
  | nil => exact .ok ⟨re.refl, by simp⟩
  | cons c ids ih =>
    have here := resolve_concludes so zero (live c List.mem_cons_self) re
    have first : Concludes fails (fun _ s' => Advances a log config s s' ∧ Judged s' c)
        ((do let _ ← resolve config c : ResolveM Unit) s) := here.bind fun _ _ h => .ok h
    refine first.bind ?_
    rintro _ m ⟨ad, judged⟩
    have rest := ih (fun d mem => live d (List.mem_cons_of_mem _ mem)) ad.resolves
    refine rest.mono fun _ n h => ⟨ad.trans h.1, fun d mem => ?_⟩
    rcases List.mem_cons.1 mem with rfl | mem
    · exact h.1.keeps judged
    · exact h.2 d mem

/-- An arena without verdicts is where a resolution starts. -/
lemma resolves_start (so : a.Sorted log fresh) (uj : a.Unjudged) :
    Resolves a log config ⟨a, #[]⟩ where
  retouches := .refl so.coherent.forest.toRanked
  unfrozen := uj.unfrozen
  settles := by simp
  entails record mem t settled := by
    have judged := dataType_of_settled? settled
    rw [(uj record mem).1] at judged
    cases judged

/-- Every live class has a verdict that follows from its evidence. -/
structure Resolved (a : Arena) (log : List Constraint) (config : Config) (remarks : List Remark)
    (b : Arena) : Prop where
  retouches : a.Retouches b
  settles : ∀ n ∈ remarks, ∃ c ∈ a.liveIds, n.Settles c
  entails : ∀ record ∈ b.liveClasses, ∃ t, record.dataType = some t ∧
    a.Entails log config record.id t

/-- A resolution in which all live classes have verdicts is complete. -/
lemma Resolves.resolved (re : Resolves a log config s) (so : a.Sorted log fresh)
    (all : ∀ c ∈ a.liveIds, Judged s c) : Resolved a log config s.remarks.toList s.arena where
  retouches := re.retouches
  settles n mem := re.settles n (Array.mem_toList_iff.1 mem)
  entails record mem := by
    have co := re.retouches.coherent so.coherent
    have live : record.id ∈ a.liveIds := re.retouches.liveIds so.coherent ▸ List.mem_map_of_mem mem
    obtain ⟨judged, inside, id, t, settled⟩ := all record.id live
    -- a live class has one record only
    have found := (co.mem_liveClasses.1 inside).1
    rw [id, (co.mem_liveClasses.1 mem).1] at found
    cases found
    exact ⟨t, dataType_of_settled? settled, re.entails record mem settled⟩

end

end ResolveM

/-- The resolution of a sorted arena gives every live class a verdict that follows from its evidence,
and fails for elements with a stride of zero only. -/
lemma ArenaM.resolveAll_concludes {a : Arena} {log fresh} (so : a.Sorted log fresh)
    (uj : a.Unjudged) {fails : Prop} (zero : Arena.ZeroStride log → fails) (config : Config) :
    Concludes fails (ResolveM.Resolved a log config) (ArenaM.resolveAll config a) := by
  have all := ResolveM.resolveEach_concludes so zero (fun c mem => mem)
    (ResolveM.resolves_start so uj : ResolveM.Resolves a log config _)
  have resolving : Concludes fails (fun r b => ResolveM.Resolved a log config r.2 b)
      (ArenaM.resolving (ResolveM.resolveAll config) a) := by
    rw [ArenaM.resolving, ResolveM.resolveAll, bind_of_ok (get_run _)]
    generalize (a.liveIds.forM fun c => do let _ ← ResolveM.resolve config c :
      ResolveM Unit) ⟨a, #[]⟩ = result at all
    cases all with
    | ok holds => exact .ok (holds.1.resolves.resolved so holds.2)
    | error fails => exact .error fails
  exact resolving.bind fun r b resolved => .ok resolved

end TypeRecovery
