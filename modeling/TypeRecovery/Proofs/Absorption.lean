import TypeRecovery.Proofs.Arena.Conservation
import TypeRecovery.Proofs.Procedures

/-!
# The trail of absorbed classes

A class that was merged into another one keeps the number of the survivor, which may be absorbed later
in its turn. The forest knows nothing of these numbers: it finds the class of a variable by trees whose
form depends on ranks. The two agree all the same. `Traced` is why: the class that absorbed another has
a lower number and the same leader, and a merge of leaders cannot separate the two any more. So the
numbers lead down to the representative (`absorbed_trails`). An absorbed class is empty, and nothing
short of a reset touches its record again.
-/

namespace TypeRecovery.Arena

/-- Going from a class to the one that absorbed it, and on from there, passes `visited` and ends at `d`,
which was not absorbed. -/
inductive Trail (a : Arena) : ClassId → (visited : List ClassId) → (d : ClassId) → Prop
  | ends {c} : (a.class? c).map ClassRecord.absorbedInto = some none → Trail a c [c] c
  | onward {c next visited d} : (a.class? c).map ClassRecord.absorbedInto = some (some next) →
    Trail a next visited d → Trail a c (c :: visited) d

/-- What is known of a class that was absorbed. -/
structure Absorbed (a : Arena) (c : Nat) (record : ClassRecord) (survivor : ClassId) : Prop where
  lt : survivor.index < c
  leaderOf : a.forest.leaderOf survivor.index = a.forest.leaderOf c
  unjudged : record.dataType = none

/-- Every class that was absorbed has given up its verdict, and is where its survivor is. -/
def Traced (a : Arena) : Prop :=
  ∀ {c record survivor}, a.class? ⟨c⟩ = some record → record.absorbedInto = some survivor →
    a.Absorbed c record survivor

variable {a b : Arena} {log : List Constraint} {call : Call} {c d : ClassId} {record : ClassRecord}

/-! ## Records of absorbed classes -/

/-- A change of one record leaves the others alone. -/
lemma class?_modifyClass_of_ne {f : ClassRecord → ClassRecord} (ne : c ≠ d) :
    (a.modifyClass d f).class? c = a.class? c := by
  simp only [modifyClass, class?, Array.getElem?_modify]
  exact if_neg fun e => ne (congrArg ClassId.mk e.symm)

/-- Shortening paths changes no record. -/
lemma Compresses.class?_eq (cp : a.Compresses b) (c : ClassId) : b.class? c = a.class? c := by
  obtain ⟨g, _, rfl⟩ := cp
  rfl

/-- Calls change the records of leaders only, and an absorbed class leads nobody. -/
lemma Effect.keeps_absorbed (eff : a.Effect call b) (co : a.Coherent log) (ne : call ≠ .reset)
    (found : a.class? c = some record) (gone : record.isLive = false) :
    b.class? c = some record := by
  have leads := co.leaderOf_ne_absorbed found gone
  have apart : ∀ i, c ≠ ⟨a.forest.leaderOf i⟩ := by
    rintro i rfl
    exact leads i rfl
  cases eff with
  | compresses _ cp => rw [cp.class?_eq, found]
  | allocates =>
    rw [co.class?_addVariable _ c.index, if_neg (co.lt_of_record found).ne]
    exact found
  | merges _ _ _ mg =>
    rw [mg.others ?_ ?_]
    · exact found
    · rintro rfl
      exact leads _ mg.leads_lo
    · rintro rfl
      exact leads _ mg.leads_hi
  | constrains _ _ e _ =>
    subst e
    rw [class?_withConstraint _ _ _ c.index, if_neg (leads _)]
    exact found
  | judges _ cp => rw [class?_modifyClass_of_ne (apart _), cp.class?_eq, found]
  | finalizes cp => rw [class?_modifyClass_of_ne (apart _), cp.class?_eq, found]
  | finalizesAll =>
    have found : a.classes[c.index]? = some record := found
    simp [finalizeAll, class?, found, gone]
  | resets => exact absurd rfl ne

/-! ## Steps and runs -/

/-- A call other than a reset leaves all leaders alone or merges two of them. -/
lemma Effect.leaders (eff : a.Effect call b) (co : a.Coherent log) (ne : call ≠ .reset) :
    (∀ i, b.forest.leaderOf i = a.forest.leaderOf i) ∨ ∃ lo hi, a.Merges b lo hi := by
  cases eff with
  | compresses _ cp => exact .inl (cp.leaderOf_eq co)
  | allocates => exact .inl (co.leaderOf_addVariable _)
  | merges _ _ _ mg => exact .inr ⟨_, _, mg⟩
  | constrains _ _ e _ =>
    subst e
    exact .inl fun _ => rfl
  | judges _ cp => exact .inl (cp.leaderOf_eq co)
  | finalizes cp => exact .inl (cp.leaderOf_eq co)
  | finalizesAll => exact .inl fun _ => rfl
  | resets => exact absurd rfl ne

/-- Classes with one leader never part. -/
lemma Effect.leaderOf_eq (eff : a.Effect call b) (co : a.Coherent log) (ne : call ≠ .reset)
    {i j : Nat} (same : a.forest.leaderOf i = a.forest.leaderOf j) :
    b.forest.leaderOf i = b.forest.leaderOf j := by
  rcases eff.leaders co ne with kept | ⟨lo, hi, mg⟩
  · rw [kept, kept, same]
  · rw [mg.leaderOf, mg.leaderOf, same]

/-- A class that is absorbed after a call was so before, or a merge absorbed it. -/
lemma Effect.absorbed (eff : a.Effect call b) (co : a.Coherent log) (ne : call ≠ .reset)
    (found : b.class? c = some record) (gone : record.isLive = false) :
    a.class? c = some record ∨
      ∃ lo kept, a.Merges b lo c.index ∧ record = ClassRecord.handOver kept ⟨lo⟩ := by
  have led := (eff.coherent co).leaderOf_ne_absorbed found gone c.index
  by_cases leads : a.forest.leaderOf c.index = c.index
  · rcases eff.leaders co ne with kept | ⟨lo, hi, mg⟩
    · exact absurd ((kept _).trans leads) led
    · -- of the two leaders that are merged only the higher one loses its lead
      have hi_eq : c.index = hi := by
        by_contra other
        exact led (mg.leads_iff.2 ⟨leads, other⟩)
      subst hi_eq
      obtain ⟨_, old, _, _, _, now⟩ := mg.merged
      exact .inr ⟨lo, old, mg, Option.some.inj (found.symm.trans now)⟩
  · have lt : c.index < a.size := by
      by_contra beyond
      exact leads (Forest.leaderOf_of_size_le (co.forest_size ▸ Nat.le_of_not_lt beyond))
    obtain ⟨old, was, records⟩ := co.exists_record lt
    have absorbed : old.isLive = false := by rw [records.isLive, decide_eq_false leads]
    have same := (eff.keeps_absorbed co ne was absorbed).symm.trans found
    exact .inl (Option.some.inj same ▸ was)

/-- A call leaves every absorbed class where its survivor is. -/
lemma Traced.after (tr : a.Traced) (co : a.Coherent log) (call : Call) :
    (call.after a).Traced := by
  intro c record survivor found gone
  by_cases ne : call = .reset
  · subst ne
    cases found
  have eff := co.effect call
  have dead : record.isLive = false := by rw [ClassRecord.isLive, gone]; rfl
  rcases eff.absorbed co ne found dead with was | ⟨lo, kept, mg, rfl⟩
  · obtain ⟨lt, same, unjudged⟩ := tr was gone
    exact ⟨lt, eff.leaderOf_eq co ne same, unjudged⟩
  · obtain rfl := Option.some.inj gone
    refine ⟨mg.lt, ?_, rfl⟩
    rw [mg.leaderOf_eq_lo.2 (.inl mg.leads_lo), mg.leaderOf_eq_lo.2 (.inr mg.leads_hi)]

/-- In every arena that calls can make, absorbed classes are where their survivors are. -/
lemma Reachable.traced (re : a.Reachable) : a.Traced := by
  refine re.induction (P := Traced) ?_ fun call co tr => tr.after co call
  intro c record survivor found
  cases found

/-- No sequence of calls without a reset changes the record of an absorbed class. -/
lemma Coherent.keeps_absorbed (co : a.Coherent log) {calls : List Call}
    (kept : Call.reset ∉ calls) (found : a.class? c = some record) (gone : record.isLive = false) :
    (a.afterAll calls).class? c = some record := by
  refine co.afterAll_keeps (P := fun b => b.class? c = some record) ?_ kept found
  intro a log call co ne found
  exact (co.effect call).keeps_absorbed co ne found gone

/-! ## Trails -/

variable {visited : List ClassId}

/-- Numbers go down along a trail, so every trail ends. -/
lemma Traced.exists_trail (tr : a.Traced) (co : a.Coherent log) {i : Nat} (lt : i < a.size) :
    ∃ visited d, a.Trail ⟨i⟩ visited d := by
  induction i using Nat.strong_induction_on with
  | h i ih =>
    obtain ⟨record, found, _⟩ := co.exists_record lt
    cases gone : record.absorbedInto with
    | none => exact ⟨_, _, .ends (by rw [found, Option.map_some, gone])⟩
    | some next =>
      have lower := (tr found gone).lt
      obtain ⟨visited, d, trail⟩ := ih next.index lower (lower.trans lt)
      exact ⟨_, d, .onward (by rw [found, Option.map_some, gone]) trail⟩

/-- The numbers along a trail descend. -/
lemma Trail.descends (trail : a.Trail c visited d) (tr : a.Traced) :
    (visited.Pairwise fun x y => y.index < x.index) ∧ ∀ x ∈ visited, x.index ≤ c.index := by
  induction trail with
  | ends _ => simp
  | @onward c next visited d step _ ih =>
    obtain ⟨record, found, gone⟩ := Option.map_eq_some_iff.1 step
    have lower := (tr found gone).lt
    have below : ∀ x ∈ visited, x.index < c.index := fun x mem => (ih.2 x mem).trans_lt lower
    refine ⟨List.pairwise_cons.2 ⟨below, ih.1⟩, ?_⟩
    rw [List.forall_mem_cons]
    exact ⟨Nat.le_refl _, fun x mem => (below x mem).le⟩

/-- A trail ends at the leader of the class where it starts. -/
lemma Trail.leaderOf_eq (trail : a.Trail c visited d) (tr : a.Traced) (co : a.Coherent log) :
    c.index < a.size ∧ a.forest.leaderOf c.index = d.index := by
  induction trail with
  | ends last =>
    obtain ⟨record, found, alive⟩ := Option.map_eq_some_iff.1 last
    have leads := (co.records found).isLive
    rw [ClassRecord.isLive, alive] at leads
    exact ⟨co.lt_of_record found, of_decide_eq_true leads.symm⟩
  | onward step _ ih =>
    obtain ⟨record, found, gone⟩ := Option.map_eq_some_iff.1 step
    exact ⟨co.lt_of_record found, (tr found gone).leaderOf.symm.trans ih.2⟩

/-- A trail ends at the representative of the class where it starts, which is live. -/
lemma Trail.representative?_eq (trail : a.Trail c visited d) (tr : a.Traced)
    (co : a.Coherent log) : a.representative? c = some d ∧ d ∈ a.liveIds := by
  obtain ⟨lt, leads⟩ := trail.leaderOf_eq tr co
  have here : (⟨a.forest.leaderOf c.index⟩ : ClassId) = d := congrArg ClassId.mk leads
  obtain ⟨record, live, h⟩ := co.leader_live lt
  refine ⟨?_, List.mem_map.2 ⟨record, live, h.id.trans here⟩⟩
  rw [representative?, if_pos (co.forest_size ▸ lt), here]

/-- An absorbed class has no members. -/
lemma Coherent.members_absorbed (co : a.Coherent log) (found : a.class? c = some record)
    (gone : record.isLive = false) : record.members = [] := by
  rw [(co.records found).members]
  refine List.filter_eq_nil_iff.2 fun v _ => ?_
  rw [decide_eq_true_eq]
  exact co.leaderOf_ne_absorbed found gone _

/-- An absorbed class has no verdict. -/
lemma Traced.dataType_absorbed (tr : a.Traced) (found : a.class? c = some record)
    (gone : record.isLive = false) : record.dataType = none := by
  cases into : record.absorbedInto with
  | none =>
    rw [ClassRecord.isLive, into] at gone
    cases gone
  | some survivor => exact (tr found into).unjudged

/-- In every arena that calls can make, the numbers of the classes that absorbed one another go down from
any class to its representative, which is live. An absorbed class is empty, and its record stays as it
is, whatever is done short of a reset. -/
theorem absorbed_trails (re : a.Reachable) :
    (∀ c, c.index < a.size → ∃ visited d, a.Trail c visited d) ∧
    (∀ c visited d, a.Trail c visited d →
      (visited.Pairwise fun x y => y.index < x.index) ∧ d ∈ a.liveIds ∧
        a.representative? c = some d) ∧
    ∀ c record, a.class? c = some record → record.isLive = false →
      record.members = [] ∧ record.constraints = [] ∧ record.dataType = none ∧
        ∀ procedures, Procedure.call .reset ∉ procedures →
          (a.afterEach procedures).class? c = some record := by
  obtain ⟨log, co⟩ := re.coherent
  have tr : a.Traced := re.traced
  refine ⟨fun c lt => tr.exists_trail co lt, fun c visited d trail => ?_,
    fun c record found gone => ?_⟩
  · obtain ⟨same, live⟩ := trail.representative?_eq tr co
    exact ⟨(trail.descends tr).1, live, same⟩
  · refine ⟨co.members_absorbed found gone, co.constraints_absorbed found gone,
      tr.dataType_absorbed found gone, fun procedures kept => ?_⟩
    obtain ⟨calls, free, e⟩ := a.afterEach_byCalls kept
    rw [e]
    exact co.keeps_absorbed free found gone

/-- Every merge absorbs the survivor of the one before, while the root of the tree stays the same. -/
def descendingCalls : List Call :=
  [.newVariable (.storage "p"), .newVariable (.storage "q"), .newVariable (.storage "r"),
    .newVariable (.storage "s"), .setType ⟨3⟩ .boolean, .unify ⟨3⟩ ⟨2⟩, .unify ⟨2⟩ ⟨1⟩,
    .unify ⟨1⟩ ⟨0⟩]

/-- What is left of the class that had a verdict. -/
def absorbedRecord : ClassRecord :=
  ⟨⟨3⟩, [], [], .resolved, none, some ⟨2⟩⟩

/-- The classes are merged one after the other, each with the one that was merged before. -/
lemma afterAll_descendingCalls : Arena.empty.afterAll descendingCalls =
    ((((Arena.empty.afterAll (descendingCalls.take 6)).modifyClass ⟨2⟩ (·.unconstrained)).afterAll
      [.unify ⟨2⟩ ⟨1⟩]).modifyClass ⟨1⟩ (·.unconstrained)).afterAll [.unify ⟨1⟩ ⟨0⟩] := by
  rw [modifyClass_unconstrained (.singleton 1) _ rfl rfl rfl,
    modifyClass_unconstrained (.singleton 2) _ rfl rfl rfl]
  rfl

/-- The trail leads from class 3 to class 0 through the survivors in between, although class 3 is
the root; its record stays what the first merge left of it. -/
theorem absorbed_trails_descendingCalls :
    let a := Arena.empty.afterAll descendingCalls
    a.forest.root 0 = 3 ∧ a.Trail ⟨3⟩ [⟨3⟩, ⟨2⟩, ⟨1⟩, ⟨0⟩] ⟨0⟩ ∧ a.representative? ⟨3⟩ = some ⟨0⟩ ∧
      a.class? ⟨3⟩ = some absorbedRecord ∧ absorbedRecord.isLive = false ∧
      (a.afterEach [.call (.setType ⟨3⟩ .void), .resolveAll .lp64, .call .finalizeAll]).class? ⟨3⟩ =
        some absorbedRecord := by
  have root : (Arena.empty.afterAll descendingCalls).forest.root 0 = 3 := by
    rw [afterAll_descendingCalls]
    decide +kernel
  have trail : (Arena.empty.afterAll descendingCalls).Trail ⟨3⟩ [⟨3⟩, ⟨2⟩, ⟨1⟩, ⟨0⟩] ⟨0⟩ := by
    rw [afterAll_descendingCalls]
    exact .onward rfl (.onward rfl (.onward rfl (.ends rfl)))
  have found : (Arena.empty.afterAll descendingCalls).class? ⟨3⟩ = some absorbedRecord := by
    rw [afterAll_descendingCalls]
    decide +kernel
  obtain ⟨_, trails, absorbed⟩ := absorbed_trails ⟨descendingCalls, rfl⟩
  refine ⟨root, trail, (trails _ _ _ trail).2.2, found, rfl, ?_⟩
  exact (absorbed _ _ found rfl).2.2.2 _ (by simp)

end TypeRecovery.Arena
