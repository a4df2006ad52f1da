import TypeRecovery.Proofs.Arena.Conservation
import TypeRecovery.Proofs.Arena.LeastCongruence

/-!
# Closing is counted and stable

The answer of closing an arena is the number of live classes that it loses. What was closed has no
congruent variables in different classes, so closing it again merges nothing and changes nothing.
Neither moves a variable or drops a constraint (`close_counts_and_settles`).
-/

namespace TypeRecovery

namespace Arena

variable {a b c : Arena} {log : List Constraint}

/-- Evidence that mentions variables of one arena mentions variables of every arena with its log and
its store. -/
lemma Approaches.allocated (ap : a.Approaches log b) (co : a.Coherent log) (alloc : a.Allocated) :
    b.Allocated := by
  intro x fact v holds linked
  rw [ap.size]
  exact alloc (co.holds_iff.2 (ap.coherent.holds_iff.1 holds)) linked

/-- The leader of a class is its lowest number. -/
lemma Coherent.leads_iff (co : a.Coherent log) {i : Nat} (lt : i < a.size) :
    a.forest.leaderOf i = i ↔ ∀ j < i, ¬ a.SameClass ⟨j⟩ ⟨i⟩ := by
  have low := co.forest.leaderOf_le
  simp only [co.sameClass_iff]
  constructor
  · rintro own j less ⟨_, _, same⟩
    have lowest := low j
    rw [same, own] at lowest
    exact absurd less lowest.not_gt
  · intro lowest
    by_contra other
    refine lowest _ ((low i).lt_of_ne other) ⟨(low i).trans_lt lt, lt, ?_⟩
    exact co.forest.leaderOf_leaderOf i

/-- Where congruent variables share a class, what leads itself leads itself after any merges: they
bring nothing new together. -/
lemma Approaches.leaderOf_of_closed (ap : b.Approaches log c) (co : b.Coherent log)
    (closed : ∀ {x y}, b.Congruent x y → b.SameClass x y) {i : Nat} (lt : i < b.size)
    (own : b.forest.leaderOf i = i) : c.forest.leaderOf i = i := by
  rw [co.leads_iff lt] at own
  rw [ap.coherent.leads_iff (ap.size ▸ lt)]
  intro j less together
  exact own j less (closed (ap.within together))

/-- Where congruent variables share a class, no merge on the way to the closure loses a live class.
-/
lemma Approaches.length_liveIds_le (ap : b.Approaches log c) (co : b.Coherent log)
    (closed : ∀ {x y}, b.Congruent x y → b.SameClass x y) :
    b.liveIds.length ≤ c.liveIds.length := by
  rw [co.liveIds_eq, ap.coherent.liveIds_eq, List.length_map, List.length_map, ap.size,
    ← List.countP_eq_length_filter, ← List.countP_eq_length_filter]
  apply List.countP_mono_left
  intro i mem own
  rw [decide_eq_true_eq] at own ⊢
  exact ap.leaderOf_of_closed co closed (List.mem_range.1 mem) own

/-- Closing an arena that is closed merges nothing and changes nothing. -/
lemma Coherent.close_of_closed (co : b.Coherent log) (uf : b.Unfrozen) (alloc : b.Allocated)
    (closed : ∀ {x y}, b.Congruent x y → b.SameClass x y) : ArenaM.close b = .ok 0 b := by
  obtain ⟨k, c, run, ap, count, none⟩ := closes_closeRound alloc co b (.refl co uf)
  have kept := ap.length_liveIds_le co closed
  have zero : k = 0 := by omega
  obtain ⟨rfl, _⟩ := none zero
  rw [ArenaM.close, bind_of_ok (get_run c), ArenaM.closeWithin, bind_of_ok run, if_pos zero]
  rfl

/-- Closing an arena counts the live classes that it loses, and closing it again finds nothing to
merge and changes nothing. The variables with their first types stay as they are, and so do all
constraints, though they may move to another class. -/
theorem close_counts_and_settles (re : a.Reachable) (uf : a.Unfrozen) (alloc : a.Allocated) :
    ∃ merged b, ArenaM.close a = .ok merged b ∧
      b.liveClasses.length + merged = a.liveClasses.length ∧
      b.store = a.store ∧
      (b.liveClasses.flatMap (·.constraints)).Perm (a.liveClasses.flatMap (·.constraints)) ∧
      ArenaM.close b = .ok 0 b := by
  obtain ⟨log, co⟩ := re.coherent
  obtain ⟨merged, b, run, ap, count, settled⟩ :=
    closeWithin_settles alloc co (.refl co uf) (Nat.lt_succ_self _)
  rw [liveIds, liveIds, List.length_map, List.length_map] at count
  have coB := ap.coherent
  refine ⟨merged, b, ?_, count, ap.store, coB.constraints_perm.trans co.constraints_perm.symm, ?_⟩
  · rw [ArenaM.close, bind_of_ok (get_run a)]
    exact run
  · apply coB.close_of_closed ap.unfrozen (ap.allocated co alloc)
    exact Approaches.sameClass_of_congruent (.refl coB ap.unfrozen) coB settled

/-- A number for the pointer, one for the two structures and one for the two values. -/
def twoTargetsLabel (v : VarId) : Nat :=
  [0, 1, 1, 3, 3].getD v.index v.index

/-- Nothing but the structures and the values is forced together. -/
lemma twoTargetsLabel_eq {x y : VarId} (cong : twoTargets.Congruent x y) :
    twoTargetsLabel x = twoTargetsLabel y := by
  have alone : ∀ i < 5, twoTargets.forest.leaderOf i = i := by decide +kernel
  have facts : ∀ record ∈ twoTargets.liveClasses, ∀ constraint ∈ record.constraints,
      (∀ t ∈ constraint.fact.target?, twoTargetsLabel t = 1) ∧
        (∀ access ∈ constraint.fact.field?, twoTargetsLabel access.value = 3) ∧
        constraint.fact.element? = none := by decide +kernel
  obtain ⟨log, co⟩ : ∃ log, twoTargets.Coherent log := Reachable.coherent ⟨_, rfl⟩
  refine cong.label_eq ?_ ?_
  · intro x y together
    obtain ⟨ltx, lty, same⟩ := co.sameClass_iff.1 together
    rw [alone _ ltx, alone _ lty] at same
    rw [twoTargetsLabel, twoTargetsLabel, same]
  · rintro x y p q v w - ⟨_, live, constraint, mem, _, rfl⟩ ⟨_, live', constraint', mem', _, rfl⟩
      forces
    have first := facts _ live _ mem
    have second := facts _ live' _ mem'
    generalize constraint.fact = p at first forces
    generalize constraint'.fact = q at second forces
    cases forces with
    | targets => exact (first.1 _ rfl).trans (second.1 _ rfl).symm
    | fields => exact (first.2.1 _ rfl).trans (second.2.1 _ rfl).symm
    | elements => cases first.2.2

/-- The closure of the five classes has three. -/
lemma length_liveClasses_twoTargets {k : Nat} (run : ArenaM.close twoTargets = .ok k b) :
    b.liveClasses.length = 3 := by
  obtain ⟨log, co⟩ : ∃ log, twoTargets.Coherent log := Reachable.coherent ⟨_, rfl⟩
  obtain ⟨k', b', run', ap, _, iff⟩ := co.close twoTargets_unfrozen twoTargets_allocated
  cases run.symm.trans run'
  have size : b.size = 5 := ap.size.trans (by decide +kernel)
  -- a class is led by its lowest member, so the leaders are the first variables with their labels
  have lowest : ∀ i < 5, b.forest.leaderOf i = i ↔
      ∀ j < i, twoTargetsLabel ⟨j⟩ ≠ twoTargetsLabel ⟨i⟩ := by
    intro i lt
    rw [ap.coherent.leads_iff (size ▸ lt)]
    refine forall₂_congr fun j less => not_congr ((iff _ _).trans ⟨twoTargetsLabel_eq, ?_⟩)
    have pairs : ∀ i < 5, ∀ j < i, twoTargetsLabel ⟨j⟩ = twoTargetsLabel ⟨i⟩ →
        j = 1 ∧ i = 2 ∨ j = 3 ∧ i = 4 := by decide
    intro same
    rcases pairs i lt j less same with ⟨rfl, rfl⟩ | ⟨rfl, rfl⟩
    · exact twoTargets_congruent.1
    · exact twoTargets_congruent.2
  have ids : b.liveIds.length = 3 := by
    rw [ap.coherent.liveIds_eq, size, List.length_map]
    have leaders : (List.range 5).filter (fun i => b.forest.leaderOf i = i) =
        (List.range 5).filter fun i => ∀ j < i, twoTargetsLabel ⟨j⟩ ≠ twoTargetsLabel ⟨i⟩ :=
      List.filter_congr fun i mem => decide_eq_decide.2 (lowest i (List.mem_range.1 mem))
    rw [leaders]
    decide
  rwa [liveIds, List.length_map] at ids

/-- Of five classes, the structures are merged and then the values, and nothing is left to merge. -/
theorem close_counts_and_settles_twoTargets :
    twoTargets.Unfrozen ∧ twoTargets.Allocated ∧ twoTargets.liveClasses.length = 5 ∧
      ∃ b, ArenaM.close twoTargets = .ok 2 b ∧ b.liveClasses.length = 3 ∧
        ArenaM.close b = .ok 0 b := by
  have reachable : twoTargets.Reachable := ⟨_, rfl⟩
  have five : twoTargets.liveClasses.length = 5 := by decide +kernel
  obtain ⟨merged, b, run, count, _, _, again⟩ :=
    close_counts_and_settles reachable twoTargets_unfrozen twoTargets_allocated
  have three := length_liveClasses_twoTargets run
  obtain rfl : merged = 2 := by omega
  exact ⟨twoTargets_unfrozen, twoTargets_allocated, five, b, run, three, again⟩

end Arena

end TypeRecovery
