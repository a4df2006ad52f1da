import TypeRecovery.Proofs.Arena.Kinds
import TypeRecovery.Proofs.DataType.References

/-!
# References between variables and classes

A variable may name another variable, as what it is the pointee of, and its first type may name
classes. Both are recorded once and never brought up to date, so all that can be kept is that they
were made: numbers are never taken back. `Bounded` says that, and growing and merging keep it.
-/

namespace TypeRecovery.Arena

/-- Variables stand under their own numbers, and what they name was made. -/
structure Bounded (a : Arena) : Prop where
  id : ∀ {v found}, a.var? v = some found → found.id = v
  pointer : ∀ {v found}, a.var? v = some found → ∀ {p}, found.site = .pointee p → p.index < a.size
  firstType : ∀ {v found}, a.var? v = some found → ∀ t ∈ found.firstType,
    t.Names fun c => c.index < a.size

/-- An empty arena names nothing. -/
lemma empty_bounded : Arena.empty.Bounded := by
  have none : ∀ v, Arena.empty.var? v = none := fun v => rfl
  constructor <;> simp [none]

/-- References depend on the store alone. -/
lemma Bounded.of_store {a b : Arena} (bd : a.Bounded) (store : b.store = a.store) :
    b.Bounded := by
  have vars : ∀ v, b.var? v = a.var? v := fun v => by simp only [var?, store]
  have size : b.size = a.size := by simp only [Arena.size, store]
  refine ⟨?_, ?_, ?_⟩
  · intro v found here
    exact bd.id (vars v ▸ here)
  · intro v found here p site
    rw [size]
    exact bd.pointer (vars v ▸ here) site
  · intro v found here
    rw [size]
    exact bd.firstType (vars v ▸ here)

/-- A new variable names at most a pointer that is there. -/
lemma Bounded.addVariable {a : Arena} (bd : a.Bounded) {site : UseSite}
    (made : ∀ {p}, site = .pointee p → p.index < a.size) : (a.addVariable site).Bounded := by
  refine ⟨?_, ?_, ?_⟩
  · intro v found here
    rw [var?_addVariable] at here
    split at here
    · rename_i new
      cases here
      exact congrArg VarId.mk new.symm
    · exact bd.id here
  · intro v found here p e
    rw [size_addVariable]
    rw [var?_addVariable] at here
    split at here
    · cases here
      exact (made e).trans (Nat.lt_succ_self _)
    · exact (bd.pointer here e).trans (Nat.lt_succ_self _)
  · intro v found here t first c mem
    rw [size_addVariable]
    rw [var?_addVariable] at here
    split at here
    · cases here
      cases first
    · exact (bd.firstType here t first c mem).trans (Nat.lt_succ_self _)

/-- The type that a fact directly implies names a class that is there. -/
lemma Coherent.names_directEvidence {a : Arena} {log} (co : a.Coherent log) {fact : Fact}
    {t : DataType} (direct : a.directEvidence fact = .ok (some t)) :
    t.Names fun c => c.index < a.size := by
  cases fact with
  | pointsTo target =>
    rw [directEvidence_pointsTo] at direct
    split at direct
    · rename_i c held
      cases direct
      obtain ⟨lt, e⟩ := co.classOf?_eq_some.1 held
      rw [DataType.names_pointer, ← e]
      exact co.leaderOf_lt lt
    · cases direct
  | size _ | constant _ | bitwise _ | discriminant _ | boolean =>
    cases direct
    exact DataType.names_of_classIds_eq_nil rfl
  | _ => cases direct

/-- A constraint changes no variable, but may give its subject a first type. -/
lemma var?_withConstraint {a : Arena} {v : VarId} {t : DataType} {constraint : Constraint}
    {w : VarId} {found : Variable}
    (here : (a.withConstraint (ArenaM.storeWith a v (some t)) constraint).var? w = some found) :
    ∃ old, a.var? w = some old ∧ found.id = old.id ∧ found.site = old.site ∧
      (found.firstType = old.firstType ∨ found.firstType = some t) := by
  have here : (a.store.vars.modify v.index (·.recordFirst t))[w.index]? = some found := here
  rw [Array.getElem?_modify] at here
  split at here
  · obtain ⟨old, was, rfl⟩ := Option.map_eq_some_iff.1 here
    refine ⟨old, was, rfl, rfl, ?_⟩
    rw [Variable.recordFirst]
    cases old.firstType with
    | none => exact .inr rfl
    | some _ => exact .inl rfl
  · exact ⟨found, here, rfl, rfl, .inl rfl⟩

/-- A constraint names at most the classes that its evidence names. -/
lemma Bounded.withConstraint {a : Arena} (bd : a.Bounded) {v : VarId}
    {evidence : Option DataType} (direct : ∀ t ∈ evidence, t.Names fun c => c.index < a.size)
    (constraint : Constraint) :
    (a.withConstraint (ArenaM.storeWith a v evidence) constraint).Bounded := by
  cases evidence with
  | none => exact bd.of_store rfl
  | some t =>
    have size : (a.withConstraint (ArenaM.storeWith a v (some t)) constraint).size = a.size :=
      ArenaM.size_storeWith a v (some t)
    refine ⟨?_, ?_, ?_⟩
    · intro w found here
      obtain ⟨old, was, id, _, _⟩ := var?_withConstraint here
      exact id.trans (bd.id was)
    · intro w found here p e
      obtain ⟨old, was, _, site, _⟩ := var?_withConstraint here
      rw [size]
      exact bd.pointer was (site.symm.trans e)
    · intro w found here u first
      obtain ⟨old, was, _, _, same | new⟩ := var?_withConstraint here
      · rw [size]
        exact bd.firstType was u (same ▸ first)
      · rw [size]
        rw [new] at first
        cases first
        exact direct t rfl

end TypeRecovery.Arena
