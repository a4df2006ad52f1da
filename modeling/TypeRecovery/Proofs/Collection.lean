import TypeRecovery.Collection
import TypeRecovery.Proofs.Arena.References

/-!
# Collecting keeps pointees and values apart

Every step of the collection keeps the arena sorted. Only values get into the tables and are merged;
what pointers point into is reached through the evidence on pointers alone. A pointee that was just
made is fresh until the same operation accesses it.
-/

namespace TypeRecovery

namespace Collection

/-- The variables in the tables. -/
def tabled (s : Collection) : List VarId :=
  s.storage.map (·.2) ++ s.addresses.map (·.2) ++ s.segments.map (·.2) ++
    s.results.toList.filterMap id

/-- A variable is in the tables if it is in one of them. -/
lemma mem_tabled {s : Collection} {v : VarId} :
    v ∈ s.tabled ↔ (∃ name, (name, v) ∈ s.storage) ∨ (∃ place, (place, v) ∈ s.addresses) ∨
      (∃ name, (name, v) ∈ s.segments) ∨ some v ∈ s.results := by
  simp [tabled]

/-- The arena is sorted, all that it names was made, and all tables hold values. -/
structure Sorted (s : Collection) (fresh : List VarId) : Prop where
  arena : ∃ log, s.arena.Sorted log fresh
  unjudged : s.arena.Unjudged
  bounded : s.arena.Bounded
  tables : ∀ v ∈ s.tabled, s.arena.isPointee? v = some false

/-- A sorted collection that goes on from another one; variables keep their kinds. -/
structure Reaches (s t : Collection) (fresh : List VarId) : Prop where
  sorted : t.Sorted fresh
  grows : ∀ {v kind}, s.arena.isPointee? v = some kind → t.arena.isPointee? v = some kind

/-- A sorted collection goes on from itself. -/
lemma Sorted.refl {s : Collection} {fresh} (so : s.Sorted fresh) : s.Reaches s fresh :=
  ⟨so, fun e => e⟩

/-- A collection goes on from whatever an earlier one went on from. -/
lemma Reaches.trans {s t u : Collection} {fresh fresh'} (re : s.Reaches t fresh)
    (re' : t.Reaches u fresh') : s.Reaches u fresh' :=
  ⟨re'.sorted, fun e => re'.grows (re.grows e)⟩

/-- More variables may be taken to be fresh. -/
lemma Reaches.mono {s t : Collection} {fresh fresh'} (re : s.Reaches t fresh)
    (sub : ∀ v ∈ fresh, v ∈ fresh') : s.Reaches t fresh' := by
  obtain ⟨log, so⟩ := re.sorted.arena
  exact ⟨⟨⟨log, so.mono sub⟩, re.sorted.unjudged, re.sorted.bounded, re.sorted.tables⟩, re.grows⟩

/-- Tables that gained no more than a value. -/
lemma Reaches.table {s t u : Collection} {fresh} (re : s.Reaches t fresh)
    (arena : u.arena = t.arena)
    (values : ∀ v ∈ u.tabled, v ∈ t.tabled ∨ t.arena.isPointee? v = some false) :
    s.Reaches u fresh := by
  refine ⟨⟨?_, ?_, ?_, ?_⟩, ?_⟩
  · rw [arena]
    exact re.sorted.arena
  · rw [arena]
    exact re.sorted.unjudged
  · rw [arena]
    exact re.sorted.bounded
  · intro v mem
    rw [arena]
    exact (values v mem).elim (re.sorted.tables v) fun e => e
  · intro v kind e
    rw [arena]
    exact re.grows e

/-- The collection starts sorted, with nothing in it. -/
lemma start_sorted : (start Arena.empty).Sorted [] where
  arena := ⟨[], Arena.empty_sorted⟩
  unjudged := Arena.empty_unjudged
  bounded := Arena.empty_bounded
  tables v mem := by simp [tabled, start] at mem

end Collection

namespace CollectM

open Collection

/-! ## Steps on the arena -/

/-- A step on the arena succeeds if it does so on the arena alone, and changes nothing else. -/
lemma onArena_eq_ok {α : Type} {x : ArenaM α} {s t : Collection} {r : α} :
    onArena x s = .ok r t ↔ ∃ b, x s.arena = .ok r b ∧ t = { s with arena := b } := by
  simp only [onArena]
  cases x s.arena with
  | ok q b =>
    constructor
    · rintro ⟨⟩
      exact ⟨b, rfl, rfl⟩
    · rintro ⟨c, ⟨⟩, rfl⟩
      rfl
  | error e b => simp

/-- A step on the arena that keeps it sorted and keeps kinds. -/
lemma reaches_onArena {s : Collection} {b : Arena} {log fresh fresh'} (so : s.Sorted fresh)
    (sorted : b.Sorted log fresh') (unjudged : b.Unjudged) (bounded : b.Bounded)
    (grows : ∀ {v kind}, s.arena.isPointee? v = some kind → b.isPointee? v = some kind) :
    s.Reaches { s with arena := b } fresh' :=
  ⟨⟨⟨log, sorted⟩, unjudged, bounded, fun v mem => grows (so.tables v mem)⟩, grows⟩

/-- A new variable has the kind of its use, and a pointee is fresh. -/
lemma newVariable_reaches {s t : Collection} {fresh site v} (so : s.Sorted fresh)
    (made : ∀ {p}, site = .pointee p → p.index < s.arena.size)
    (run : newVariable site s = .ok v t) :
    s.Reaches t (if site.isPointee then v :: fresh else fresh) ∧
      t.arena.isPointee? v = some site.isPointee := by
  obtain ⟨b, made, rfl⟩ := onArena_eq_ok.1 run
  obtain ⟨log, sorted⟩ := so.arena
  cases made
  have own : (s.arena.addVariable site).isPointee? s.arena.store.next = some site.isPointee := by
    rw [Arena.isPointee?_addVariable]
    exact if_pos rfl
  refine ⟨reaches_onArena so (sorted.addVariable site) (so.unjudged.addVariable site)
    (so.bounded.addVariable made) ?_, own⟩
  intro v kind e
  rw [Arena.isPointee?_addVariable, if_neg (Arena.lt_of_isPointee? e).ne, e]

/-- A new variable for a value. -/
lemma newValue_reaches {s t : Collection} {fresh site v} (so : s.Sorted fresh)
    (run : newVariable site s = .ok v t) (value : site.isPointee = false) :
    s.Reaches t fresh ∧ t.arena.isPointee? v = some false := by
  have h := newVariable_reaches so (by rintro p rfl; cases value) run
  rw [value] at h
  exact h

/-- A fact of the right kind keeps the collection sorted, and what it accesses is fresh no more. -/
lemma constrain_reaches {s t : Collection} {fresh v position fact} (so : s.Sorted fresh)
    (subject : s.arena.isPointee? v = some fact.isAboutPointee)
    (mentions : ∀ {u kind}, (u, kind) ∈ fact.mentions → s.arena.isPointee? u = some kind)
    (run : constrain v position fact s = .ok () t) :
    s.Reaches t (if fact.isAccess then fresh.filter (· ≠ v) else fresh) := by
  obtain ⟨b, added, rfl⟩ := onArena_eq_ok.1 run
  obtain ⟨log, sorted⟩ := so.arena
  have out := ArenaM.constrain_of_lt sorted.coherent position fact (Arena.lt_of_isPointee? subject)
  rw [added] at out
  cases out with
  | @added evidence _ direct =>
    have sorted' := sorted.withConstraint position evidence subject mentions
    refine reaches_onArena so sorted' ?_ ?_ ?_
    · exact so.unjudged.withConstraint sorted.coherent sorted'.coherent
    · refine so.bounded.withConstraint (fun t implied => ?_) _
      rw [Option.mem_def.1 implied] at direct
      exact sorted.coherent.names_directEvidence direct
    · intro u kind e
      rw [Arena.isPointee?_withConstraint, e]

/-- A fact about a value that mentions nothing else. -/
lemma constrainValue_reaches {s t : Collection} {fresh v position fact} (so : s.Sorted fresh)
    (value : s.arena.isPointee? v = some false) (about : fact.isAboutPointee = false)
    (mentions : fact.mentions = []) (run : constrain v position fact s = .ok () t) :
    s.Reaches t fresh := by
  have re := constrain_reaches so (by rw [value, about]) (by simp [mentions]) run
  have access : fact.isAccess = false := by
    rw [← Bool.not_eq_true]
    intro access
    rw [Fact.isAboutPointee_of_isAccess access] at about
    cases about
  rwa [access] at re

/-- Values are merged. -/
lemma unify_reaches {s t : Collection} {fresh x y} (so : s.Sorted fresh)
    (kx : s.arena.isPointee? x = some false) (ky : s.arena.isPointee? y = some false)
    (run : unify x y s = .ok () t) : s.Reaches t fresh := by
  obtain ⟨c, m, merged, run⟩ := bind_eq_ok.1 run
  obtain ⟨_, rfl⟩ := pure_eq_ok.1 run
  obtain ⟨b, joined, rfl⟩ := onArena_eq_ok.1 merged
  obtain ⟨log, sorted⟩ := so.arena
  have ltx := Arena.lt_of_isPointee? kx
  have lty := Arena.lt_of_isPointee? ky
  have out := ArenaM.unify_of_lt sorted.coherent ltx lty
  rw [joined] at out
  cases out with
  | same _ cp =>
    refine reaches_onArena so (sorted.retouches cp.retouches) (cp.unjudged so.unjudged)
      (so.bounded.of_store cp.retouches.store) ?_
    intro v kind e
    rw [Arena.isPointee?_congr cp.retouches.store, e]
  | @merged _ lo hi _ _ _ elo ehi mg =>
    have leadx := (sorted.leaderOf ltx).trans kx
    have leady := (sorted.leaderOf lty).trans ky
    have kinds : s.arena.isPointee? ⟨lo⟩ = s.arena.isPointee? ⟨hi⟩ := by
      rw [elo, ehi]
      rcases Nat.le_total (s.arena.forest.leaderOf x.index) (s.arena.forest.leaderOf y.index)
        with le | le
      · rw [Nat.min_eq_left le, Nat.max_eq_right le, leadx, leady]
      · rw [Nat.min_eq_right le, Nat.max_eq_left le, leadx, leady]
    refine reaches_onArena so (sorted.merges mg kinds) (so.unjudged.merges sorted.coherent mg)
      (so.bounded.of_store mg.store) ?_
    intro v kind e
    rw [Arena.isPointee?_congr mg.store, e]

/-! ## Variables of operands -/

/-- A variable that is looked up in a table, or made and noted in it. -/
lemma lookup_reaches {κ β : Type} [BEq κ] [LawfulBEq κ] {table : List (κ × VarId)} {key : κ}
    {site : UseSite} {note : VarId → Collection → Collection} {old new : VarId → β}
    {s t : Collection} {fresh : List VarId} {r : β} (so : s.Sorted fresh)
    (run : (match table.lookup key with
      | some v => pure (old v)
      | none => do
        let v ← newVariable site
        modify (note v)
        return new v : CollectM β) s = .ok r t)
    (value : site.isPointee = false) (known : ∀ {k v}, (k, v) ∈ table → v ∈ s.tabled)
    (arena : ∀ v m, (note v m).arena = m.arena)
    (noted : ∀ {v m w}, w ∈ (note v m).tabled → w ∈ m.tabled ∨ w = v) :
    ∃ v, (r = old v ∨ r = new v) ∧ s.Reaches t fresh ∧ t.arena.isPointee? v = some false := by
  cases found : table.lookup key with
  | some v =>
    rw [found] at run
    obtain ⟨rfl, rfl⟩ := pure_eq_ok.1 run
    obtain ⟨before, after, e, _⟩ := List.lookup_eq_some_iff.1 found
    refine ⟨v, .inl rfl, so.refl, so.tables v (known (k := key) ?_)⟩
    rw [e]
    simp
  | none =>
    rw [found] at run
    obtain ⟨v, m, made, run⟩ := bind_eq_ok.1 run
    obtain ⟨re, kind⟩ := newValue_reaches so made value
    cases run
    refine ⟨v, .inr rfl, re.table (arena v m) fun w mem => ?_, ?_⟩
    · rcases noted mem with old | rfl
      · exact .inl old
      · exact .inr kind
    · rw [arena]
      exact kind

/-- The variable of a name is a value. -/
lemma storage_reaches {s t : Collection} {fresh name v} (so : s.Sorted fresh)
    (run : storage name s = .ok v t) : s.Reaches t fresh ∧ t.arena.isPointee? v = some false := by
  rw [storage, bind_of_ok (get_run s)] at run
  obtain ⟨u, rfl | rfl, h⟩ := lookup_reaches so run rfl (fun mem => mem_tabled.2 (.inl ⟨_, mem⟩))
    (fun _ _ => rfl) fun mem => by simp [mem_tabled] at mem ⊢; tauto
  · exact h
  · exact h

/-- The variable of a fixed address is a value. -/
lemma address_reaches {s t : Collection} {fresh place v} (so : s.Sorted fresh)
    (run : address place s = .ok v t) : s.Reaches t fresh ∧ t.arena.isPointee? v = some false := by
  rw [address, bind_of_ok (get_run s)] at run
  obtain ⟨u, rfl | rfl, h⟩ := lookup_reaches so run rfl
    (fun mem => mem_tabled.2 (.inr (.inl ⟨_, mem⟩))) (fun _ _ => rfl)
    fun mem => by simp [mem_tabled] at mem ⊢; tauto
  · exact h
  · exact h

/-- The variable of a segment is a value. -/
lemma segment_reaches {s t : Collection} {fresh name r} (so : s.Sorted fresh)
    (run : segment name s = .ok r t) :
    s.Reaches t fresh ∧ t.arena.isPointee? r.1 = some false := by
  rw [segment, bind_of_ok (get_run s)] at run
  obtain ⟨u, rfl | rfl, h⟩ := lookup_reaches so run rfl
    (fun mem => mem_tabled.2 (.inr (.inr (.inl ⟨_, mem⟩)))) (fun _ _ => rfl)
    fun mem => by simp [mem_tabled] at mem ⊢; tauto
  · exact h
  · exact h

/-- The variable of a literal is a value. -/
lemma literal_reaches {s t : Collection} {fresh position value width v} (so : s.Sorted fresh)
    (run : literal position value width s = .ok v t) :
    s.Reaches t fresh ∧ t.arena.isPointee? v = some false := by
  rw [literal] at run
  obtain ⟨u, m, made, run⟩ := bind_eq_ok.1 run
  obtain ⟨re, kind⟩ := newValue_reaches so made rfl
  obtain ⟨_, m', constrained, run⟩ := bind_eq_ok.1 run
  obtain ⟨rfl, rfl⟩ := pure_eq_ok.1 run
  have re' : m.Reaches m' fresh := by
    refine constrainValue_reaches re.sorted kind ?_ ?_ constrained
    · split <;> rfl
    · split <;> rfl
  exact ⟨re.trans re', re'.grows kind⟩

/-- The variable of an expression is a value. -/
lemma expression_reaches {s t : Collection} {fresh op v} (so : s.Sorted fresh)
    (run : expression op s = .ok v t) :
    s.Reaches t fresh ∧ t.arena.isPointee? v = some false :=
  newValue_reaches so run rfl

/-- Operands are values. -/
lemma operand_reaches {s t : Collection} {fresh position v} {this : Operand} (so : s.Sorted fresh)
    (run : operand position this s = .ok v t) :
    s.Reaches t fresh ∧ t.arena.isPointee? v = some false := by
  cases this with
  | storage name => exact storage_reaches so run
  | literal value width => exact literal_reaches so run
  | address place => exact address_reaches so run
  | result target =>
    rw [operand, bind_of_ok (get_run s)] at run
    cases found : s.results[target.toNat]? with
    | none => rw [found] at run; cases run
    | some entry =>
      rw [found] at run
      cases entry with
      | none => cases run
      | some u =>
        obtain ⟨rfl, rfl⟩ := pure_eq_ok.1 run
        refine ⟨so.refl, so.tables u (mem_tabled.2 (.inr (.inr (.inr ?_))))⟩
        exact Array.mem_of_getElem? found

/-- Arguments are values. -/
lemma operands_reaches {s t : Collection} {fresh position vs} {args : List Operand}
    (so : s.Sorted fresh) (run : args.mapM (operand position) s = .ok vs t) :
    s.Reaches t fresh ∧ ∀ v ∈ vs, t.arena.isPointee? v = some false := by
  induction args generalizing s vs with
  | nil =>
    rw [List.mapM_nil] at run
    obtain ⟨rfl, rfl⟩ := pure_eq_ok.1 run
    exact ⟨so.refl, by simp⟩
  | cons arg args ih =>
    rw [List.mapM_cons] at run
    obtain ⟨v, m, run₁, run⟩ := bind_eq_ok.1 run
    obtain ⟨ws, m', run₂, run⟩ := bind_eq_ok.1 run
    obtain ⟨rfl, rfl⟩ := pure_eq_ok.1 run
    obtain ⟨re, kind⟩ := operand_reaches so run₁
    obtain ⟨re', kinds⟩ := ih re.sorted run₂
    refine ⟨re.trans re', fun w mem => ?_⟩
    rcases List.mem_cons.1 mem with rfl | mem
    · exact re'.grows kind
    · exact kinds w mem

/-! ## Bases of accesses -/

/-- What the evidence on a value points into is a pointee. -/
lemma target_isPointee {a : Arena} {log fresh} (so : a.Sorted log fresh) {v t : VarId} {record}
    (found : a.classFor? v = some record) (target : record.target? = some t) :
    a.isPointee? t = some true := by
  obtain ⟨c, _, here⟩ := Option.bind_eq_some_iff.1 found
  obtain ⟨constraint, mem, points⟩ := List.exists_of_findSome?_eq_some target
  rw [(so.coherent.records here).constraints, Arena.mem_evidence] at mem
  refine so.mentions mem.1 ?_
  rw [Fact.target?_eq_some.1 points]
  exact List.mem_singleton_self _

/-- That a value points into a pointee keeps the collection sorted. -/
lemma pointsTo_reaches {s t : Collection} {fresh pointer position target} (so : s.Sorted fresh)
    (value : s.arena.isPointee? pointer = some false)
    (kind : s.arena.isPointee? target = some true)
    (run : constrain pointer position (.pointsTo target) s = .ok () t) : s.Reaches t fresh := by
  refine constrain_reaches so value (fun mention => ?_) run
  cases List.mem_singleton.1 mention
  exact kind

/-- What a value points into is a pointee, which may be new. -/
lemma pointee_reaches {s t : Collection} {fresh pointer position target} (so : s.Sorted fresh)
    (value : s.arena.isPointee? pointer = some false)
    (run : pointee pointer position s = .ok target t) :
    s.Reaches t (target :: fresh) ∧ t.arena.isPointee? target = some true := by
  rw [pointee] at run
  obtain ⟨record, m, held, run⟩ := bind_eq_ok.1 run
  obtain ⟨b, looked, rfl⟩ := onArena_eq_ok.1 held
  obtain ⟨found, rfl⟩ := ArenaM.classFor_eq_ok.1 looked
  cases known : record.target? with
  | some u =>
    simp only [known] at run
    obtain ⟨_, m, same, run⟩ := bind_eq_ok.1 run
    obtain ⟨rfl, rfl⟩ := pure_eq_ok.1 same
    obtain ⟨_, n, constrained, run⟩ := bind_eq_ok.1 run
    obtain ⟨rfl, rfl⟩ := pure_eq_ok.1 run
    -- the target is known from earlier evidence on the class, so it is a pointee already
    obtain ⟨log, sorted⟩ := so.arena
    have kind := target_isPointee sorted found known
    have re := pointsTo_reaches so value kind constrained
    exact ⟨re.mono fun _ mem => List.mem_cons_of_mem _ mem, re.grows kind⟩
  | none =>
    simp only [known] at run
    obtain ⟨u, m, made, run⟩ := bind_eq_ok.1 run
    obtain ⟨re, kind⟩ := newVariable_reaches so
      (by rintro p ⟨⟩; exact Arena.lt_of_isPointee? value) made
    obtain ⟨_, m', noted, run⟩ := bind_eq_ok.1 run
    cases noted
    have re : s.Reaches { m with pointees := m.pointees ++ [u] } (u :: fresh) :=
      re.table rfl fun _ mem => .inl mem
    obtain ⟨_, n, same, run⟩ := bind_eq_ok.1 run
    obtain ⟨rfl, rfl⟩ := pure_eq_ok.1 same
    obtain ⟨_, n, constrained, run⟩ := bind_eq_ok.1 run
    obtain ⟨rfl, rfl⟩ := pure_eq_ok.1 run
    have re' := pointsTo_reaches re.sorted (re.grows value) kind constrained
    exact ⟨re.trans re', re'.grows kind⟩

/-- What is accessed at a fixed address is a pointee. -/
lemma fixedBase_reaches {s t : Collection} {fresh memory position place offset r}
    (so : s.Sorted fresh) (run : fixedBase memory position place offset s = .ok r t) :
    s.Reaches t (r.1 :: fresh) ∧ t.arena.isPointee? r.1 = some true := by
  rw [fixedBase] at run
  split at run
  · cases run
  · obtain ⟨⟨pointer, new⟩, m, run₁, run⟩ := bind_eq_ok.1 run
    obtain ⟨re₁, value⟩ := segment_reaches so run₁
    obtain ⟨target, m', run₂, run⟩ := bind_eq_ok.1 run
    obtain ⟨re₂, kind⟩ := pointee_reaches re₁.sorted value run₂
    have re := re₁.trans re₂
    generalize (memory.locate (place + offset.toUInt64)).size = size at run
    match new, size, run with
    | true, some size, run =>
      obtain ⟨_, n, constrained, run⟩ := bind_eq_ok.1 run
      obtain ⟨rfl, rfl⟩ := pure_eq_ok.1 run
      have re₃ := constrain_reaches re₂.sorted kind (fun mention => by cases mention) constrained
      exact ⟨re.trans re₃, re₃.grows kind⟩
    | true, none, run | false, _, run =>
      obtain ⟨rfl, rfl⟩ := pure_eq_ok.1 run
      exact ⟨re, kind⟩

/-- What is accessed is a pointee. -/
lemma accessBase_reaches {s t : Collection} {fresh memory position offset r} {base : Operand}
    (so : s.Sorted fresh) (run : accessBase memory position base offset s = .ok r t) :
    s.Reaches t (r.1 :: fresh) ∧ t.arena.isPointee? r.1 = some true := by
  have through : ∀ {this : Operand}, (do
      let pointer ← operand position this
      return (← pointee pointer position, offset) : CollectM (VarId × Int64)) s = .ok r t →
      s.Reaches t (r.1 :: fresh) ∧ t.arena.isPointee? r.1 = some true := by
    intro this run
    obtain ⟨pointer, m, run₁, run⟩ := bind_eq_ok.1 run
    obtain ⟨target, n, run₂, run⟩ := bind_eq_ok.1 run
    obtain ⟨rfl, rfl⟩ := pure_eq_ok.1 run
    obtain ⟨re₁, value⟩ := operand_reaches so run₁
    obtain ⟨re₂, kind⟩ := pointee_reaches re₁.sorted value run₂
    exact ⟨re₁.trans re₂, kind⟩
  cases base with
  | address place => exact fixedBase_reaches so run
  | storage name => exact through run
  | literal value width => exact through run
  | result target => exact through run

/-! ## Operations -/

/-- What is accessed is fresh no more. -/
lemma access_reaches {s t : Collection} {target position fact} (so : s.Sorted [target])
    (kind : s.arena.isPointee? target = some true) (access : fact.isAccess = true)
    (mentions : ∀ {u kind}, (u, kind) ∈ fact.mentions → s.arena.isPointee? u = some kind)
    (run : constrain target position fact s = .ok () t) : s.Reaches t [] := by
  have re := constrain_reaches so (by rw [kind, Fact.isAboutPointee_of_isAccess access]) mentions
    run
  rwa [access, if_pos rfl, List.filter_cons_of_neg (by simp), List.filter_nil] at re

/-- A fact that mentions one value. -/
lemma mentions_value {a : Arena} {value : VarId} (kind : a.isPointee? value = some false) {u k}
    (mention : (u, k) ∈ [(value, false)]) : a.isPointee? u = some k := by
  cases List.mem_singleton.1 mention
  exact kind

/-- The signedness of an ordering, where there is one, is a fact about a value. -/
lemma ordering_reaches {s t : Collection} {fresh position v} {sign : Option Bool}
    (so : s.Sorted fresh) (value : s.arena.isPointee? v = some false)
    (run : (match sign with
      | some signed => constrain v position (.ordered signed)
      | none => pure () : CollectM Unit) s = .ok () t) : s.Reaches t fresh := by
  cases sign with
  | some signed => exact constrainValue_reaches so value rfl rfl run
  | none =>
    obtain ⟨_, rfl⟩ := pure_eq_ok.1 run
    exact so.refl

/-- What a comparison tells is about a value. -/
lemma comparedOperand_reaches {s t : Collection} {fresh position operator v} {this other : Operand}
    (so : s.Sorted fresh) (value : s.arena.isPointee? v = some false)
    (run : comparedOperand position operator v this other s = .ok () t) : s.Reaches t fresh := by
  rw [comparedOperand] at run
  split at run
  · obtain ⟨_, rfl⟩ := pure_eq_ok.1 run
    exact so.refl
  · cases other with
    | literal literal width =>
      obtain ⟨_, m, constrained, run⟩ := bind_eq_ok.1 run
      have re := constrainValue_reaches so value rfl rfl constrained
      exact re.trans (ordering_reaches re.sorted (re.grows value) run)
    | storage name => exact ordering_reaches so value run
    | address place => exact ordering_reaches so value run
    | result target => exact ordering_reaches so value run

/-- An operation is done: no pointee is fresh any more, and the result is a value. -/
structure Yields (s t : Collection) (r : Option VarId) : Prop where
  reaches : s.Reaches t []
  value : ∀ v ∈ r, t.arena.isPointee? v = some false

/-- An operation with a value as its result is done. -/
lemma Yields.of_value {s t : Collection} {v : VarId} (re : s.Reaches t [])
    (kind : t.arena.isPointee? v = some false) : Yields s t (some v) :=
  ⟨re, by rintro u ⟨⟩; exact kind⟩

section
variable {s t : Collection} {memory : MemoryMap} {op : Operation} {r : Option VarId}

/-- A copy yields a value. -/
lemma copy_yields {source : Operand} (so : s.Sorted []) (act : op.action = .copy source)
    (run : action memory op s = .ok r t) : Yields s t r := by
  rw [action, act] at run
  obtain ⟨u, s₁, run₁, run⟩ := bind_eq_ok.1 run
  obtain ⟨re₁, source⟩ := operand_reaches so run₁
  obtain ⟨v, s₂, run₂, run⟩ := bind_eq_ok.1 run
  obtain ⟨re₂, result⟩ := expression_reaches re₁.sorted run₂
  obtain ⟨_, s₃, run₃, run⟩ := bind_eq_ok.1 run
  have re₃ := unify_reaches re₂.sorted result (re₂.grows source) run₃
  obtain ⟨rfl, rfl⟩ := pure_eq_ok.1 run
  exact .of_value (re₁.trans (re₂.trans re₃)) (re₃.grows result)

/-- A load yields a value. -/
lemma load_yields {base offset width} (so : s.Sorted [])
    (act : op.action = .load base offset width) (run : action memory op s = .ok r t) :
    Yields s t r := by
  rw [action, act] at run
  obtain ⟨⟨u, place⟩, s₁, run₁, run⟩ := bind_eq_ok.1 run
  obtain ⟨re₁, target⟩ := accessBase_reaches so run₁
  obtain ⟨v, s₂, run₂, run⟩ := bind_eq_ok.1 run
  obtain ⟨re₂, result⟩ := expression_reaches re₁.sorted run₂
  obtain ⟨_, s₃, run₃, run⟩ := bind_eq_ok.1 run
  have re₃ := constrainValue_reaches re₂.sorted result rfl rfl run₃
  obtain ⟨_, s₄, run₄, run⟩ := bind_eq_ok.1 run
  have re₄ := access_reaches re₃.sorted (re₃.grows (re₂.grows target)) rfl
    (mentions_value (re₃.grows result)) run₄
  obtain ⟨rfl, rfl⟩ := pure_eq_ok.1 run
  exact .of_value (re₁.trans (re₂.trans (re₃.trans re₄))) (re₄.grows (re₃.grows result))

/-- A store yields nothing but keeps the collection sorted. -/
lemma store_yields {base offset width value} (so : s.Sorted [])
    (act : op.action = .store base offset width value) (run : action memory op s = .ok r t) :
    Yields s t r := by
  rw [action, act] at run
  obtain ⟨u, s₁, run₁, run⟩ := bind_eq_ok.1 run
  obtain ⟨re₁, written⟩ := operand_reaches so run₁
  obtain ⟨_, s₂, run₂, run⟩ := bind_eq_ok.1 run
  have re₂ := constrainValue_reaches re₁.sorted written rfl rfl run₂
  obtain ⟨⟨v, place⟩, s₃, run₃, run⟩ := bind_eq_ok.1 run
  obtain ⟨re₃, target⟩ := accessBase_reaches re₂.sorted run₃
  obtain ⟨_, s₄, run₄, run⟩ := bind_eq_ok.1 run
  have re₄ := access_reaches re₃.sorted target rfl
    (mentions_value (re₃.grows (re₂.grows written))) run₄
  obtain ⟨rfl, rfl⟩ := pure_eq_ok.1 run
  exact ⟨re₁.trans (re₂.trans (re₃.trans re₄)), by simp⟩

/-- An access to an element yields a value. -/
lemma index_yields {base subscript offset stride width} (so : s.Sorted [])
    (act : op.action = .index base subscript offset stride width)
    (run : action memory op s = .ok r t) : Yields s t r := by
  rw [action, act] at run
  obtain ⟨u, s₁, run₁, run⟩ := bind_eq_ok.1 run
  obtain ⟨re₁, counter⟩ := operand_reaches so run₁
  obtain ⟨_, s₂, run₂, run⟩ := bind_eq_ok.1 run
  have re₂ := constrainValue_reaches re₁.sorted counter rfl rfl run₂
  obtain ⟨⟨u, place⟩, s₃, run₃, run⟩ := bind_eq_ok.1 run
  obtain ⟨re₃, target⟩ := accessBase_reaches re₂.sorted run₃
  obtain ⟨v, s₄, run₄, run⟩ := bind_eq_ok.1 run
  obtain ⟨re₄, result⟩ := expression_reaches re₃.sorted run₄
  obtain ⟨_, s₅, run₅, run⟩ := bind_eq_ok.1 run
  have re₅ := constrainValue_reaches re₄.sorted result rfl rfl run₅
  obtain ⟨_, s₆, run₆, run⟩ := bind_eq_ok.1 run
  have re₆ := access_reaches re₅.sorted (re₅.grows (re₄.grows target)) rfl
    (mentions_value (re₅.grows result)) run₆
  obtain ⟨rfl, rfl⟩ := pure_eq_ok.1 run
  have re := re₁.trans (re₂.trans (re₃.trans (re₄.trans (re₅.trans re₆))))
  exact .of_value re (re₆.grows (re₅.grows result))

/-- An advance yields a value. -/
lemma advance_yields {direction moved step width} (so : s.Sorted [])
    (act : op.action = .advance direction moved step width)
    (run : action memory op s = .ok r t) : Yields s t r := by
  rw [action, act] at run
  obtain ⟨u, s₁, run₁, run⟩ := bind_eq_ok.1 run
  obtain ⟨re₁, moved⟩ := operand_reaches so run₁
  obtain ⟨v, s₂, run₂, run⟩ := bind_eq_ok.1 run
  obtain ⟨re₂, result⟩ := expression_reaches re₁.sorted run₂
  obtain ⟨_, s₃, run₃, run⟩ := bind_eq_ok.1 run
  have re₃ := unify_reaches re₂.sorted result (re₂.grows moved) run₃
  obtain ⟨_, s₄, run₄, run⟩ := bind_eq_ok.1 run
  have re₄ := constrainValue_reaches re₃.sorted (re₃.grows result) rfl rfl run₄
  obtain ⟨_, s₅, run₅, run⟩ := bind_eq_ok.1 run
  have result := re₄.grows (re₃.grows result)
  have re₅ := constrainValue_reaches re₄.sorted result rfl rfl run₅
  obtain ⟨rfl, rfl⟩ := pure_eq_ok.1 run
  exact .of_value (re₁.trans (re₂.trans (re₃.trans (re₄.trans re₅)))) (re₅.grows result)

/-- A comparison yields a value. -/
lemma compare_yields {operator lhs rhs} (so : s.Sorted [])
    (act : op.action = .compare operator lhs rhs) (run : action memory op s = .ok r t) :
    Yields s t r := by
  rw [action, act] at run
  obtain ⟨x, s₁, run₁, run⟩ := bind_eq_ok.1 run
  obtain ⟨re₁, left⟩ := operand_reaches so run₁
  obtain ⟨y, s₂, run₂, run⟩ := bind_eq_ok.1 run
  obtain ⟨re₂, right⟩ := operand_reaches re₁.sorted run₂
  obtain ⟨v, s₃, run₃, run⟩ := bind_eq_ok.1 run
  obtain ⟨re₃, result⟩ := expression_reaches re₂.sorted run₃
  obtain ⟨_, s₄, run₄, run⟩ := bind_eq_ok.1 run
  have re₄ := constrainValue_reaches re₃.sorted result rfl rfl run₄
  obtain ⟨_, s₅, run₅, run⟩ := bind_eq_ok.1 run
  have left := re₄.grows (re₃.grows (re₂.grows left))
  have re₅ := comparedOperand_reaches re₄.sorted left run₅
  obtain ⟨_, s₆, run₆, run⟩ := bind_eq_ok.1 run
  have right := re₅.grows (re₄.grows (re₃.grows right))
  have re₆ := comparedOperand_reaches re₅.sorted right run₆
  obtain ⟨rfl, rfl⟩ := pure_eq_ok.1 run
  have re := re₁.trans (re₂.trans (re₃.trans (re₄.trans (re₅.trans re₆))))
  exact .of_value re (re₆.grows (re₅.grows (re₄.grows result)))

/-- A fact about a value that is left out on a condition, and what comes after it. -/
lemma constrainUnless_reaches {α : Type} {m n : Collection} {fresh v position fact}
    {condition : Bool} {next : Unit → CollectM α} {q : α} (so : m.Sorted fresh)
    (value : m.arena.isPointee? v = some false) (about : fact.isAboutPointee = false)
    (mentions : fact.mentions = [])
    (run : (if condition = true then next () else
      constrain v position fact >>= next : CollectM α) m = .ok q n) :
    ∃ m', m.Reaches m' fresh ∧ next () m' = .ok q n := by
  cases condition with
  | true => exact ⟨m, so.refl, run⟩
  | false =>
    obtain ⟨_, m', constrained, run⟩ := bind_eq_ok.1 run
    exact ⟨m', constrainValue_reaches so value about mentions constrained, run⟩

/-- An operation on bits yields a value. -/
lemma bitwise_yields {operator lhs rhs width} (so : s.Sorted [])
    (act : op.action = .bitwise operator lhs rhs width) (run : action memory op s = .ok r t) :
    Yields s t r := by
  rw [action, act] at run
  obtain ⟨x, s₁, run₁, run⟩ := bind_eq_ok.1 run
  obtain ⟨re₁, left⟩ := operand_reaches so run₁
  obtain ⟨y, s₂, run₂, run⟩ := bind_eq_ok.1 run
  obtain ⟨re₂, right⟩ := operand_reaches re₁.sorted run₂
  obtain ⟨v, s₃, run₃, run⟩ := bind_eq_ok.1 run
  obtain ⟨re₃, result⟩ := expression_reaches re₂.sorted run₃
  obtain ⟨_, s₄, run₄, run⟩ := bind_eq_ok.1 run
  have re₄ := constrainValue_reaches re₃.sorted result rfl rfl run₄
  have left := re₄.grows (re₃.grows (re₂.grows left))
  obtain ⟨s₅, re₅, run⟩ := constrainUnless_reaches re₄.sorted left rfl rfl run
  have right := re₅.grows (re₄.grows (re₃.grows right))
  obtain ⟨s₆, re₆, run⟩ := constrainUnless_reaches re₅.sorted right rfl rfl run
  obtain ⟨rfl, rfl⟩ := pure_eq_ok.1 run
  have re := re₁.trans (re₂.trans (re₃.trans (re₄.trans (re₅.trans re₆))))
  exact .of_value re (re₆.grows (re₅.grows (re₄.grows result)))

/-- A call yields a value, or nothing. -/
lemma call_yields {callee args resultUsed} (so : s.Sorted [])
    (act : op.action = .call callee args resultUsed) (run : action memory op s = .ok r t) :
    Yields s t r := by
  rw [action, act] at run
  obtain ⟨u, s₁, run₁, run⟩ := bind_eq_ok.1 run
  obtain ⟨re₁, pointer⟩ := operand_reaches so run₁
  obtain ⟨code, s₂, run₂, run⟩ := bind_eq_ok.1 run
  obtain ⟨re₂, target⟩ := pointee_reaches re₁.sorted pointer run₂
  obtain ⟨vs, s₃, run₃, run⟩ := bind_eq_ok.1 run
  obtain ⟨re₃, passed⟩ := operands_reaches re₂.sorted run₃
  obtain ⟨v, s₄, run₄, run⟩ := bind_eq_ok.1 run
  obtain ⟨re₄, result⟩ := expression_reaches re₃.sorted run₄
  obtain ⟨_, s₅, run₅, run⟩ := bind_eq_ok.1 run
  have mentions : ∀ {w kind}, (w, kind) ∈
      (Fact.callSite ⟨vs, if resultUsed then some v else none⟩).mentions →
      s₄.arena.isPointee? w = some kind := by
    intro w kind mention
    obtain ⟨_, mem, e⟩ := List.mem_map.1 mention
    cases e
    rcases List.mem_append.1 mem with mem | mem
    · exact re₄.grows (passed w mem)
    · split at mem
      · cases List.mem_singleton.1 mem
        exact result
      · simp at mem
  have re₅ := access_reaches re₄.sorted (re₄.grows (re₃.grows target)) rfl mentions run₅
  obtain ⟨rfl, rfl⟩ := pure_eq_ok.1 run
  exact .of_value (re₁.trans (re₂.trans (re₃.trans (re₄.trans re₅)))) (re₅.grows result)

/-- Every action keeps the collection sorted. -/
lemma action_yields (so : s.Sorted []) (run : action memory op s = .ok r t) : Yields s t r := by
  cases act : op.action with
  | literal value width =>
    rw [action, act] at run
    obtain ⟨v, s₁, run₁, run⟩ := bind_eq_ok.1 run
    obtain ⟨re, kind⟩ := literal_reaches so run₁
    obtain ⟨rfl, rfl⟩ := pure_eq_ok.1 run
    exact .of_value re kind
  | copy source => exact copy_yields so act run
  | load base offset width => exact load_yields so act run
  | store base offset width value => exact store_yields so act run
  | index base subscript offset stride width => exact index_yields so act run
  | advance direction moved step width => exact advance_yields so act run
  | compare operator lhs rhs => exact compare_yields so act run
  | bitwise operator lhs rhs width => exact bitwise_yields so act run
  | call callee args resultUsed => exact call_yields so act run

/-- The result of an operation is noted. -/
lemma note_reaches {m : Collection} (re : s.Reaches m [])
    (value : ∀ v ∈ r, m.arena.isPointee? v = some false)
    (run : (modify fun m => { m with results := m.results.push r } : CollectM Unit) m = .ok () t) :
    s.Reaches t [] := by
  cases run
  refine re.table rfl fun w mem => ?_
  simp only [mem_tabled, Array.mem_push] at mem ⊢
  rcases mem with h | h | h | h | h
  · exact .inl (.inl h)
  · exact .inl (.inr (.inl h))
  · exact .inl (.inr (.inr (.inl h)))
  · exact .inl (.inr (.inr (.inr h)))
  · exact .inr (value w h.symm)

/-- Every operation keeps the collection sorted. -/
lemma operation_reaches (so : s.Sorted []) (run : operation memory op s = .ok () t) :
    s.Reaches t [] := by
  rw [operation] at run
  obtain ⟨r, s₁, run₁, run⟩ := bind_eq_ok.1 run
  obtain ⟨re, value⟩ := action_yields so run₁
  match op.destination, r, value, run with
  | some name, some u, value, run =>
    obtain ⟨v, s₂, run₂, run⟩ := bind_eq_ok.1 run
    obtain ⟨re₂, kind⟩ := storage_reaches re.sorted run₂
    obtain ⟨_, s₃, run₃, run⟩ := bind_eq_ok.1 run
    have re₃ := unify_reaches re₂.sorted kind (re₂.grows (value u rfl)) run₃
    -- the storage that takes the result is a value as well, so the merge is one of values
    refine note_reaches (re.trans (re₂.trans re₃)) (fun w mem => ?_) run
    exact re₃.grows (re₂.grows (value w mem))
  | some name, none, value, run | none, _, value, run =>
    exact note_reaches re value run

end

/-- The collection of a trace is sorted. -/
lemma trace_reaches {s t : Collection} {memory : MemoryMap} {operations : List Operation}
    (so : s.Sorted []) (run : operations.forM (operation memory) s = .ok () t) :
    s.Reaches t [] := by
  induction operations generalizing s with
  | nil =>
    obtain ⟨_, rfl⟩ := pure_eq_ok.1 run
    exact so.refl
  | cons op operations ih =>
    obtain ⟨_, m, run₁, run⟩ := bind_eq_ok.1 run
    have re := operation_reaches so run₁
    exact re.trans (ih re.sorted run)

end CollectM

end TypeRecovery
