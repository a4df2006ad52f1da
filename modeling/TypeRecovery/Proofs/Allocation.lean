import TypeRecovery.Proofs.Arena.Calls
import TypeRecovery.Proofs.Ingestion
import TypeRecovery.Proofs.Requests
import TypeRecovery.Proofs.Totality
import TypeRecovery.Trace.Builder

/-!
# Allocation of variables

Collecting grants what the operations of a trace request, and nothing else but variables for what
pointers point into (`CollectM.trace_requests`). Such a variable has a higher number than the
pointer that it was made for, and there is evidence that the pointer points into it (`Arena.Owned`).
What the variables of a trace were made for is then read off the requests.
-/

namespace TypeRecovery

/-! ## Owners -/

namespace Arena

/-- What was made for a pointer to point into has a higher number than the pointer, and there is
evidence that the pointer points into it. -/
structure Owned (a : Arena) (log : List Constraint) : Prop where
  coherent : a.Coherent log
  pointees : ∀ {v p : VarId}, a.sites[v.index]? = some (.pointee p) →
    p.index < v.index ∧ ∃ c ∈ log, c.subject = p ∧ c.fact = .pointsTo v

section
variable {a b : Arena} {log : List Constraint}

/-- In the empty arena there is nothing to own. -/
lemma empty_owned : Arena.empty.Owned [] where
  coherent := empty_coherent
  pointees here := by cases here

/-- Only a new variable is a new use. -/
lemma Effect.sites {call : Call} (eff : a.Effect call b) (grows : ∀ site, call ≠ .newVariable site)
    (keeps : call ≠ .reset) : b.sites = a.sites := by
  cases eff with
  | compresses _ cp => rw [Arena.sites, cp.retouches.store, Arena.sites]
  | allocates => exact absurd rfl (grows _)
  | merges _ _ _ mg => rw [Arena.sites, mg.store, Arena.sites]
  | constrains _ _ e _ =>
    subst e
    exact ArenaM.sites_storeWith ..
  | judges _ cp => exact congrArg (·.toList.map Variable.site) cp.retouches.store
  | finalizes cp => exact congrArg (·.toList.map Variable.site) cp.retouches.store
  | finalizesAll => rfl
  | resets => exact absurd rfl keeps

/-- More evidence adds one entry to the log and leaves all uses as they are. -/
lemma Coherent.of_constrain (co : a.Coherent log) {v : VarId} {position : Nat} {fact : Fact}
    (run : ArenaM.constrain v position fact a = .ok () b) :
    b.sites = a.sites ∧ b.Coherent (log ++ [⟨position, a.nextSeq, v, fact⟩]) := by
  have effect := co.effect_constrain v position fact
  rw [run] at effect
  refine ⟨effect.sites (fun _ => by simp) (by simp), ?_⟩
  have coherent := effect.coherent co
  simp only [Call.logAfter, run] at coherent
  exact coherent

/-- More evidence leaves owners as they are. -/
lemma Owned.constrain (ow : a.Owned log) {v : VarId} {position : Nat} {fact : Fact}
    (run : ArenaM.constrain v position fact a = .ok () b) :
    b.sites = a.sites ∧ ∃ log, b.Owned log := by
  obtain ⟨sites, coherent⟩ := ow.coherent.of_constrain run
  refine ⟨sites, _, coherent, fun here => ?_⟩
  obtain ⟨lt, c, mem, told⟩ := ow.pointees (sites ▸ here)
  exact ⟨lt, c, List.mem_append_left _ mem, told⟩

/-- Uniting classes leaves owners as they are. -/
lemma Owned.unify (ow : a.Owned log) {x y : VarId} {c : ClassId}
    (run : ArenaM.unify x y a = .ok c b) : b.sites = a.sites ∧ b.Owned log := by
  have effect := ow.coherent.effect_unify x y
  rw [run] at effect
  have sites := effect.sites (fun _ => by simp) (by simp)
  exact ⟨sites, effect.coherent ow.coherent, fun here => ow.pointees (sites ▸ here)⟩

/-- A variable for a value. -/
lemma Owned.addValue (ow : a.Owned log) {site : UseSite} (value : site.isPointee = false) :
    (a.addVariable site).Owned log where
  coherent := ow.coherent.addVariable site
  pointees {v p} here := by
    rw [sites_addVariable, List.getElem?_append] at here
    split at here
    · exact ow.pointees here
    · have last := List.mem_singleton.1 (List.mem_of_getElem? here)
      rw [← last] at value
      cases value

/-- A variable for what a pointer points into, together with the evidence for it. -/
lemma Owned.addPointee (ow : a.Owned log) {p : VarId} {position : Nat} (lt : p.index < a.size)
    (run : ArenaM.constrain p position (.pointsTo a.store.next) (a.addVariable (.pointee p)) =
      .ok () b) :
    b.sites = a.sites ++ [.pointee p] ∧ ∃ log, b.Owned log := by
  obtain ⟨sites, coherent⟩ := (ow.coherent.addVariable (.pointee p)).of_constrain run
  rw [sites_addVariable] at sites
  refine ⟨sites, _, coherent, fun {v q} here => ?_⟩
  rw [sites, List.getElem?_append] at here
  split at here
  · obtain ⟨le, c, mem, told⟩ := ow.pointees here
    exact ⟨le, c, List.mem_append_left _ mem, told⟩
  · rename_i beyond
    obtain ⟨rfl, e⟩ := Script.eq_next (Nat.le_of_not_lt beyond) here
    cases e
    rw [length_sites]
    exact ⟨lt, _, List.mem_append_right _ List.mem_cons_self, rfl, rfl⟩

end

end Arena

/-! ## Collecting grants what is requested -/

namespace Collection

/-- The uses of values that have variables. -/
def uses (s : Collection) : List UseSite :=
  s.arena.sites.filter fun site => !site.isPointee

/-- A table has an entry for a key exactly if the use under that key has a variable. -/
def Indexes {κ : Type} [DecidableEq κ] (table : List (κ × VarId)) (site : κ → UseSite)
    (uses : List UseSite) : Prop :=
  ∀ key, table.lookup key = none ↔ site key ∉ uses

section
variable {κ : Type} [DecidableEq κ] {table : List (κ × VarId)} {site : κ → UseSite}
  {uses new : List UseSite}

/-- A table still indexes its uses when uses of another kind are added. -/
lemma Indexes.grow (ix : Indexes table site uses) (others : ∀ key, site key ∉ new) :
    Indexes table site (uses ++ new) := by
  intro key
  rw [ix key, List.mem_append, not_or, and_iff_left (others key)]

/-- A table with a new entry indexes one more use. -/
lemma Indexes.enter (ix : Indexes table site uses) (inj : ∀ {k l}, site k = site l → k = l)
    {key : κ} (new : table.lookup key = none) (v : VarId) :
    Indexes (table ++ [(key, v)]) site (uses ++ [site key]) := by
  intro other
  rw [lookup_snoc new, List.mem_append, List.mem_singleton, not_or]
  by_cases e : other = key
  · simp [e]
  · rw [if_neg e, ix other, and_iff_left fun same => e (inj same)]

end

/-- The tables index the shared uses, and pointers own what was made for them to point into. -/
structure Listed (s : Collection) : Prop where
  storage : Indexes s.storage .storage s.uses
  addresses : Indexes s.addresses .address s.uses
  segments : Indexes s.segments .segment s.uses
  owned : ∃ log, s.arena.Owned log

/-- At the start there are no uses and the tables are empty. -/
lemma start_listed : (start .empty).Listed where
  storage _ := iff_of_true rfl List.not_mem_nil
  addresses _ := iff_of_true rfl List.not_mem_nil
  segments _ := iff_of_true rfl List.not_mem_nil
  owned := ⟨[], Arena.empty_owned⟩

section
variable {s : Collection}

/-- The uses of values depend on what variables were made for, and on nothing else. -/
lemma uses_of_sites {t : Collection} (sites : t.arena.sites = s.arena.sites) : t.uses = s.uses := by
  rw [uses, sites, uses]

/-- A variable for a value adds one use. -/
lemma uses_of_concat {t : Collection} {site : UseSite} (value : site.isPointee = false)
    (sites : t.arena.sites = s.arena.sites ++ [site]) : t.uses = s.uses ++ [site] := by
  rw [uses, sites, List.filter_append, uses]
  simp [value]

/-- A use of a value has a variable if some variable was made for it. -/
lemma mem_uses {site : UseSite} (value : site.isPointee = false) :
    site ∈ s.uses ↔ site ∈ s.arena.sites := by
  simp [uses, value]

/-- Shared uses are uses of values. -/
lemma filter_isShared_uses :
    s.uses.filter UseSite.isShared = s.arena.sites.filter UseSite.isShared := by
  rw [uses, List.filter_filter]
  refine List.filter_congr fun site _ => ?_
  cases site <;> rfl

/-- What is read off the uses of values is read off all uses, if pointees say nothing. -/
lemma filterMap_uses {β : Type} {f : UseSite → Option β} (none : ∀ p, f (.pointee p) = none) :
    s.uses.filterMap f = s.arena.sites.filterMap f := by
  rw [uses, List.filterMap_filter]
  refine List.filterMap_congr fun site _ => ?_
  cases site <;> simp [UseSite.isPointee, none]

/-- The arena grows by uses that are not shared. -/
lemma Listed.withArena (li : s.Listed) {b : Arena} {new : List UseSite}
    (grown : uses { s with arena := b } = s.uses ++ new)
    (own : ∀ site ∈ new, site.isShared = false) (owned : ∃ log, b.Owned log) :
    Listed { s with arena := b } := by
  have unlisted : ∀ {site : UseSite}, site.isShared = true → site ∉ new := by
    intro site shared mem
    rw [own site mem] at shared
    cases shared
  refine ⟨?_, ?_, ?_, owned⟩
  · rw [grown]
    exact li.storage.grow fun _ => unlisted rfl
  · rw [grown]
    exact li.addresses.grow fun _ => unlisted rfl
  · rw [grown]
    exact li.segments.grow fun _ => unlisted rfl

end

end Collection

namespace CollectM

open Collection

/-- A step that succeeds keeps the tables listed and grants the given uses. -/
def Requests {α : Type} (x : CollectM α) (sites : List UseSite) : Prop :=
  ∀ s q t, s.Listed → x s = .ok q t → t.Listed ∧ t.uses = sites.foldl UseSite.grant s.uses

namespace Requests

variable {α β : Type} {x : CollectM α} {f : α → CollectM β} {sites more : List UseSite}

/-- Requests are the same if the lists of uses are. -/
lemma of_eq (rq : Requests x sites) (e : sites = more) : Requests x more :=
  e ▸ rq

/-- An answer that is known requests nothing. -/
lemma pure (q : α) : Requests (pure q) [] := by
  intro s r t li run
  obtain ⟨_, rfl⟩ := pure_eq_ok.1 run
  exact ⟨li, rfl⟩

/-- A look at the state requests nothing. -/
lemma get : Requests get [] := by
  intro s r t li run
  cases run
  exact ⟨li, rfl⟩

/-- A step that fails is free to request anything. -/
lemma throw (e : AnalysisError) (sites : List UseSite) : Requests (throw e : CollectM α) sites := by
  intro s r t li run
  cases run

/-- Two steps in a row request what the first one does and then what the second one does. -/
lemma bind (first : Requests x sites) (next : ∀ q, Requests (f q) more) :
    Requests (x >>= f) (sites ++ more) := by
  intro s r t li run
  obtain ⟨q, m, run₁, run₂⟩ := bind_eq_ok.1 run
  obtain ⟨li₁, uses₁⟩ := first s q m li run₁
  obtain ⟨li₂, uses₂⟩ := next q m r t li₁ run₂
  exact ⟨li₂, by rw [uses₂, uses₁, List.foldl_append]⟩

/-- A step for each member of a list requests what the steps do, in order. -/
lemma mapM {γ : Type} {step : γ → CollectM α} {requests : γ → List UseSite}
    (each : ∀ c, Requests (step c) (requests c)) (l : List γ) :
    Requests (l.mapM step) (l.flatMap requests) := by
  induction l with
  | nil => exact pure []
  | cons c l ih =>
    rw [List.mapM_cons, List.flatMap_cons]
    refine (each c).bind fun _ => ?_
    exact (ih.bind fun _ => pure _).of_eq (List.append_nil _)

/-- A step without an answer for each member of a list requests what the steps do, in order. -/
lemma forM {γ : Type} {step : γ → CollectM PUnit} {requests : γ → List UseSite} {l : List γ}
    (each : ∀ c, Requests (step c) (requests c)) : Requests (l.forM step) (l.flatMap requests) := by
  induction l with
  | nil => exact pure _
  | cons c l ih =>
    rw [List.flatMap_cons]
    exact (each c).bind fun _ => ih

/-- A step on the arena that makes no variables. -/
lemma onArena {y : ArenaM α} (keeps : ∀ {a b q log}, Arena.Owned a log → y a = .ok q b →
    b.sites = a.sites ∧ ∃ log, b.Owned log) : Requests (onArena y) [] := by
  intro s q t li run
  obtain ⟨b, ran, rfl⟩ := onArena_eq_ok.1 run
  obtain ⟨log, ow⟩ := li.owned
  obtain ⟨sites, owned⟩ := keeps ow ran
  have uses : uses { s with arena := b } = s.uses := uses_of_sites sites
  exact ⟨li.withArena (uses.trans (List.append_nil _).symm) (by simp) owned, uses⟩

end Requests

/-- Evidence requests nothing. -/
lemma constrain_requests (v : VarId) (position : Nat) (fact : Fact) :
    Requests (constrain v position fact) [] :=
  .onArena fun ow run => ow.constrain run

/-- Uniting classes requests nothing. -/
lemma unify_requests (x y : VarId) : Requests (unify x y) [] :=
  Requests.bind
    (.onArena fun ow run => ⟨(ow.unify run).1, _, (ow.unify run).2⟩) fun _ => .pure _

/-- A variable for a use that is not shared. -/
lemma newVariable_requests {site : UseSite} (own : site.isShared = false)
    (value : site.isPointee = false) : Requests (newVariable site) [site] := by
  intro s v t li run
  obtain ⟨b, made, rfl⟩ := onArena_eq_ok.1 run
  cases made
  obtain ⟨log, ow⟩ := li.owned
  have uses : uses { s with arena := s.arena.addVariable site } = s.uses ++ [site] :=
    uses_of_concat value (Arena.sites_addVariable ..)
  refine ⟨li.withArena uses (by simp [own]) ⟨log, ow.addValue value⟩, ?_⟩
  rw [uses, List.foldl_cons, List.foldl_nil, UseSite.grant, if_neg]
  simp [own]

/-- The variable of an expression is requested once. -/
lemma expression_requests (op : Operation) :
    Requests (expression op) [.expression op.position op.action.text] :=
  newVariable_requests rfl rfl

/-- The variable of a literal is requested once. -/
lemma literal_requests (position : Nat) (value : Int64) (width : UInt8) :
    Requests (literal position value width) [.literal position value] :=
  (newVariable_requests rfl rfl).bind fun _ => (constrain_requests _ _ _).bind fun _ => .pure _

/-- A shared use that is looked up in a table, or gets a variable that is noted in the table. -/
lemma lookup_requests {κ β : Type} [BEq κ] {table : List (κ × VarId)} {key : κ} {site : UseSite}
    {note : VarId → Collection → Collection} {old new : VarId → β} {s t : Collection} {r : β}
    (run : (match table.lookup key with
      | some v => pure (old v)
      | none => do
        let v ← newVariable site
        modify (note v)
        return new v : CollectM β) s = .ok r t)
    (li : s.Listed) (shared : site.isShared = true) (value : site.isPointee = false)
    (listed : table.lookup key = none ↔ site ∉ s.uses) (arena : ∀ v m, (note v m).arena = m.arena)
    (noted : table.lookup key = none → ∀ v,
      (note v { s with arena := s.arena.addVariable site }).uses = s.uses ++ [site] →
      (note v { s with arena := s.arena.addVariable site }).Listed) :
    t.Listed ∧ t.uses = [site].foldl UseSite.grant s.uses := by
  rw [List.foldl_cons, List.foldl_nil, UseSite.grant]
  cases found : table.lookup key with
  | some v =>
    rw [found] at run listed
    obtain ⟨_, rfl⟩ := pure_eq_ok.1 run
    have there : site ∈ s.uses := by
      by_contra absent
      cases listed.2 absent
    rw [if_pos ⟨shared, there⟩]
    exact ⟨li, rfl⟩
  | none =>
    rw [found] at run
    obtain ⟨v, m, made, run⟩ := bind_eq_ok.1 run
    obtain ⟨b, made, rfl⟩ := onArena_eq_ok.1 made
    cases made
    cases run
    have grown : (note s.arena.store.next { s with arena := s.arena.addVariable site }).uses =
        s.uses ++ [site] :=
      uses_of_concat value (by rw [arena, Arena.sites_addVariable])
    rw [if_neg fun there => listed.1 found there.2]
    exact ⟨noted found _ grown, grown⟩

/-- A name of storage is requested once. -/
lemma storage_requests (name : String) : Requests (storage name) [.storage name] := by
  intro s v t li run
  rw [storage, bind_of_ok (get_run s)] at run
  refine lookup_requests run li rfl rfl (li.storage name) (fun _ _ => rfl) fun new v grown => ?_
  obtain ⟨log, ow⟩ := li.owned
  refine ⟨?_, ?_, ?_, log, ow.addValue rfl⟩
  · rw [grown]
    exact li.storage.enter UseSite.storage.inj new v
  · rw [grown]
    exact li.addresses.grow (by simp)
  · rw [grown]
    exact li.segments.grow (by simp)

/-- A fixed address is requested once. -/
lemma address_requests (place : UInt64) : Requests (address place) [.address place] := by
  intro s v t li run
  rw [address, bind_of_ok (get_run s)] at run
  refine lookup_requests run li rfl rfl (li.addresses place) (fun _ _ => rfl) fun new v grown => ?_
  obtain ⟨log, ow⟩ := li.owned
  refine ⟨?_, ?_, ?_, log, ow.addValue rfl⟩
  · rw [grown]
    exact li.storage.grow (by simp)
  · rw [grown]
    exact li.addresses.enter UseSite.address.inj new v
  · rw [grown]
    exact li.segments.grow (by simp)

/-- A segment is requested once. -/
lemma segment_requests (name : String) : Requests (segment name) [.segment name] := by
  intro s v t li run
  rw [segment, bind_of_ok (get_run s)] at run
  refine lookup_requests run li rfl rfl (li.segments name) (fun _ _ => rfl) fun new v grown => ?_
  obtain ⟨log, ow⟩ := li.owned
  refine ⟨?_, ?_, ?_, log, ow.addValue rfl⟩
  · rw [grown]
    exact li.storage.grow (by simp)
  · rw [grown]
    exact li.addresses.grow (by simp)
  · rw [grown]
    exact li.segments.enter UseSite.segment.inj new v

/-- An operand requests the uses that it is, as a value. -/
lemma operand_requests (position : Nat) (operand : Operand) :
    Requests (CollectM.operand position operand) (operand.requests position) := by
  cases operand with
  | storage name => exact storage_requests name
  | literal value width => exact literal_requests position value width
  | address place => exact address_requests place
  | result target =>
    refine Requests.get.bind fun s => ?_
    split
    · exact .pure _
    · exact .throw _ _

/-- A variable for what a pointer points into is no use of a value. -/
lemma pointee_requests (pointer : VarId) (position : Nat) :
    Requests (pointee pointer position) [] := by
  intro s target t li run
  rw [pointee] at run
  obtain ⟨record, m, held, run⟩ := bind_eq_ok.1 run
  obtain ⟨b, looked, rfl⟩ := onArena_eq_ok.1 held
  obtain ⟨found, rfl⟩ := ArenaM.classFor_eq_ok.1 looked
  cases known : record.target? with
  | some u =>
    simp only [known] at run
    have known_requests := (constrain_requests pointer position (.pointsTo u)).bind fun _ =>
      .pure u
    exact known_requests s target t li run
  | none =>
    simp only [known] at run
    obtain ⟨v, m, made, run⟩ := bind_eq_ok.1 run
    obtain ⟨b, made, rfl⟩ := onArena_eq_ok.1 made
    cases made
    obtain ⟨_, m, noted, run⟩ := bind_eq_ok.1 run
    cases noted
    obtain ⟨_, m, same, run⟩ := bind_eq_ok.1 run
    obtain ⟨rfl, rfl⟩ := pure_eq_ok.1 same
    obtain ⟨_, m, constrained, run⟩ := bind_eq_ok.1 run
    obtain ⟨rfl, rfl⟩ := pure_eq_ok.1 run
    obtain ⟨b, added, rfl⟩ := onArena_eq_ok.1 constrained
    -- the variable comes with the evidence for it, so that the pointer owns it from the start
    obtain ⟨log, ow⟩ := li.owned
    obtain ⟨c, holds, _⟩ := Option.bind_eq_some_iff.1 found
    obtain ⟨sites, owned⟩ := ow.addPointee (ow.coherent.classOf?_eq_some.1 holds).1 added
    have kept : uses { s with arena := b } = s.uses := by
      rw [uses, sites, List.filter_append, uses]
      exact List.append_nil _
    have listed := li.withArena (kept.trans (List.append_nil _).symm) (by simp) owned
    exact ⟨⟨listed.storage, listed.addresses, listed.segments, listed.owned⟩, kept⟩

/-- A fixed address as a base requests the segment that the access goes to. -/
lemma fixedBase_requests (memory : MemoryMap) (position : Nat) (place : UInt64) (offset : Int64) :
    Requests (fixedBase memory position place offset)
      [.segment (memory.locate (place + offset.toUInt64)).segment] := by
  rw [fixedBase]
  split
  · exact .throw _ _
  · refine (segment_requests _).bind fun found => (pointee_requests _ _).bind fun target => ?_
    split
    · exact (constrain_requests _ _ _).bind fun _ => .pure _
    · exact .pure _

/-- The base of an access requests the uses that it is, as a base. -/
lemma accessBase_requests (memory : MemoryMap) (position : Nat) (base : Operand) (offset : Int64) :
    Requests (accessBase memory position base offset)
      (base.baseRequests memory position offset) := by
  have through : ∀ this : Operand, Requests (do
      let pointer ← operand position this
      return (← pointee pointer position, offset)) (this.requests position) := by
    intro this
    refine ((operand_requests position this).bind fun _ => ?_).of_eq (List.append_nil _)
    exact (pointee_requests _ _).bind fun _ => .pure _
  cases base with
  | address place => exact fixedBase_requests memory position place offset
  | storage name => exact through _
  | literal value width => exact through _
  | result target => exact through _

/-- Evidence on order requests nothing. -/
lemma ordering_requests (v : VarId) (position : Nat) (sign : Option Bool) :
    Requests (match sign with
      | some signed => constrain v position (.ordered signed)
      | none => pure ()) [] := by
  cases sign with
  | some signed => exact constrain_requests _ _ _
  | none => exact .pure _

/-- What is noted on an operand of a comparison requests nothing. -/
lemma comparedOperand_requests (position : Nat) (operator : Comparison) (v : VarId)
    (this other : Operand) : Requests (comparedOperand position operator v this other) [] := by
  have ordered := ordering_requests v position operator.signed?
  rw [comparedOperand]
  split
  · exact .pure _
  · cases other with
    | literal value width => exact (constrain_requests _ _ _).bind fun _ => ordered
    | _ => exact ordered

/-- Evidence that is left out on a condition requests nothing. -/
lemma constrainUnless_requests {α : Type} {v : VarId} {position : Nat} {fact : Fact}
    {condition : Bool} {next : Unit → CollectM α} (rest : ∀ r, Requests (next r) []) :
    Requests (if condition = true then next () else constrain v position fact >>= next) [] := by
  split
  · exact rest ()
  · exact (constrain_requests v position fact).bind rest

/-- An action requests variables for its values, then for its base, then for its result. -/
lemma action_requests (memory : MemoryMap) (op : Operation) :
    Requests (action memory op) (op.action.values.flatMap (Operand.requests op.position) ++
      op.action.base?.toList.flatMap
        (fun access => access.1.baseRequests memory op.position access.2) ++
      (op.action.result? op.position).toList) := by
  have own := expression_requests op
  obtain ⟨position, address, act, destination⟩ := op
  cases act with
  | literal value width => exact (literal_requests _ _ _).bind fun _ => .pure _
  | copy source =>
    refine ((operand_requests _ source).bind fun _ => own.bind fun _ =>
      (unify_requests _ _).bind fun _ => .pure _).of_eq ?_
    simp [Action.values, Action.base?, Action.result?]
  | load base offset width =>
    refine ((accessBase_requests memory _ base offset).bind fun _ => own.bind fun _ =>
      (constrain_requests _ _ _).bind fun _ => (constrain_requests _ _ _).bind fun _ =>
      .pure _).of_eq ?_
    simp [Action.values, Action.base?, Action.result?]
  | store base offset width value =>
    refine ((operand_requests _ value).bind fun _ => (constrain_requests _ _ _).bind fun _ =>
      (accessBase_requests memory _ base offset).bind fun _ =>
      (constrain_requests _ _ _).bind fun _ => .pure _).of_eq ?_
    simp [Action.values, Action.base?, Action.result?]
  | index base subscript offset stride width =>
    refine ((operand_requests _ subscript).bind fun _ => (constrain_requests _ _ _).bind fun _ =>
      (accessBase_requests memory _ base offset).bind fun _ => own.bind fun _ =>
      (constrain_requests _ _ _).bind fun _ => (constrain_requests _ _ _).bind fun _ =>
      .pure _).of_eq ?_
    simp [Action.values, Action.base?, Action.result?]
  | advance direction moved step width =>
    refine ((operand_requests _ moved).bind fun _ => own.bind fun _ =>
      (unify_requests _ _).bind fun _ => (constrain_requests _ _ _).bind fun _ =>
      (constrain_requests _ _ _).bind fun _ => .pure _).of_eq ?_
    simp [Action.values, Action.base?, Action.result?]
  | compare operator lhs rhs =>
    refine ((operand_requests _ lhs).bind fun _ => (operand_requests _ rhs).bind fun _ =>
      own.bind fun _ => (constrain_requests _ _ _).bind fun _ =>
      (comparedOperand_requests _ _ _ _ _).bind fun _ =>
      (comparedOperand_requests _ _ _ _ _).bind fun _ => .pure _).of_eq ?_
    simp [Action.values, Action.base?, Action.result?]
  | bitwise operator lhs rhs width =>
    refine ((operand_requests _ lhs).bind fun _ => (operand_requests _ rhs).bind fun _ =>
      own.bind fun _ => (constrain_requests _ _ _).bind fun _ =>
      constrainUnless_requests fun _ => constrainUnless_requests fun _ => .pure _).of_eq ?_
    simp [Action.values, Action.base?, Action.result?]
  | call target args resultUsed =>
    refine ((operand_requests _ target).bind fun _ => (pointee_requests _ _).bind fun _ =>
      (Requests.mapM (operand_requests _) args).bind fun _ => own.bind fun _ =>
      (constrain_requests _ _ _).bind fun _ => .pure _).of_eq ?_
    simp [Action.values, Action.base?, Action.result?]

/-- A step that succeeds gives such an answer. -/
def Answers {α : Type} (x : CollectM α) (good : α → Prop) : Prop :=
  ∀ s q t, x s = .ok q t → good q

/-- An answer that is known is the answer. -/
lemma Answers.pure {α : Type} {good : α → Prop} {q : α} (holds : good q) :
    Answers (pure q) good := by
  intro s r t run
  obtain ⟨rfl, _⟩ := pure_eq_ok.1 run
  exact holds

/-- Two steps in a row answer what the second one does. -/
lemma Answers.bind {α β : Type} {good : β → Prop} {x : CollectM α} {f : α → CollectM β}
    (next : ∀ q, Answers (f q) good) : Answers (x >>= f) good := by
  intro s r t run
  obtain ⟨q, m, _, run⟩ := bind_eq_ok.1 run
  exact next q m r t run

/-- Evidence that is left out on a condition does not change the answer. -/
lemma constrainUnless_answers {α : Type} {good : α → Prop} {v : VarId} {position : Nat}
    {fact : Fact} {condition : Bool} {next : Unit → CollectM α}
    (rest : ∀ r, Answers (next r) good) :
    Answers (if condition = true then next () else constrain v position fact >>= next) good := by
  split
  · exact rest ()
  · exact .bind rest

/-- An action that has a result gives its variable. -/
lemma action_answers (memory : MemoryMap) (op : Operation) :
    Answers (action memory op) fun r => r.isSome = op.action.hasResult := by
  obtain ⟨position, address, act, destination⟩ := op
  cases act with
  | literal value width => exact .bind fun _ => .pure rfl
  | copy source => exact .bind fun _ => .bind fun _ => .bind fun _ => .pure rfl
  | load base offset width =>
    exact .bind fun _ => .bind fun _ => .bind fun _ => .bind fun _ => .pure rfl
  | store base offset width value =>
    exact .bind fun _ => .bind fun _ => .bind fun _ => .bind fun _ => .pure rfl
  | index base subscript offset stride width =>
    exact .bind fun _ => .bind fun _ => .bind fun _ => .bind fun _ => .bind fun _ =>
      .bind fun _ => .pure rfl
  | advance direction moved step width =>
    exact .bind fun _ => .bind fun _ => .bind fun _ => .bind fun _ => .bind fun _ => .pure rfl
  | compare operator lhs rhs =>
    exact .bind fun _ => .bind fun _ => .bind fun _ => .bind fun _ => .bind fun _ =>
      .bind fun _ => .pure rfl
  | bitwise operator lhs rhs width =>
    exact .bind fun _ => .bind fun _ => .bind fun _ => .bind fun _ =>
      constrainUnless_answers fun _ => constrainUnless_answers fun _ => .pure rfl
  | call target args resultUsed =>
    exact .bind fun _ => .bind fun _ => .bind fun _ => .bind fun _ => .bind fun _ => .pure rfl

/-- Noting a result requests nothing. -/
lemma noteResult_requests (r : Option VarId) :
    Requests (modify fun m => { m with results := m.results.push r }) [] := by
  intro s q t li run
  cases run
  exact ⟨⟨li.storage, li.addresses, li.segments, li.owned⟩, rfl⟩

/-- An operation requests its uses. -/
lemma operation_requests (memory : MemoryMap) (op : Operation) :
    Requests (operation memory op) (op.requests memory) := by
  intro s q t li run
  rw [operation] at run
  obtain ⟨r, m, acted, run⟩ := bind_eq_ok.1 run
  obtain ⟨li, uses⟩ := action_requests memory op s r m li acted
  rw [Operation.requests, List.foldl_append, ← uses, ← action_answers memory op s r m acted]
  generalize op.destination = destination at run ⊢
  cases r with
  | none => cases destination <;> exact noteResult_requests none m q t li run
  | some u =>
    cases destination with
    | none => exact noteResult_requests (some u) m q t li run
    | some name =>
      exact ((storage_requests name).bind fun _ => (unify_requests _ _).bind fun _ =>
        noteResult_requests (some u)) m q t li run

/-- A trace requests the uses of its operations, in order. -/
lemma trace_requests (memory : MemoryMap) (t : Trace) :
    Requests (trace memory t) (t.operations.flatMap (·.requests memory)) :=
  .forM (operation_requests memory)

end CollectM

namespace Trace

/-- The expressions that a trace requests are at the positions of its operations with such results.
-/
lemma expressions_requests {memory : MemoryMap} (operations : List Operation) :
    (operations.flatMap (·.requests memory)).filterMap UseSite.expression? =
      (operations.filter (·.action.isExpression)).map Operation.position := by
  induction operations with
  | nil => rfl
  | cons op rest ih =>
    rw [List.flatMap_cons, List.filterMap_append, ih, Operation.expressions_requests]
    cases own : op.action.isExpression <;> simp [own]

/-- What a trace that was collected has requested was granted. -/
lemma uses_of_collect {t : Trace} {memory : MemoryMap} {s : Collection} {a : Arena}
    (collected : ArenaM.collect memory t .empty = .ok s a) :
    s.arena = a ∧ s.Listed ∧
      s.uses = (t.operations.flatMap (·.requests memory)).foldl UseSite.grant [] := by
  rw [ArenaM.collect] at collected
  cases run : CollectM.trace memory t (Collection.start .empty) with
  | error e s' =>
    rw [run] at collected
    cases collected
  | ok _ s' =>
    rw [run] at collected
    cases collected
    exact ⟨rfl, CollectM.trace_requests memory t _ _ _ Collection.start_listed run⟩

/-- What the variables of a trace that was ingested and collected were made for. Every name of
storage that is read or receives a result has one variable. So has every fixed address that is taken
as a value, and every segment that is accessed at a fixed address. There is one variable for the
result of each operation that is neither a literal nor a store, and one for each occurrence of a
literal. The other variables are for what pointers point into: each was made after its pointer, and
there is evidence that the pointer points into it. -/
theorem sites_collect {records : List TraceRecord} {t : Trace} {memory : MemoryMap} {s : Collection}
    {a : Arena} (ingested : ingest records = .ok t)
    (collected : ArenaM.collect memory t .empty = .ok s a) :
    (a.sites.filter UseSite.isShared).Nodup ∧
    (∀ name, .storage name ∈ a.sites ↔ ∃ op ∈ t.operations,
      .storage name ∈ op.action.reads ∨ op.destination = some name) ∧
    (∀ place, .address place ∈ a.sites ↔ ∃ op ∈ t.operations,
      .address place ∈ op.action.values) ∧
    (∀ name, .segment name ∈ a.sites ↔ ∃ op ∈ t.operations, ∃ place offset,
      op.action.base? = some (.address place, offset) ∧
        (memory.locate (place + offset.toUInt64)).segment = name) ∧
    a.sites.filterMap UseSite.expression? = (List.range t.operations.length).filter
      (fun position => t.operations[position]?.any (·.action.isExpression)) ∧
    (a.sites.filterMap UseSite.literal?).Perm (t.operations.flatMap Operation.literals) ∧
    ∀ v p : VarId, a.sites[v.index]? = some (.pointee p) →
      p.index < v.index ∧ a.Holds p (.pointsTo v) := by
  have ing := ingests_of_ingest ingested
  obtain ⟨rfl, listed, uses⟩ := uses_of_collect collected
  have mem : ∀ {site : UseSite}, site.isPointee = false →
      (site ∈ s.arena.sites ↔ ∃ op ∈ t.operations, site ∈ op.requests memory) := by
    intro site value
    rw [← Collection.mem_uses value, uses, UseSite.mem_foldl_grant, List.mem_flatMap]
    simp
  refine ⟨?_, fun name => ?_, fun place => ?_, fun name => ?_, ?_, ?_, ?_⟩
  · rw [← Collection.filter_isShared_uses, uses]
    exact UseSite.nodup_foldl_grant List.nodup_nil
  · rw [mem rfl]
    refine exists_congr fun op => and_congr_right fun inside => ?_
    refine Operation.storage_mem_requests fun given => ing.hasResult inside ?_
    rw [given]
    simp
  · rw [mem rfl]
    exact exists_congr fun op => and_congr_right fun _ => Operation.address_mem_requests
  · rw [mem rfl]
    exact exists_congr fun op => and_congr_right fun _ => Operation.segment_mem_requests
  · rw [← Collection.filterMap_uses fun _ => rfl, uses,
      UseSite.filterMap_foldl_grant UseSite.expression?_of_isShared, List.filterMap_nil,
      List.nil_append, expressions_requests, ← ing.map_position, List.filter_map]
    refine congrArg (List.map Operation.position) (List.filter_congr fun op inside => ?_)
    simp [ing.getElem?_position inside]
  · rw [← Collection.filterMap_uses fun _ => rfl, uses,
      UseSite.filterMap_foldl_grant UseSite.literal?_of_isShared, List.filterMap_nil,
      List.nil_append, List.filterMap_flatMap]
    exact List.Perm.flatMap_left _ fun op _ => Operation.literals_requests
  · intro v p here
    obtain ⟨log, ow⟩ := listed.owned
    obtain ⟨lt, c, logged, about, points⟩ := ow.pointees here
    exact ⟨lt, ow.coherent.holds_iff.2 ⟨c, logged, about, points⟩⟩

/-- A global is read, tested and overwritten, and a function is called. -/
def globalRecords : List TraceRecord :=
  [{ (Action.load (.address 0x2000) 8 4).toRecord 0x100 with destination := some (.storage "n") },
    (Action.compare .lt (.storage "n") (.literal 5 4)).toRecord 0x104,
    (Action.store (.address 0x2000) 8 4 (.literal 5 4)).toRecord 0x108,
    (Action.literal 7 4).toRecord 0x10c,
    (Action.call (.address 0x3000) [.result 3, .address 0x2000] true).toRecord 0x110]

def globalTrace : Trace :=
  ⟨[⟨0, 0x100, .load (.address 0x2000) 8 4, some "n"⟩,
    ⟨1, 0x104, .compare .lt (.storage "n") (.literal 5 4), none⟩,
    ⟨2, 0x108, .store (.address 0x2000) 8 4 (.literal 5 4), none⟩,
    ⟨3, 0x10c, .literal 7 4, none⟩,
    ⟨4, 0x110, .call (.address 0x3000) [.result 3, .address 0x2000] true, none⟩]⟩

/-- The global is used through its segment and, as an argument, as a value. -/
theorem sites_collect_globalRecords :
    ingest globalRecords = .ok globalTrace ∧
    ∃ s a, ArenaM.collect .empty globalTrace .empty = .ok s a ∧
      (a.sites.filter UseSite.isShared).Nodup ∧ .storage "n" ∈ a.sites ∧
      .address 0x2000 ∈ a.sites ∧ .segment MemoryMap.unmapped ∈ a.sites ∧
      a.sites.filterMap UseSite.expression? = [0, 1, 4] ∧
      (a.sites.filterMap UseSite.literal?).Perm [(1, 5), (2, 5), (3, 7)] := by
  have ingested : ingest globalRecords = .ok globalTrace := by decide
  have near : (MemoryMap.empty.locate (0x2000 + (8 : Int64).toUInt64)).offset.toNat < 2 ^ 63 := by
    decide
  have fits : ∀ op ∈ globalTrace.operations, ∀ address,
      ¬ op.action.Strays MemoryMap.empty address := by
    intro op mem address strays
    simp only [globalTrace, List.mem_cons, List.not_mem_nil, or_false] at mem
    rcases mem with rfl | rfl | rfl | rfl | rfl
    · obtain ⟨_, ⟨⟩, rfl, far⟩ := strays
      exact near.not_ge far
    · exact strays
    · obtain ⟨_, ⟨⟩, rfl, far⟩ := strays
      exact near.not_ge far
    · exact strays
    · exact strays
  obtain ⟨s, _, _, collected, _⟩ := collect_of_fits ingested fits
  obtain ⟨once, storage, address, segment, expressions, literals, _⟩ :=
    sites_collect ingested collected
  exact ⟨ingested, s, _, collected, once, (storage "n").2 (by decide),
    (address 0x2000).2 (by decide), (segment _).2 ⟨_, List.mem_cons_self, 0x2000, 8, rfl, rfl⟩,
    expressions, literals⟩

end Trace

end TypeRecovery
