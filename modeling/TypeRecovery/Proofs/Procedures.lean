import TypeRecovery.Proofs.Arena.Calls
import TypeRecovery.Proofs.Resolution.Resolver
import TypeRecovery.Analysis

/-!
# Procedures

Closing, resolving, collecting and listing are longer than a call, but they touch the arena by calls
only. `Procedure.byCalls` says so: whatever a procedure does, and even if it fails halfway, the arena
that it leaves is one that calls other than a reset make of the arena it found. What calls keep is
then kept by procedures. The evidence of an operation is added at its own position only, and calls
are noted with as many arguments as they have (`CollectM.operation_byCalls`).
-/

namespace TypeRecovery

/-! ## Steps that work by calls -/

section
variable {ε σ α β : Type}

/-- A call other than a reset, which adds only evidence that is admitted at its position. -/
def Call.Within (admits : Nat → Fact → Prop) : Call → Prop
  | .reset => False
  | .constrain _ position fact => admits position fact
  | _ => True

/-- A step changes the arena in its state by calls other than a reset, also when it fails, and adds
only evidence that is admitted at its position. -/
def ByCalls (admits : Nat → Fact → Prop) (arena : σ → Arena) (x : EStateM ε σ α) : Prop :=
  ∀ s, ∃ calls, (∀ call ∈ calls, Call.Within admits call) ∧
    arena (finalState (x s)) = (arena s).afterAll calls

namespace ByCalls

variable {admits : Nat → Fact → Prop} {arena : σ → Arena} {x : EStateM ε σ α} {f : α → EStateM ε σ β}

/-- A step that leaves the arena as it is. -/
lemma of_eq (same : ∀ s, arena (finalState (x s)) = arena s) : ByCalls admits arena x :=
  fun s => ⟨[], List.forall_mem_nil _, same s⟩

/-- A step that only answers makes no call. -/
lemma pure (r : α) : ByCalls admits arena (pure r : EStateM ε σ α) :=
  of_eq fun _ => rfl

/-- A step that only fails makes no call. -/
lemma throw (e : ε) : ByCalls admits arena (throw e : EStateM ε σ α) :=
  of_eq fun _ => rfl

/-- A look at the state makes no call. -/
lemma get : ByCalls admits arena (get : EStateM ε σ σ) :=
  of_eq fun _ => rfl

/-- A change beside the arena makes no call. -/
lemma modify {f : σ → σ} (same : ∀ s, arena (f s) = arena s) :
    ByCalls admits arena (modify f : EStateM ε σ PUnit) :=
  of_eq same

/-- What comes after a step may count on what the step returned. -/
lemma bind_of_ok (first : ByCalls admits arena x)
    (next : ∀ {s r t}, x s = .ok r t → ByCalls admits arena (f r)) :
    ByCalls admits arena (x >>= f) := by
  intro s
  obtain ⟨calls, kept, e⟩ := first s
  cases h : x s with
  | error err t =>
    rw [TypeRecovery.bind_of_error h]
    rw [h] at e
    exact ⟨calls, kept, e⟩
  | ok r t =>
    rw [TypeRecovery.bind_of_ok h]
    rw [h] at e
    obtain ⟨more, kept', e'⟩ := next h t
    refine ⟨calls ++ more, List.forall_mem_append.2 ⟨kept, kept'⟩, ?_⟩
    rw [Arena.afterAll_append, ← e]
    exact e'

/-- Two steps in a row make the calls of the first one and then those of the second one. -/
lemma bind (first : ByCalls admits arena x) (next : ∀ r, ByCalls admits arena (f r)) :
    ByCalls admits arena (x >>= f) :=
  first.bind_of_ok fun _ => next _

/-- What is done with the answer of a step makes no difference to its calls. -/
lemma of_map {g : α → β} (mapped : ByCalls admits arena (g <$> x)) : ByCalls admits arena x := by
  intro s
  obtain ⟨calls, kept, e⟩ := mapped s
  exact ⟨calls, kept, by rw [← e, finalState_map]⟩

/-- A fold makes the calls of its steps. -/
lemma foldlM {step : β → α → EStateM ε σ β} {l : List α} {b : β}
    (each : ∀ b x, ByCalls admits arena (step b x)) : ByCalls admits arena (l.foldlM step b) := by
  induction l generalizing b with
  | nil => exact pure b
  | cons x l ih => exact (each b x).bind fun _ => ih

/-- A loop makes the calls of its steps, one for each member of the list. -/
lemma forM {step : α → EStateM ε σ PUnit} {l : List α}
    (each : ∀ x ∈ l, ByCalls admits arena (step x)) : ByCalls admits arena (l.forM step) := by
  induction l with
  | nil => exact pure _
  | cons x l ih =>
    obtain ⟨here, there⟩ := List.forall_mem_cons.1 each
    exact here.bind fun _ => ih there

/-- A loop with answers makes the calls of its steps, one for each member of the list. -/
lemma mapM {step : α → EStateM ε σ β} {l : List α} (each : ∀ x, ByCalls admits arena (step x)) :
    ByCalls admits arena (l.mapM step) := by
  induction l with
  | nil => exact pure _
  | cons x l ih =>
    rw [List.mapM_cons]
    exact (each x).bind fun _ => ih.bind fun _ => pure _

end ByCalls

end

section
variable {admits : Nat → Fact → Prop}

/-- A call works by calls. -/
lemma Call.byCalls {call : Call} (within : call.Within admits) : ByCalls admits id call.perform :=
  fun _ => ⟨[call], by simpa using within, rfl⟩

/-! ## Closing -/

namespace ArenaM

/-- Making a variable is a call. -/
lemma newVariable_byCalls (site : UseSite) : ByCalls admits id (newVariable site) :=
  .of_map (@Call.byCalls admits (.newVariable site) trivial)

/-- Finding the class that stands for another one is a call. -/
lemma find_byCalls (c : ClassId) : ByCalls admits id (find c) :=
  .of_map (@Call.byCalls admits (.find c) trivial)

/-- Uniting the classes of two variables is a call. -/
lemma unify_byCalls (x y : VarId) : ByCalls admits id (unify x y) :=
  .of_map (@Call.byCalls admits (.unify x y) trivial)

/-- Adding evidence that is admitted is a call. -/
lemma constrain_byCalls {position : Nat} {fact : Fact} (here : admits position fact) (v : VarId) :
    ByCalls admits id (constrain v position fact) :=
  .of_map (@Call.byCalls admits (.constrain v position fact) here)

/-- Noting the type of a class is a call. -/
lemma setType_byCalls (c : ClassId) (t : DataType) : ByCalls admits id (setType c t) :=
  .of_map (@Call.byCalls admits (.setType c t) trivial)

/-- Finalizing all classes is a call. -/
lemma finalizeAll_byCalls : ByCalls admits id finalizeAll :=
  .of_map (@Call.byCalls admits .finalizeAll trivial)

/-- Finding the class of a variable works by calls. -/
lemma classOf_byCalls (v : VarId) : ByCalls admits id (classOf v) := by
  refine ByCalls.get.bind fun a => ?_
  split
  · exact .pure _
  · exact .throw _

/-- Finding the record of the class of a variable works by calls. -/
lemma classFor_byCalls (v : VarId) : ByCalls admits id (classFor v) := by
  refine ByCalls.get.bind fun a => ?_
  split
  · exact .pure _
  · exact .throw _

/-- Merging two variables unless they share a class works by calls. -/
lemma mergeIfApart_byCalls (x y : VarId) : ByCalls admits id (mergeIfApart x y) := by
  refine (classOf_byCalls x).bind fun cx => (classOf_byCalls y).bind fun cy => ?_
  split
  · exact .pure _
  · exact (unify_byCalls x y).bind fun _ => .pure _

/-- Merging a group of variables works by calls. -/
lemma mergeGroup_byCalls (group : List VarId) : ByCalls admits id (mergeGroup group) := by
  cases group with
  | nil => exact .pure _
  | cons first others => exact .foldlM fun _ v => (mergeIfApart_byCalls first v).bind fun _ => .pure _

/-- Closing one class works by calls. -/
lemma closeClass_byCalls (c : ClassId) : ByCalls admits id (closeClass c) := by
  refine ByCalls.get.bind fun a => ?_
  split
  · split
    · exact .foldlM fun _ group => (mergeGroup_byCalls group).bind fun _ => .pure _
    · exact .pure _
  · exact .pure _

/-- A round of the closure works by calls. -/
lemma closeRound_byCalls : ByCalls admits id closeRound :=
  ByCalls.get.bind fun _ => .foldlM fun _ c => (closeClass_byCalls c).bind fun _ => .pure _

/-- Rounds of the closure work by calls. -/
lemma closeWithin_byCalls (rounds : Nat) : ByCalls admits id (closeWithin rounds) := by
  induction rounds with
  | zero => exact .pure _
  | succ rounds ih =>
    refine closeRound_byCalls.bind fun merged => ?_
    split
    · exact .pure _
    · exact ih.bind fun _ => .pure _

/-- The closure works by calls. -/
lemma close_byCalls : ByCalls admits id close :=
  ByCalls.get.bind fun _ => closeWithin_byCalls _

end ArenaM

/-! ## Resolving -/

namespace ResolveM

/-- A step on the arena works by calls in the course of a resolution, too. -/
lemma onArena_byCalls {α : Type} {x : ArenaM α} (by_ : ByCalls admits id x) :
    ByCalls admits Resolution.arena (onArena x) := by
  intro s
  obtain ⟨calls, kept, e⟩ := by_ s.arena
  refine ⟨calls, kept, Eq.trans ?_ e⟩
  simp only [onArena, id]
  cases x s.arena <;> rfl

/-- An inquiry works by calls if its questions are answered by calls. -/
lemma inquire_byCalls {α : Type} {typeOf : VarId → ResolveM (Option DataType)}
    (answers : ∀ v, ByCalls admits Resolution.arena (typeOf v)) (q : Inquiry α) :
    ByCalls admits Resolution.arena (inquire typeOf q) := by
  induction q with
  | answer a => exact .pure a
  | failure e => exact .throw e
  | remark n next ih =>
    refine .bind (.modify ?_) fun _ => ih
    exact fun _ => rfl
  | askType v next ih => exact (answers v).bind ih
  | askClass v next ih => exact (onArena_byCalls (ArenaM.classOf_byCalls v)).bind ih

/-- A verdict is found by calls if the types that it asks for are. -/
lemma judge_byCalls {config : Config} {depth : Nat} {pending : List ClassId} {c : ClassId}
    {constraints : List Constraint}
    (answers : ∀ v, ByCalls admits Resolution.arena (answerFor config depth pending c v)) :
    ByCalls admits Resolution.arena (judge config depth pending c constraints) :=
  (inquire_byCalls answers _).bind fun t =>
    (onArena_byCalls (ArenaM.setType_byCalls c t)).bind fun _ => .pure _

/-- A class is resolved by calls if the types that it asks for are found by calls. -/
lemma resolveWithin_byCalls_of_answers {config : Config} {depth : Nat} {pending : List ClassId}
    (answers : ∀ c v, ByCalls admits Resolution.arena (answerFor config depth pending c v))
    (c : ClassId) : ByCalls admits Resolution.arena (resolveWithin config depth pending c) := by
  rw [resolveWithin_eq]
  refine (onArena_byCalls (ArenaM.find_byCalls c)).bind fun c => ByCalls.get.bind fun s => ?_
  split
  · split
    · exact .pure _
    · exact judge_byCalls (answers c)
  · exact judge_byCalls (answers c)

/-- A class is resolved by calls, however deep the resolution goes. -/
lemma resolveWithin_byCalls (config : Config) (depth : Nat) (pending : List ClassId)
    (c : ClassId) : ByCalls admits Resolution.arena (resolveWithin config depth pending c) := by
  induction depth generalizing pending c with
  | zero => exact resolveWithin_byCalls_of_answers (fun _ _ => .pure none) c
  | succ depth ih =>
    refine resolveWithin_byCalls_of_answers (fun c v => ?_) c
    refine (onArena_byCalls (ArenaM.classOf_byCalls v)).bind fun other => ?_
    split
    · exact .pure none
    · exact (ih _ _).bind fun _ => .pure _

/-- The resolution of a class works by calls. -/
lemma resolve_byCalls (config : Config) (c : ClassId) :
    ByCalls admits Resolution.arena (resolve config c) :=
  ByCalls.get.bind fun _ => resolveWithin_byCalls config _ [] c

/-- The resolution of all classes works by calls. -/
lemma resolveAll_byCalls (config : Config) : ByCalls admits Resolution.arena (resolveAll config) :=
  ByCalls.get.bind fun _ => .forM fun c _ => (resolve_byCalls config c).bind fun _ => .pure _

end ResolveM

/-- A resolution works by calls on the arena that it starts from. -/
lemma ArenaM.resolving_byCalls {α : Type} {x : ResolveM α} (by_ : ByCalls admits Resolution.arena x) :
    ByCalls admits id (ArenaM.resolving x) := by
  intro a
  obtain ⟨calls, kept, e⟩ := by_ ⟨a, #[]⟩
  refine ⟨calls, kept, Eq.trans ?_ e⟩
  simp only [ArenaM.resolving, id]
  cases x ⟨a, #[]⟩ <;> rfl

/-! ## Collecting -/

namespace CollectM

/-- A step on the arena works by calls in the course of a collection, too. -/
lemma onArena_byCalls {α : Type} {x : ArenaM α} (by_ : ByCalls admits id x) :
    ByCalls admits Collection.arena (onArena x) := by
  intro s
  obtain ⟨calls, kept, e⟩ := by_ s.arena
  refine ⟨calls, kept, Eq.trans ?_ e⟩
  simp only [onArena, id]
  cases x s.arena <;> rfl

/-- Making a variable works by calls. -/
lemma newVariable_byCalls (site : UseSite) : ByCalls admits Collection.arena (newVariable site) :=
  onArena_byCalls (ArenaM.newVariable_byCalls site)

/-- Making two variables equal works by calls. -/
lemma unify_byCalls (x y : VarId) : ByCalls admits Collection.arena (unify x y) :=
  (onArena_byCalls (ArenaM.unify_byCalls x y)).bind fun _ => .pure _

/-- The variable of an expression is made by calls. -/
lemma expression_byCalls (op : Operation) : ByCalls admits Collection.arena (expression op) :=
  newVariable_byCalls _

/-- A new variable that is noted in a table. -/
lemma enter_byCalls {α : Type} {site : UseSite} {note : VarId → Collection → Collection}
    {next : VarId → CollectM α} (same : ∀ v s, (note v s).arena = s.arena)
    (rest : ∀ v, ByCalls admits Collection.arena (next v)) :
    ByCalls admits Collection.arena (do
      let v ← newVariable site
      modify (note v)
      next v) :=
  (newVariable_byCalls site).bind fun v => (ByCalls.modify (same v)).bind fun _ => rest v

/-- The variable of a name is found by calls. -/
lemma storage_byCalls (name : String) : ByCalls admits Collection.arena (storage name) := by
  refine ByCalls.get.bind fun s => ?_
  split
  · exact .pure _
  · exact enter_byCalls (fun _ _ => rfl) fun _ => .pure _

/-- The variable of a fixed address is found by calls. -/
lemma address_byCalls (place : UInt64) : ByCalls admits Collection.arena (address place) := by
  refine ByCalls.get.bind fun s => ?_
  split
  · exact .pure _
  · exact enter_byCalls (fun _ _ => rfl) fun _ => .pure _

/-- The variable of a segment is found by calls. -/
lemma segment_byCalls (name : String) : ByCalls admits Collection.arena (segment name) := by
  refine ByCalls.get.bind fun s => ?_
  split
  · exact .pure _
  · exact enter_byCalls (fun _ _ => rfl) fun _ => .pure _

section
variable {position : Nat} (here : ∀ fact, fact.callSite? = none → admits position fact)

include here

/-- Evidence other than a call is added by calls. -/
lemma constrain_byCalls (v : VarId) {fact : Fact} (plain : fact.callSite? = none) :
    ByCalls admits Collection.arena (constrain v position fact) :=
  onArena_byCalls (ArenaM.constrain_byCalls (here fact plain) v)

/-- The variable of a literal is made by calls. -/
lemma literal_byCalls (value : Int64) (width : UInt8) :
    ByCalls admits Collection.arena (literal position value width) :=
  (newVariable_byCalls _).bind fun _ =>
    (constrain_byCalls here _ (by split <;> rfl)).bind fun _ => .pure _

/-- The variable of an operand is found by calls. -/
lemma operand_byCalls (operand : Operand) :
    ByCalls admits Collection.arena (CollectM.operand position operand) := by
  cases operand with
  | storage name => exact storage_byCalls name
  | literal value width => exact literal_byCalls here value width
  | address place => exact address_byCalls place
  | result target =>
    refine ByCalls.get.bind fun s => ?_
    split
    · exact .pure _
    · exact .throw _

/-- What a pointer points into is found by calls. -/
lemma pointee_byCalls (pointer : VarId) :
    ByCalls admits Collection.arena (pointee pointer position) := by
  refine (onArena_byCalls (ArenaM.classFor_byCalls pointer)).bind fun record => ?_
  split
  · exact (constrain_byCalls here _ rfl).bind fun _ => .pure _
  · exact enter_byCalls (fun _ _ => rfl) fun _ =>
      (constrain_byCalls here _ rfl).bind fun _ => .pure _

/-- The base of an access at a fixed address is found by calls. -/
lemma fixedBase_byCalls (memory : MemoryMap) (place : UInt64) (offset : Int64) :
    ByCalls admits Collection.arena (fixedBase memory position place offset) := by
  rw [fixedBase]
  split
  · exact .throw _
  · refine (segment_byCalls _).bind fun found => (pointee_byCalls here _).bind fun target => ?_
    split
    · exact (constrain_byCalls here _ rfl).bind fun _ => .pure _
    · exact .pure _

/-- The base of an access is found by calls. -/
lemma accessBase_byCalls (memory : MemoryMap) (base : Operand) (offset : Int64) :
    ByCalls admits Collection.arena (accessBase memory position base offset) := by
  cases base with
  | address place => exact fixedBase_byCalls here memory place offset
  | _ =>
    exact (operand_byCalls here _).bind fun _ => (pointee_byCalls here _).bind fun _ => .pure _

/-- Evidence on order is added by calls. -/
lemma ordering_byCalls (v : VarId) (sign : Option Bool) :
    ByCalls admits Collection.arena (match sign with
      | some signed => constrain v position (.ordered signed)
      | none => pure ()) := by
  cases sign with
  | some signed => exact constrain_byCalls here _ rfl
  | none => exact .pure _

/-- What a comparison tells of an operand is added by calls. -/
lemma comparedOperand_byCalls (operator : Comparison) (v : VarId) (this other : Operand) :
    ByCalls admits Collection.arena (comparedOperand position operator v this other) := by
  have ordered := ordering_byCalls here v operator.signed?
  rw [comparedOperand]
  split
  · exact .pure _
  · cases other with
    | literal value width => exact (constrain_byCalls here _ rfl).bind fun _ => ordered
    | _ => exact ordered

/-- Evidence that is left out on a condition is added by calls. -/
lemma constrainUnless_byCalls {α : Type} {v : VarId} {fact : Fact} {condition : Bool}
    {next : Unit → CollectM α} (plain : fact.callSite? = none)
    (rest : ∀ r, ByCalls admits Collection.arena (next r)) :
    ByCalls admits Collection.arena (if condition = true then next () else
      constrain v position fact >>= next) := by
  split
  · exact rest ()
  · exact (constrain_byCalls here v plain).bind rest

end

/-- As many values are found as there are arguments. -/
lemma length_of_mapM_ok {α β : Type} {step : α → CollectM β} {l : List α} {rs : List β}
    {s t : Collection} (run : l.mapM step s = .ok rs t) : rs.length = l.length := by
  induction l generalizing rs s with
  | nil =>
    cases run
    rfl
  | cons x l ih =>
    rw [List.mapM_cons] at run
    obtain ⟨r, m, _, run⟩ := bind_eq_ok.1 run
    obtain ⟨rest, n, ran, run⟩ := bind_eq_ok.1 run
    cases run
    rw [List.length_cons, List.length_cons, ih ran]

/-- The evidence of an operation is admitted: all of it but calls, and calls with as many arguments
as the operation has. -/
structure Admitted (admits : Nat → Fact → Prop) (op : Operation) : Prop where
  plain : ∀ fact, fact.callSite? = none → admits op.position fact
  called : ∀ {target args resultUsed}, op.action = .call target args resultUsed →
    ∀ site : CallSite, site.args.length = args.length → admits op.position (.callSite site)

/-- An action works by calls that add its own evidence only. -/
lemma action_byCalls (memory : MemoryMap) {op : Operation} (admitted : Admitted admits op) :
    ByCalls admits Collection.arena (action memory op) := by
  have here := admitted.plain
  rw [action]
  cases act : op.action with
  | literal value width => exact (literal_byCalls here _ _).bind fun _ => .pure _
  | copy source =>
    exact (operand_byCalls here _).bind fun _ => (expression_byCalls op).bind fun _ =>
      (unify_byCalls _ _).bind fun _ => .pure _
  | load base offset width =>
    exact (accessBase_byCalls here _ _ _).bind fun _ => (expression_byCalls op).bind fun _ =>
      (constrain_byCalls here _ rfl).bind fun _ => (constrain_byCalls here _ rfl).bind fun _ => .pure _
  | store base offset width value =>
    exact (operand_byCalls here _).bind fun _ => (constrain_byCalls here _ rfl).bind fun _ =>
      (accessBase_byCalls here _ _ _).bind fun _ =>
      (constrain_byCalls here _ rfl).bind fun _ => .pure _
  | index base subscript offset stride width =>
    exact (operand_byCalls here _).bind fun _ => (constrain_byCalls here _ rfl).bind fun _ =>
      (accessBase_byCalls here _ _ _).bind fun _ => (expression_byCalls op).bind fun _ =>
      (constrain_byCalls here _ rfl).bind fun _ => (constrain_byCalls here _ rfl).bind fun _ => .pure _
  | advance direction moved step width =>
    exact (operand_byCalls here _).bind fun _ => (expression_byCalls op).bind fun _ =>
      (unify_byCalls _ _).bind fun _ => (constrain_byCalls here _ rfl).bind fun _ =>
      (constrain_byCalls here _ rfl).bind fun _ => .pure _
  | compare operator lhs rhs =>
    exact (operand_byCalls here _).bind fun _ => (operand_byCalls here _).bind fun _ =>
      (expression_byCalls op).bind fun _ => (constrain_byCalls here _ rfl).bind fun _ =>
      (comparedOperand_byCalls here _ _ _ _).bind fun _ =>
      (comparedOperand_byCalls here _ _ _ _).bind fun _ => .pure _
  | bitwise operator lhs rhs width =>
    exact (operand_byCalls here _).bind fun _ => (operand_byCalls here _).bind fun _ =>
      (expression_byCalls op).bind fun _ => (constrain_byCalls here _ rfl).bind fun _ =>
      constrainUnless_byCalls here rfl fun _ => constrainUnless_byCalls here rfl fun _ => .pure _
  | call target args resultUsed =>
    exact (operand_byCalls here _).bind fun _ => (pointee_byCalls here _).bind fun _ =>
      (ByCalls.mapM fun arg => operand_byCalls here arg).bind_of_ok fun {_ vs _} found =>
      (expression_byCalls op).bind fun _ => (onArena_byCalls (ArenaM.constrain_byCalls
        (admitted.called act ⟨vs, _⟩ (length_of_mapM_ok found)) _)).bind fun _ => .pure _

/-- An operation adds its own evidence only. -/
lemma operation_byCalls (memory : MemoryMap) {op : Operation} (admitted : Admitted admits op) :
    ByCalls admits Collection.arena (operation memory op) := by
  refine (action_byCalls memory admitted).bind fun result => ?_
  split
  · exact (storage_byCalls _).bind fun _ => (unify_byCalls _ _).bind fun _ =>
      .modify fun _ => rfl
  · exact .modify fun _ => rfl

/-- A trace works by calls that add the evidence of its operations only. -/
lemma trace_byCalls (memory : MemoryMap) {t : Trace}
    (admitted : ∀ op ∈ t.operations, Admitted admits op) :
    ByCalls admits Collection.arena (trace memory t) :=
  .forM fun _ mem => operation_byCalls memory (admitted _ mem)

end CollectM

/-- A trace is collected by calls that add the evidence of its operations only. -/
lemma ArenaM.collect_byCalls (memory : MemoryMap) {t : Trace}
    (admitted : ∀ op ∈ t.operations, CollectM.Admitted admits op) :
    ByCalls admits id (ArenaM.collect memory t) := by
  intro a
  obtain ⟨calls, kept, e⟩ := CollectM.trace_byCalls memory admitted (.start a)
  refine ⟨calls, kept, Eq.trans ?_ e⟩
  simp only [ArenaM.collect, id]
  cases CollectM.trace memory t (.start a) <;> rfl

end

/-! ## Procedures as data -/

/-- What can be done to an arena. -/
inductive Procedure where
  | call (single : Call)
  | close
  | resolve (config : Config) (c : ClassId)
  | resolveAll (config : Config)
  | collect (memory : MemoryMap) (t : Trace)
  | emit (function : String) (remarks : List Remark)

namespace Procedure

/-- The arena after a procedure, whether it succeeds or not. -/
def after (a : Arena) : Procedure → Arena
  | .call single => single.after a
  | .close => finalState (ArenaM.close a)
  | .resolve config c => finalState (ArenaM.resolve config c a)
  | .resolveAll config => finalState (ArenaM.resolveAll config a)
  | .collect memory t => finalState (ArenaM.collect memory t a)
  | .emit function remarks => finalState (ArenaM.emit function remarks a)

/-- A procedure other than a reset does what it does by calls other than a reset. -/
lemma byCalls (a : Arena) {procedure : Procedure} (ne : procedure ≠ .call .reset) :
    ∃ calls, Call.reset ∉ calls ∧ procedure.after a = a.afterAll calls := by
  have works : ∃ calls, (∀ call ∈ calls, Call.Within (fun _ _ => True) call) ∧
      procedure.after a = a.afterAll calls := by
    cases procedure with
    | call single =>
      have within : single.Within fun _ _ => True := by
        cases single with
        | reset => exact ne rfl
        | _ => trivial
      exact Call.byCalls within a
    | close => exact ArenaM.close_byCalls a
    | resolve config c =>
      exact (ArenaM.resolving_byCalls (ResolveM.resolve_byCalls config c)).bind
        (fun _ => .pure _) a
    | resolveAll config =>
      exact (ArenaM.resolving_byCalls (ResolveM.resolveAll_byCalls config)).bind
        (fun _ => .pure _) a
    | collect memory t =>
      exact ArenaM.collect_byCalls memory (fun _ _ => ⟨fun _ _ => trivial, fun _ _ _ => trivial⟩) a
    | emit function remarks =>
      exact ArenaM.finalizeAll_byCalls.bind (fun _ => ByCalls.get.bind fun _ => .pure _) a
  obtain ⟨calls, within, e⟩ := works
  exact ⟨calls, fun mem => within _ mem, e⟩

end Procedure

namespace Arena

/-- The arena that a sequence of procedures makes of another one. -/
def afterEach (a : Arena) (procedures : List Procedure) : Arena :=
  procedures.foldl Procedure.after a

/-- A sequence of procedures without a reset is a sequence of calls without one. -/
lemma afterEach_byCalls (a : Arena) {procedures : List Procedure}
    (kept : Procedure.call .reset ∉ procedures) :
    ∃ calls, Call.reset ∉ calls ∧ a.afterEach procedures = a.afterAll calls := by
  induction procedures generalizing a with
  | nil => exact ⟨[], List.not_mem_nil, rfl⟩
  | cons procedure procedures ih =>
    rw [List.mem_cons, not_or] at kept
    obtain ⟨calls, free, e⟩ := procedure.byCalls a (Ne.symm kept.1)
    obtain ⟨more, free', e'⟩ := ih (procedure.after a) kept.2
    refine ⟨calls ++ more, ?_, ?_⟩
    · rw [List.mem_append]
      exact not_or_intro free free'
    · rw [afterAll_append, ← e]
      exact e'

end Arena

end TypeRecovery
