import TypeRecovery.Proofs.Tracking

/-!
# Walking a trace

The collection of an operation succeeds and adds its observations to those that the arena accounts
for, unless the operation strays: then it fails with the address that is out of range
(`operation_tracks`, `operation_strays`). By induction, the collection of a trace whose operations
refer to earlier results only fails at the first operation that strays, or accounts for all that the
trace observes (`walk_tracks`).
-/

namespace TypeRecovery

/-- An action accesses memory at a fixed address that is out of range. -/
def Action.Strays (memory : MemoryMap) (address : UInt64) : Action → Prop
  | .load base offset _ | .store base offset _ _ | .index base _ offset _ _ =>
    base.Strays memory offset address
  | _ => False

namespace CollectM

open Collection

/-! ## Actions -/

/-- The action of an operation is collected with all that it observes. -/
def Collects (memory : MemoryMap) (op : Operation) (s : Collection) (obs : List Observation) :
    Prop :=
  ∃ q t ν n, action memory op s = .ok q t ∧
    t.Tracks (obs ++ op.action.observations memory op.position) ν op.position n (op.position + 1) ∧
    q = ν (.result op.position) ∧ q.isSome = op.action.hasResult

section
variable {s t : Collection} {obs : List Observation} {ν : Naming} {memory : MemoryMap}
  {op : Operation} {i n r : Nat}

/-- An action that gives the variable of its result is collected. -/
lemma Collects.of_result {v : VarId} (run : action memory op s = .ok (some v) t)
    (tr : t.Tracks (obs ++ op.action.observations memory op.position) ν op.position n
      (op.position + 1))
    (name : ν (.result op.position) = some v) (result : op.action.hasResult = true) :
    Collects memory op s obs :=
  ⟨some v, t, ν, n, run, tr, name.symm, result.symm⟩

/-- The result of an operation gets a new variable. -/
lemma expression_tracks (tr : s.Tracks obs ν op.position n op.position) :
    ∃ v t ν', expression op s = .ok v t ∧
      t.Tracks (obs ++ [.uses (.result op.position)]) ν' op.position n (op.position + 1) ∧
      s.Continues ν t ν' ∧ ν' (.result op.position) = some v :=
  fresh_tracks (fun _ m => m) tr (tr.tables.results (le_refl _)) ⟨rfl, by simp, by simp⟩ (fun _ _ => rfl)
    fun v b => (tr.tables.nameResult v).withArena b

/-- A literal is collected. -/
lemma literal_collects {value : Int64} {width : UInt8} (act : op.action = .literal value width)
    (tr : s.Tracks obs ν op.position n op.position) : Collects memory op s obs := by
  obtain ⟨v, t, ν', run, tracks, _, name⟩ := literal_tracks tr value width
    (tr.tables.results (le_refl _)) ⟨rfl, by simp, by simp⟩ tr.tables.nameResult
  refine .of_result ?_ (by rwa [act]) name (by rw [act]; rfl)
  rw [action, act]
  exact bind_of_ok run

/-- A copy is collected. -/
lemma copy_collects {source : Operand} (act : op.action = .copy source)
    (tr : s.Tracks obs ν op.position 0 op.position) (known : source.Known obs) :
    Collects memory op s obs := by
  obtain ⟨x, s₁, ν₁, run₁, tr₁, _, name⟩ := operand_tracks tr known
  obtain ⟨v, s₂, ν₂, run₂, tr₂, co₂, result⟩ := expression_tracks tr₁
  obtain ⟨s₃, run₃, tr₃, _⟩ := unify_tracks tr₂ result (co₂.names name)
  refine .of_result ?_ (by simpa [act, Action.observations] using tr₃) result (by rw [act]; rfl)
  rw [action, act]
  simp only [bind_of_ok run₁, bind_of_ok run₂, bind_of_ok run₃]
  rfl

/-- A load that does not stray is collected. -/
lemma load_collects {base : Operand} {offset : Int64} {width : UInt8}
    (act : op.action = .load base offset width) (tr : s.Tracks obs ν op.position 0 op.position)
    (known : base.Known obs) (fits : ∀ address, ¬ base.Strays memory offset address) :
    Collects memory op s obs := by
  obtain ⟨target, s₁, ν₁, x, run₁, tr₁, _, pointer, points⟩ := accessBase_tracks tr known fits
  obtain ⟨v, s₂, ν₂, run₂, tr₂, co₂, result⟩ := expression_tracks tr₁
  obtain ⟨s₃, run₃, tr₃, co₃⟩ := tell_tracks tr₂ result op.position (.size width) rfl rfl
  obtain ⟨s₄, run₄, tr₄, _⟩ := access_tracks tr₃ (co₂.names pointer)
    (co₃.holds (co₂.holds points)) result op.position (.field (base.place memory offset) width)
  refine .of_result ?_ (by simpa [act, Action.observations] using tr₄) result (by rw [act]; rfl)
  rw [action, act]
  simp only [bind_of_ok run₁, bind_of_ok run₂, bind_of_ok run₃]
  exact bind_of_ok run₄

/-- A store that does not stray is collected. -/
lemma store_collects {base : Operand} {offset : Int64} {width : UInt8} {value : Operand}
    (act : op.action = .store base offset width value)
    (tr : s.Tracks obs ν op.position 0 op.position) (known : base.Known obs)
    (known' : value.Known obs) (fits : ∀ address, ¬ base.Strays memory offset address) :
    Collects memory op s obs := by
  obtain ⟨y, s₁, ν₁, run₁, tr₁, _, written⟩ := operand_tracks tr known'
  obtain ⟨s₂, run₂, tr₂, _⟩ := tell_tracks tr₁ written op.position (.size width) rfl rfl
  obtain ⟨target, s₃, ν₃, x, run₃, tr₃, co₃, pointer, points⟩ :=
    accessBase_tracks tr₂ known.append.append fits
  obtain ⟨s₄, run₄, tr₄, _⟩ := access_tracks tr₃ pointer points (co₃.names written) op.position
    (.field (base.place memory offset) width)
  -- a store has no result, so nothing is named
  refine ⟨none, s₄, ν₃, 2, ?_, ?_, (tr₄.tables.results (le_refl _)).symm, by rw [act]; rfl⟩
  · rw [action, act]
    simp only [bind_of_ok run₁, bind_of_ok run₂, bind_of_ok run₃]
    exact bind_of_ok run₄
  · have tracks := tr₄.mono (le_refl _) (Nat.le_succ op.position)
    simpa [act, Action.observations] using tracks

/-- An access to an element that does not stray is collected. -/
lemma index_collects {base subscript : Operand} {offset : Int64} {stride : UInt32} {width : UInt8}
    (act : op.action = .index base subscript offset stride width)
    (tr : s.Tracks obs ν op.position 0 op.position) (known : base.Known obs)
    (known' : subscript.Known obs) (fits : ∀ address, ¬ base.Strays memory offset address) :
    Collects memory op s obs := by
  obtain ⟨y, s₁, ν₁, run₁, tr₁, _, counter⟩ := operand_tracks tr known'
  obtain ⟨s₂, run₂, tr₂, _⟩ := tell_tracks tr₁ counter op.position .counter rfl rfl
  obtain ⟨target, s₃, ν₃, x, run₃, tr₃, _, pointer, points⟩ :=
    accessBase_tracks tr₂ known.append.append fits
  obtain ⟨v, s₄, ν₄, run₄, tr₄, co₄, result⟩ := expression_tracks tr₃
  obtain ⟨s₅, run₅, tr₅, co₅⟩ := tell_tracks tr₄ result op.position (.size width) rfl rfl
  obtain ⟨s₆, run₆, tr₆, _⟩ := access_tracks tr₅ (co₄.names pointer)
    (co₅.holds (co₄.holds points)) result op.position
    (.element (base.place memory offset) stride width)
  refine .of_result ?_ (by simpa [act, Action.observations] using tr₆) result (by rw [act]; rfl)
  rw [action, act]
  simp only [bind_of_ok run₁, bind_of_ok run₂, bind_of_ok run₃, bind_of_ok run₄, bind_of_ok run₅]
  exact bind_of_ok run₆

/-- An advance is collected. -/
lemma advance_collects {direction : Direction} {moved : Operand} {step : Int64} {width : UInt8}
    (act : op.action = .advance direction moved step width)
    (tr : s.Tracks obs ν op.position 0 op.position) (known : moved.Known obs) :
    Collects memory op s obs := by
  obtain ⟨x, s₁, ν₁, run₁, tr₁, _, name⟩ := operand_tracks tr known
  obtain ⟨v, s₂, ν₂, run₂, tr₂, co₂, result⟩ := expression_tracks tr₁
  obtain ⟨s₃, run₃, tr₃, _⟩ := unify_tracks tr₂ result (co₂.names name)
  obtain ⟨s₄, run₄, tr₄, _⟩ :=
    tell_tracks tr₃ result op.position (.step (direction.displacement step)) rfl rfl
  obtain ⟨s₅, run₅, tr₅, _⟩ := tell_tracks tr₄ result op.position (.size width) rfl rfl
  refine .of_result ?_ (by simpa [act, Action.observations] using tr₅) result (by rw [act]; rfl)
  rw [action, act]
  simp only [bind_of_ok run₁, bind_of_ok run₂, bind_of_ok run₃]
  exact (bind_of_ok run₄).trans (bind_of_ok run₅)

/-- What a comparison tells of an operand. -/
lemma ordering_tracks {k : Value} {x : VarId} (tr : s.Tracks obs ν i n r) (name : ν k = some x)
    (position : Nat) (sign : Option Bool) :
    ∃ t, (match sign with
      | some signed => constrain x position (.ordered signed)
      | none => pure () : CollectM Unit) s = .ok () t ∧
      t.Tracks (obs ++ ((sign.map Fact.ordered).toList).map (.tells k)) ν i n r ∧
      s.Continues ν t ν := by
  cases sign with
  | some signed => exact tell_tracks tr name position (.ordered signed) rfl rfl
  | none => exact ⟨s, rfl, by simpa using tr, .refl s ν⟩

/-- All that a comparison tells of an operand is collected. -/
lemma comparedOperand_tracks {k : Value} {x : VarId} (tr : s.Tracks obs ν i n r)
    (name : ν k = some x) (position : Nat) (operator : Comparison) (this other : Operand) :
    ∃ t, comparedOperand position operator x this other s = .ok () t ∧
      t.Tracks (obs ++ (Operand.comparedFacts operator this other).map (.tells k)) ν i n r ∧
      s.Continues ν t ν := by
  unfold comparedOperand Operand.comparedFacts
  split
  · exact ⟨s, rfl, by simpa using tr, .refl s ν⟩
  · cases other with
    | literal value width =>
      obtain ⟨m, run, tr₁, co⟩ := tell_tracks tr name position (.discriminant width) rfl rfl
      obtain ⟨t, run', tr₂, co'⟩ := ordering_tracks tr₁ name position operator.signed?
      rw [List.append_assoc] at tr₂
      refine ⟨t, ?_, by simpa using tr₂, co.trans co'⟩
      rw [← run']
      exact bind_of_ok run
    | storage _ => exact ordering_tracks tr name position operator.signed?
    | address place => exact ordering_tracks tr name position operator.signed?
    | result target => exact ordering_tracks tr name position operator.signed?

/-- A comparison is collected. -/
lemma compare_collects {operator : Comparison} {lhs rhs : Operand}
    (act : op.action = .compare operator lhs rhs)
    (tr : s.Tracks obs ν op.position 0 op.position) (known : lhs.Known obs)
    (known' : rhs.Known obs) : Collects memory op s obs := by
  obtain ⟨x, s₁, ν₁, run₁, tr₁, _, left⟩ := operand_tracks tr known
  obtain ⟨y, s₂, ν₂, run₂, tr₂, co₂, right⟩ := operand_tracks tr₁ known'.append
  obtain ⟨v, s₃, ν₃, run₃, tr₃, co₃, result⟩ := expression_tracks tr₂
  obtain ⟨s₄, run₄, tr₄, _⟩ := tell_tracks tr₃ result op.position .boolean rfl rfl
  obtain ⟨s₅, run₅, tr₅, _⟩ :=
    comparedOperand_tracks tr₄ (co₃.names (co₂.names left)) op.position operator lhs rhs
  obtain ⟨s₆, run₆, tr₆, _⟩ :=
    comparedOperand_tracks tr₅ (co₃.names right) op.position operator rhs lhs
  refine .of_result ?_ (by simpa [act, Action.observations] using tr₆) result (by rw [act]; rfl)
  rw [action, act]
  simp only [bind_of_ok run₁, bind_of_ok run₂, bind_of_ok run₃, bind_of_ok run₄, bind_of_ok run₅]
  exact bind_of_ok run₆

/-- Something is told of a value that is no literal, and the collection goes on. -/
lemma tellUnless_tracks {k : Value} {x : VarId} (tr : s.Tracks obs ν i n r) (name : ν k = some x)
    (position : Nat) (fact : Fact) (about : fact.isAboutPointee = false)
    (plain : fact.target? = none) (literal : Bool) :
    ∃ t, (∀ {α : Type} (next : Unit → CollectM α),
        (if literal = true then next () else constrain x position fact >>= next : CollectM α) s =
          next () t) ∧
      t.Tracks (obs ++ if literal = true then [] else [.tells k fact]) ν i n r ∧
      s.Continues ν t ν := by
  cases literal with
  | true => exact ⟨s, fun _ => rfl, by simpa using tr, .refl s ν⟩
  | false =>
    obtain ⟨t, run, rest⟩ := tell_tracks tr name position fact about plain
    exact ⟨t, fun _ => bind_of_ok run, rest⟩

/-- An operation on bits is collected. -/
lemma bitwise_collects {operator : BitOperator} {lhs rhs : Operand} {width : UInt8}
    (act : op.action = .bitwise operator lhs rhs width)
    (tr : s.Tracks obs ν op.position 0 op.position) (known : lhs.Known obs)
    (known' : rhs.Known obs) : Collects memory op s obs := by
  obtain ⟨x, s₁, ν₁, run₁, tr₁, _, left⟩ := operand_tracks tr known
  obtain ⟨y, s₂, ν₂, run₂, tr₂, co₂, right⟩ := operand_tracks tr₁ known'.append
  obtain ⟨v, s₃, ν₃, run₃, tr₃, co₃, result⟩ := expression_tracks tr₂
  obtain ⟨s₄, run₄, tr₄, _⟩ := tell_tracks tr₃ result op.position (.bitwise width) rfl rfl
  obtain ⟨s₅, run₅, tr₅, _⟩ := tellUnless_tracks tr₄ (co₃.names (co₂.names left)) op.position
    (.bitwise width) rfl rfl lhs.isLiteral
  obtain ⟨s₆, run₆, tr₆, _⟩ := tellUnless_tracks tr₅ (co₃.names right) op.position
    (.bitwise width) rfl rfl rhs.isLiteral
  refine .of_result ?_ (by simpa [act, Action.observations] using tr₆) result (by rw [act]; rfl)
  rw [action, act]
  simp only [bind_of_ok run₁, bind_of_ok run₂, bind_of_ok run₃, bind_of_ok run₄]
  exact (run₅ _).trans (run₆ _)

/-- A call is collected. -/
lemma call_collects {target : Operand} {args : List Operand} {resultUsed : Bool}
    (act : op.action = .call target args resultUsed)
    (tr : s.Tracks obs ν op.position 0 op.position) (known : target.Known obs)
    (known' : ∀ arg ∈ args, arg.Known obs) : Collects memory op s obs := by
  obtain ⟨x, s₁, ν₁, run₁, tr₁, _, name⟩ := operand_tracks tr known
  obtain ⟨code, s₂, run₂, tr₂, _, points⟩ := pointee_tracks tr₁ name op.position
  obtain ⟨vs, s₃, ν₃, n, run₃, tr₃, co₃⟩ :=
    operands_tracks tr₂ fun arg mem => (known' arg mem).append.append
  obtain ⟨v, s₄, ν₄, run₄, tr₄, co₄, result⟩ := expression_tracks tr₃
  obtain ⟨s₅, run₅, tr₅, _⟩ := note_tracks tr₄ (co₄.names (co₃.names name))
    (co₄.holds (co₃.holds points)) op.position
    (.callSite ⟨vs, if resultUsed then some v else none⟩) rfl rfl fun _ => Operand.isSegment_value
  refine .of_result ?_ (by simpa [act, Action.observations] using tr₅) result (by rw [act]; rfl)
  rw [action, act]
  simp only [bind_of_ok run₁, bind_of_ok run₂, bind_of_ok run₃, bind_of_ok run₄]
  exact bind_of_ok run₅

/-- Every action is collected, unless it strays. -/
lemma action_collects (tr : s.Tracks obs ν op.position 0 op.position)
    (known : ∀ operand ∈ op.action.reads, operand.Known obs)
    (fits : ∀ address, ¬ op.action.Strays memory address) : Collects memory op s obs := by
  cases act : op.action with
  | literal value width => exact literal_collects act tr
  | copy source =>
    rw [act] at known
    exact copy_collects act tr (known source (by simp [Action.reads]))
  | load base offset width =>
    rw [act] at known fits
    exact load_collects act tr (known base (by simp [Action.reads])) fits
  | store base offset width value =>
    rw [act] at known fits
    exact store_collects act tr (known base (by simp [Action.reads]))
      (known value (by simp [Action.reads])) fits
  | index base subscript offset stride width =>
    rw [act] at known fits
    exact index_collects act tr (known base (by simp [Action.reads]))
      (known subscript (by simp [Action.reads])) fits
  | advance direction moved step width =>
    rw [act] at known
    exact advance_collects act tr (known moved (by simp [Action.reads]))
  | compare operator lhs rhs =>
    rw [act] at known
    exact compare_collects act tr (known lhs (by simp [Action.reads]))
      (known rhs (by simp [Action.reads]))
  | bitwise operator lhs rhs width =>
    rw [act] at known
    exact bitwise_collects act tr (known lhs (by simp [Action.reads]))
      (known rhs (by simp [Action.reads]))
  | call target args resultUsed =>
    rw [act] at known
    exact call_collects act tr (known target List.mem_cons_self)
      fun arg mem => known arg (List.mem_cons_of_mem _ mem)

/-- An action that strays fails, whatever it reads before. -/
lemma action_strays {address : UInt64} (tr : s.Tracks obs ν op.position 0 op.position)
    (known : ∀ operand ∈ op.action.reads, operand.Known obs)
    (strays : op.action.Strays memory address) :
    ∃ t, action memory op s = .error (.addressOutOfRange op.position address) t := by
  cases act : op.action with
  | load base offset width =>
    rw [act] at strays
    refine ⟨s, ?_⟩
    rw [action, act]
    exact bind_of_error (accessBase_strays strays s)
  | store base offset width value =>
    rw [act] at known strays
    obtain ⟨y, s₁, ν₁, run₁, tr₁, _, written⟩ :=
      operand_tracks tr (known value (by simp [Action.reads]))
    obtain ⟨s₂, run₂, _⟩ := tell_tracks tr₁ written op.position (.size width) rfl rfl
    refine ⟨s₂, ?_⟩
    rw [action, act]
    simp only [bind_of_ok run₁, bind_of_ok run₂]
    exact bind_of_error (accessBase_strays strays s₂)
  | index base subscript offset stride width =>
    rw [act] at known strays
    obtain ⟨y, s₁, ν₁, run₁, tr₁, _, counter⟩ :=
      operand_tracks tr (known subscript (by simp [Action.reads]))
    obtain ⟨s₂, run₂, _⟩ := tell_tracks tr₁ counter op.position .counter rfl rfl
    refine ⟨s₂, ?_⟩
    rw [action, act]
    simp only [bind_of_ok run₁, bind_of_ok run₂]
    exact bind_of_error (accessBase_strays strays s₂)
  | literal | copy | advance | compare | bitwise | call =>
    rw [act] at strays
    exact strays.elim

/-! ## Operations -/

/-- The result of an operation is noted. -/
lemma note_result_tracks {q : Option VarId}
    (tr : s.Tracks obs ν i n (i + 1)) (result : q = ν (.result i)) :
    Tracks { s with results := s.results.push q } obs ν (i + 1) 0 (i + 1) := by
  have tb := tr.tables
  have here : s.results.size = i := tb.position
  refine ⟨tr.reflects, ?_, tb.storage, tb.address, tb.segment, ?_, ?_, tb.results⟩
  · simp [here]
  · intro j lt
    rw [Array.getElem?_push]
    split
    · rename_i e
      rw [e, here, result]
    · exact tb.result (by omega)
  · intro j m later
    apply tb.literals
    omega

/-- An operation is collected, unless it strays. -/
lemma operation_tracks (tr : s.Tracks obs ν op.position 0 op.position)
    (known : ∀ operand ∈ op.action.reads, operand.Known obs)
    (fits : ∀ address, ¬ op.action.Strays memory address) :
    ∃ t ν', operation memory op s = .ok () t ∧
      t.Tracks (obs ++ op.observations memory) ν' (op.position + 1) 0 (op.position + 1) := by
  obtain ⟨q, m, ν', n, run, tracks, result, has⟩ := action_collects tr known fits
  rw [Operation.observations, operation, bind_of_ok run, ← has]
  have noted := note_result_tracks tracks result
  rw [← List.append_nil (op.action.observations memory op.position)] at noted
  cases op.destination with
  | none => exact ⟨_, ν', rfl, noted⟩
  | some name =>
    cases q with
    | none => exact ⟨_, ν', rfl, noted⟩
    | some v =>
      obtain ⟨x, m₁, ν₁, run₁, tr₁, co₁, stored⟩ := storage_tracks tracks name
      obtain ⟨m₂, run₂, tr₂, _⟩ := unify_tracks tr₁ stored (co₁.names result.symm)
      have noted := note_result_tracks tr₂ (co₁.names result.symm).symm
      rw [List.append_assoc, List.append_assoc] at noted
      refine ⟨_, ν₁, ?_, noted⟩
      exact (bind_of_ok run₁).trans (bind_of_ok run₂)

/-- An operation that strays fails with its position and the address. -/
lemma operation_strays {address : UInt64} (tr : s.Tracks obs ν op.position 0 op.position)
    (known : ∀ operand ∈ op.action.reads, operand.Known obs)
    (strays : op.action.Strays memory address) :
    ∃ t, operation memory op s = .error (.addressOutOfRange op.position address) t := by
  obtain ⟨t, run⟩ := action_strays tr known strays
  exact ⟨t, bind_of_error run⟩

end

end CollectM

/-! ## Traces -/

/-- Operations stand at their positions, and read the results of earlier operations only. -/
def WellPlaced (operations : List Operation) : Prop :=
  ∀ {before op after}, operations = before ++ op :: after → op.position = before.length ∧
    ∀ target, .result target ∈ op.action.reads →
      ∃ earlier ∈ before, earlier.position = target.toNat ∧ earlier.action.hasResult = true

/-- An operation that has a result is observed to use it. -/
lemma Operation.uses_result {op : Operation} (memory : MemoryMap)
    (result : op.action.hasResult = true) :
    .uses (.result op.position) ∈ op.observations memory := by
  apply List.mem_append_left
  cases act : op.action with
  | store => rw [act] at result; cases result
  | _ => simp [Action.observations]

/-- What an operation reads is known from the operations before it. -/
lemma WellPlaced.known {operations before after : List Operation} {op : Operation}
    (placed : WellPlaced operations) (split : operations = before ++ op :: after)
    (memory : MemoryMap) :
    ∀ operand ∈ op.action.reads, operand.Known (before.flatMap (·.observations memory)) := by
  rintro operand mem target rfl
  obtain ⟨earlier, here, position, result⟩ := (placed split).2 target mem
  rw [← position]
  exact List.mem_flatMap.2 ⟨earlier, here, Operation.uses_result memory result⟩

namespace CollectM

open Collection

section
variable {operations before after : List Operation} {memory : MemoryMap}

/-- A walk over two lists goes on from where the first one ended. -/
lemma forM_append_of_ok {step : Operation → CollectM Unit} {s t : Collection}
    (run : before.forM step s = .ok () t) :
    (before ++ after).forM step s = after.forM step t := by
  show (forM (before ++ after) step : CollectM Unit) s = _
  rw [List.forM_append]
  exact bind_of_ok run

/-- Operations that do not stray are collected one after the other. -/
lemma walk_tracks (placed : WellPlaced operations) (split : operations = before ++ after)
    (fits : ∀ op ∈ before, ∀ address, ¬ op.action.Strays memory address) :
    ∃ s ν, before.forM (operation memory) (start .empty) = .ok () s ∧
      s.Tracks (before.flatMap (·.observations memory)) ν before.length 0 before.length := by
  induction before using List.reverseRecOn generalizing after with
  | nil => exact ⟨start .empty, _, rfl, start_tracks⟩
  | append_singleton before op ih =>
    rw [List.append_assoc] at split
    obtain ⟨s, ν, run, tr⟩ := ih split fun earlier mem => fits earlier (List.mem_append_left _ mem)
    have position := (placed split).1
    rw [← position] at tr
    obtain ⟨t, ν', run', tr'⟩ := operation_tracks tr (placed.known split memory)
      (fits op (List.mem_append_right _ List.mem_cons_self))
    refine ⟨t, ν', ?_, ?_⟩
    · rw [forM_append_of_ok run]
      exact bind_of_ok run'
    · rw [List.flatMap_append, List.length_append, ← position]
      simpa using tr'

/-- The first operation that strays ends the walk. -/
lemma walk_strays {op : Operation} {address : UInt64} (placed : WellPlaced operations)
    (split : operations = before ++ op :: after)
    (fits : ∀ earlier ∈ before, ∀ address, ¬ earlier.action.Strays memory address)
    (strays : op.action.Strays memory address) :
    ∃ t, operations.forM (operation memory) (start .empty) =
      .error (.addressOutOfRange op.position address) t := by
  obtain ⟨s, ν, run, tr⟩ := walk_tracks placed split fits
  rw [← (placed split).1] at tr
  obtain ⟨t, run'⟩ := operation_strays tr (placed.known split memory) strays
  refine ⟨t, ?_⟩
  rw [split, forM_append_of_ok run]
  exact bind_of_error run'

end

end CollectM

end TypeRecovery
