import TypeRecovery.Proofs.Ingestion
import TypeRecovery.Proofs.Stages

/-!
# Valid traces are analyzed

An analysis of ingested operations fails only where an access at a fixed address strays, and then
with the first such access (`run_error_iff_strays`). The collection fails nowhere else, what it leaves
behind is closed and resolved without failing, and no element was observed with a stride of zero.
-/

namespace TypeRecovery

/-! ## Strides -/

/-- The stride of an indexed access. -/
def Action.stride? : Action → Option UInt32
  | .index _ _ _ stride _ => some stride
  | _ => none

/-- The stride of an observed element. -/
def Observation.stride? : Observation → Option UInt32
  | .accesses _ (.element _ stride _) _ => some stride
  | _ => none

/-- The strides of observed elements. -/
def strides (obs : List Observation) : List UInt32 :=
  obs.filterMap (·.stride?)

section
variable {memory : MemoryMap} {position slot : Nat}

/-- The strides of two lists of observations are those of the one and then those of the other. -/
@[simp] lemma strides_append (obs more : List Observation) :
    strides (obs ++ more) = strides obs ++ strides more :=
  List.filterMap_append

/-- The strides of some observations are that of the first one and then those of the others. -/
@[simp] lemma strides_cons (o : Observation) (obs : List Observation) :
    strides (o :: obs) = o.stride?.toList ++ strides obs := by
  cases h : o.stride? <;> simp [strides, h]

/-- Where nothing is observed, there are no strides. -/
@[simp] lemma strides_nil : strides [] = [] := rfl

/-- What is told of a value has no stride. -/
@[simp] lemma strides_tells (v : Value) (facts : List Fact) :
    strides (facts.map (.tells v)) = [] := by
  induction facts with
  | nil => rfl
  | cons fact facts ih => simp [Observation.stride?, ih]

/-- Reading an operand has no stride. -/
@[simp] lemma Operand.strides_observations {operand : Operand} :
    strides (operand.observations position slot) = [] := by
  cases operand <;> rfl

/-- Reading operands has no stride. -/
@[simp] lemma Operand.strides_observationsFrom {operands : List Operand} :
    strides (observationsFrom position slot operands) = [] := by
  induction operands generalizing slot with
  | nil => rfl
  | cons operand operands ih => simp [observationsFrom, ih]

/-- An access through a base has no stride before it gets to its part. -/
@[simp] lemma Operand.strides_baseObservations {base : Operand} {offset : Int64} :
    strides (base.baseObservations memory position slot offset) = [] := by
  cases base <;> rfl

/-- Only indexed accesses have strides. -/
lemma Action.strides_observations {action : Action} :
    strides (action.observations memory position) = action.stride?.toList := by
  cases action with
  | bitwise operator lhs rhs width =>
    cases left : lhs.isLiteral <;> cases right : rhs.isLiteral <;>
      simp [observations, left, right, stride?, Observation.stride?]
  | _ => simp [observations, stride?, Observation.stride?]

/-- An operation is observed with the stride of its action. -/
lemma Operation.strides_observations {op : Operation} :
    strides (op.observations memory) = op.action.stride?.toList := by
  rw [observations, strides_append, Action.strides_observations]
  split <;> simp [Observation.stride?]

/-- An observed element has the stride of the operation that accesses it. -/
lemma Operation.stride?_of_mem {op : Operation} {p v : Value} {offset : Int64} {stride : UInt32}
    {width : UInt8} (mem : .accesses p (.element offset stride width) v ∈ op.observations memory) :
    op.action.stride? = some stride := by
  have observed : stride ∈ strides (op.observations memory) :=
    List.mem_filterMap.2 ⟨_, mem, rfl⟩
  rwa [Operation.strides_observations, Option.mem_toList] at observed

end

/-! ## Collecting ingested operations -/

namespace Trace

variable {records : List TraceRecord} {t : Trace} {memory : MemoryMap}

/-- Operations that do not stray are collected, with all that they observe. -/
lemma collect_of_fits (ingested : ingest records = .ok t)
    (fits : ∀ op ∈ t.operations, ∀ address, ¬ op.action.Strays memory address) :
    ∃ s ν n, ArenaM.collect memory t .empty = .ok s s.arena ∧
      s.Tracks (t.observations memory) ν n 0 n := by
  have split : t.operations = t.operations ++ [] := (List.append_nil _).symm
  obtain ⟨s, ν, run, tracks⟩ :=
    CollectM.walk_tracks (ingests_of_ingest ingested).wellPlaced split fits
  refine ⟨s, ν, _, ?_, tracks⟩
  rw [ArenaM.collect, CollectM.trace, run]

/-- The first operation that strays ends the collection. -/
lemma collect_of_strays {before after : List Operation} {op : Operation} {address : UInt64}
    (ingested : ingest records = .ok t) (split : t.operations = before ++ op :: after)
    (fits : ∀ earlier ∈ before, ∀ place, ¬ earlier.action.Strays memory place)
    (strays : op.action.Strays memory address) :
    ∃ a, ArenaM.collect memory t .empty = .error (.addressOutOfRange op.position address) a := by
  obtain ⟨s, run⟩ :=
    CollectM.walk_strays (ingests_of_ingest ingested).wellPlaced split fits strays
  refine ⟨s.arena, ?_⟩
  rw [ArenaM.collect, CollectM.trace, run]

/-- No element is collected with a stride of zero. -/
lemma stride_ne_zero {a : Arena} {script : Script} {ν : Naming} (ingested : ingest records = .ok t)
    (ga : script.Gathers a) (ac : script.Accounts (t.observations memory) ν) {v : VarId}
    {access : ElementAccess} (holds : a.Holds v (.element access)) : access.stride ≠ 0 := by
  have part : Fact.element access =
      Part.fact (.element access.offset access.stride access.width) access.value := rfl
  obtain ⟨p, q, k, _, _, _, observed⟩ := (ac.explains (ga.holds_iff.1 holds)).part part
  obtain ⟨op, mem, observed⟩ := List.mem_flatMap.1 observed
  have stride := Operation.stride?_of_mem observed
  cases act : op.action with
  | index base subscript offset stride' width =>
    rw [act] at stride
    cases stride
    exact (ingests_of_ingest ingested).stride_ne_zero mem act
  | _ =>
    rw [act] at stride
    cases stride

end Trace

/-! ## The analysis -/

namespace Analysis

variable {records : List TraceRecord} {t : Trace}

/-- An analysis of operations that do not stray succeeds. -/
lemma run_of_fits (ingested : Trace.ingest records = .ok t) {memory : MemoryMap}
    (fits : ∀ op ∈ t.operations, ∀ address, ¬ op.action.Strays memory address) (config : Config)
    (function : String) (start : Arena) : ∃ l d, run memory config function t start = .ok l d := by
  obtain ⟨s, ν, n, collected, tracks⟩ := Trace.collect_of_fits ingested fits
  -- the one failure that is left to the stages after the collection is a stride of zero
  obtain ⟨script, ga, ac⟩ := tracks.reflects
  have concludes : Concludes False _ (run memory config function t start) :=
    run_concludes collected fun v access holds => Trace.stride_ne_zero ingested ga ac holds
  generalize run memory config function t start = result at concludes
  cases concludes with
  | ok => exact ⟨_, _, rfl⟩
  | error fails => exact fails.elim

/-- An analysis of records that do not stray succeeds. -/
lemma runRecords_of_fits (ingested : Trace.ingest records = .ok t) {memory : MemoryMap}
    (fits : ∀ op ∈ t.operations, ∀ address, ¬ op.action.Strays memory address) (config : Config)
    (function : String) (start : Arena) :
    ∃ l d, runRecords memory config function records start = .ok l d := by
  rw [runRecords, ingested]
  exact run_of_fits ingested fits config function start

/-- An analysis fails at the first operation that strays, with the address that it strays to. -/
lemma run_of_strays {before after : List Operation} {op : Operation} {address : UInt64}
    {memory : MemoryMap} (ingested : Trace.ingest records = .ok t)
    (split : t.operations = before ++ op :: after)
    (fits : ∀ earlier ∈ before, ∀ place, ¬ earlier.action.Strays memory place)
    (strays : op.action.Strays memory address) (config : Config) (function : String)
    (start : Arena) :
    ∃ d, run memory config function t start =
      .error (.addressOutOfRange op.position address) d := by
  obtain ⟨a, failed⟩ := Trace.collect_of_strays ingested split fits strays
  have reset : ArenaM.reset start = .ok () .empty := rfl
  refine ⟨a, ?_⟩
  rw [run, bind_of_ok reset, bind_of_error failed]

/-- Where an operation strays, there is a first one that does. -/
lemma exists_first_strays {memory : MemoryMap} {operations : List Operation}
    (strays : ∃ op ∈ operations, ∃ address, op.action.Strays memory address) :
    ∃ before op after, operations = before ++ op :: after ∧
      (∀ earlier ∈ before, ∀ place, ¬ earlier.action.Strays memory place) ∧
      ∃ address, op.action.Strays memory address := by
  induction operations with
  | nil =>
    obtain ⟨_, mem, _⟩ := strays
    cases mem
  | cons first rest ih =>
    by_cases here : ∃ address, first.action.Strays memory address
    · exact ⟨[], first, rest, rfl, by simp, here⟩
    · obtain ⟨op, mem, address, out⟩ := strays
      rcases List.mem_cons.1 mem with rfl | mem
      · exact (here ⟨address, out⟩).elim
      · obtain ⟨before, op, after, rfl, fits, out⟩ := ih ⟨op, mem, address, out⟩
        refine ⟨first :: before, op, after, rfl, ?_, out⟩
        rw [List.forall_mem_cons]
        exact ⟨not_exists.1 here, fits⟩

/-- What an analysis that succeeds has collected, and what its listing is made from. -/
lemma collected_of_run {memory : MemoryMap} {config : Config} {function : String} {start d : Arena}
    {l : Listing} (ingested : Trace.ingest records = .ok t)
    (ran : run memory config function t start = .ok l d) :
    ∃ (s : Collection) (a : Arena) (log : List Constraint) (c : Arena) (remarks : List Remark)
      (script : Script) (ν : Naming), ArenaM.collect memory t .empty = .ok s a ∧
      Lists config a log c d remarks ∧ l = Listing.ofArena function d remarks ∧
      script.Gathers a ∧ script.Accounts (t.observations memory) ν ∧
      ∀ op ∈ t.operations, ∀ address, ¬ op.action.Strays memory address := by
  obtain ⟨s, a, log, c, remarks, collected, lists, e⟩ := lists_of_run ran
  have fits : ∀ op ∈ t.operations, ∀ address, ¬ op.action.Strays memory address := by
    intro op mem address out
    obtain ⟨before, op, after, split, fits, address, out⟩ :=
      exists_first_strays ⟨op, mem, address, out⟩
    obtain ⟨a', failed⟩ := Trace.collect_of_strays ingested split fits out
    rw [collected] at failed
    cases failed
  obtain ⟨s', ν, n, collected', tracks⟩ := Trace.collect_of_fits ingested fits
  rw [collected] at collected'
  cases collected'
  obtain ⟨script, ga, ac⟩ := tracks.reflects
  exact ⟨s, _, log, c, remarks, script, ν, collected, lists, e, ga, ac, fits⟩

/-- What the listing of an analysis that succeeds was observed from. -/
lemma observed_of_run {memory : MemoryMap} {config : Config} {function : String} {start d : Arena}
    {l : Listing} (ingested : Trace.ingest records = .ok t)
    (ran : run memory config function t start = .ok l d) :
    ∃ (a : Arena) (log : List Constraint) (c : Arena) (remarks : List Remark) (script : Script)
      (ν : Naming), Lists config a log c d remarks ∧ l = Listing.ofArena function d remarks ∧
      script.Gathers a ∧ script.Accounts (t.observations memory) ν ∧
      ∀ op ∈ t.operations, ∀ address, ¬ op.action.Strays memory address := by
  obtain ⟨_, a, log, c, remarks, script, ν, _, observed⟩ := collected_of_run ingested ran
  exact ⟨a, log, c, remarks, script, ν, observed⟩

/-- An analysis of ingested operations fails exactly if an access at a fixed address strays, and the
failure names the first such access. -/
theorem run_error_iff_strays (ingested : Trace.ingest records = .ok t) (memory : MemoryMap)
    (config : Config) (function : String) (start : Arena) :
    ((∃ e d, run memory config function t start = .error e d) ↔
      ∃ op ∈ t.operations, ∃ address, op.action.Strays memory address) ∧
    ∀ e d, run memory config function t start = .error e d →
      ∃ before op after address, t.operations = before ++ op :: after ∧
        (∀ earlier ∈ before, ∀ place, ¬ earlier.action.Strays memory place) ∧
        op.action.Strays memory address ∧ op.position = before.length ∧
        e = .addressOutOfRange op.position address := by
  by_cases strays : ∃ op ∈ t.operations, ∃ address, op.action.Strays memory address
  · obtain ⟨before, op, after, split, fits, address, out⟩ := exists_first_strays strays
    obtain ⟨d, ran⟩ := run_of_strays ingested split fits out config function start
    refine ⟨⟨fun _ => strays, fun _ => ⟨_, d, ran⟩⟩, fun e d' ran' => ?_⟩
    rw [ran] at ran'
    cases ran'
    have position := (Trace.ingests_of_ingest ingested).position split
    exact ⟨before, op, after, address, split, fits, out, position, rfl⟩
  · have fits : ∀ op ∈ t.operations, ∀ address, ¬ op.action.Strays memory address :=
      fun op mem address out => strays ⟨op, mem, address, out⟩
    obtain ⟨l, d, ran⟩ := run_of_fits ingested fits config function start
    have succeeds : ∀ e d', run memory config function t start ≠ .error e d' := by
      intro e d' ran'
      rw [ran] at ran'
      cases ran'
    exact ⟨⟨fun ⟨e, d', ran'⟩ => (succeeds e d' ran').elim, fun out => (strays out).elim⟩,
      fun e d' ran' => (succeeds e d' ran').elim⟩

/-- A store to a fixed address, and a load one byte below the address zero: it wraps around to the
last address, which lies in no segment. -/
def wrappedRecords : List TraceRecord :=
  [{ kind := some .store, operands := [.address 16, .literal 1 4], width := some 4 },
    { kind := some .load, operands := [.address 0], offset := some (-1), width := some 1,
      destination := some (.storage "al") }]

def wrappedTrace : Trace :=
  ⟨[⟨0, 0, .store (.address 16) 0 4 (.literal 1 4), none⟩,
    ⟨1, 0, .load (.address 0) (-1) 1, some "al"⟩]⟩

/-- The wrapped load strays, so the analysis fails. -/
theorem run_error_iff_strays_wrapped : Trace.ingest wrappedRecords = .ok wrappedTrace ∧
    ∃ e d, run .empty .lp64 "wrapped" wrappedTrace .empty = .error e d := by
  have ingested : Trace.ingest wrappedRecords = .ok wrappedTrace := rfl
  refine ⟨ingested, (run_error_iff_strays ingested .empty .lp64 "wrapped" .empty).1.2 ?_⟩
  have last : 2 ^ 63 ≤ (MemoryMap.empty.locate (0 + (-1 : Int64).toUInt64)).offset.toNat := by
    decide
  exact ⟨_, List.mem_cons_of_mem _ List.mem_cons_self, _, 0, rfl, rfl, last⟩

end Analysis

end TypeRecovery
