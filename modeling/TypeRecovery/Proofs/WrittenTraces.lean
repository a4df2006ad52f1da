import TypeRecovery.Proofs.Ingestion
import TypeRecovery.Trace.Builder

/-!
# Written traces

A builder is given one command after the other. What the trace should say is read off the commands
alone, without records: `actions`, `destinations` and `addresses`. The records that a builder holds
are those of `recordsFrom` (`records_write`). Each of them passes its check because the command that
wrote it was in order where it stood (`Valid.check`), so the trace says what was written.
-/

namespace TypeRecovery

/-! ## The record of an action -/

namespace Action

/-- The kind of the record that stands for an action. -/
def kind : Action → RecordKind
  | .literal .. => .literal
  | .copy _ => .copy
  | .load .. => .load
  | .store .. => .store
  | .index .. => .index
  | .advance .add .. => .add
  | .advance .sub .. => .sub
  | .compare .. => .compare
  | .bitwise .. => .bitwise
  | .call .. => .call

/-- Widths and strides are not zero, and the arguments can be counted. -/
def Measured : Action → Prop
  | .literal _ width => width ≠ 0
  | .copy _ => True
  | .load _ _ width => width ≠ 0
  | .store _ _ width _ => width ≠ 0
  | .index _ _ _ stride width => stride ≠ 0 ∧ width ≠ 0
  | .advance _ _ _ width => width ≠ 0
  | .compare .. => True
  | .bitwise _ _ _ width => width ≠ 0
  | .call _ args _ => (args.length : Int) ≤ Int64.maxValue.toInt

instance : DecidablePred Measured
  | .literal _ width => inferInstanceAs (Decidable (width ≠ 0))
  | .copy _ => inferInstanceAs (Decidable True)
  | .load _ _ width => inferInstanceAs (Decidable (width ≠ 0))
  | .store _ _ width _ => inferInstanceAs (Decidable (width ≠ 0))
  | .index _ _ _ stride width => inferInstanceAs (Decidable (stride ≠ 0 ∧ width ≠ 0))
  | .advance _ _ _ width => inferInstanceAs (Decidable (width ≠ 0))
  | .compare .. => inferInstanceAs (Decidable True)
  | .bitwise _ _ _ width => inferInstanceAs (Decidable (width ≠ 0))
  | .call _ args _ => inferInstanceAs (Decidable ((args.length : Int) ≤ Int64.maxValue.toInt))

section
variable (a : Action) (address : UInt64)

/-- The record of an action is at the given address. -/
@[simp] lemma address_toRecord : (a.toRecord address).address = address := by
  cases a with
  | advance direction => cases direction <;> rfl
  | _ => rfl

/-- The record of an action has its kind. -/
@[simp] lemma kind_toRecord : (a.toRecord address).kind = some a.kind := by
  cases a with
  | advance direction => cases direction <;> rfl
  | _ => rfl

/-- The record of an action has as its operands what the action reads. -/
@[simp] lemma operands_toRecord : (a.toRecord address).operands = a.reads := by
  cases a with
  | advance direction => cases direction <;> rfl
  | _ => rfl

/-- The record of an action has no destination yet. -/
@[simp] lemma destination_toRecord : (a.toRecord address).destination = none := by
  cases a with
  | advance direction => cases direction <;> rfl
  | _ => rfl

end

/-- The record of an action is read back as the action. -/
lemma Measured.action_toRecord {a : Action} (measured : a.Measured) (address : UInt64) :
    (a.toRecord address).action a.kind = .ok a := by
  cases a with
  | literal value width =>
    refine except_bind_eq_ok.2 ⟨(), TraceRecord.noOperands_eq_ok.2 rfl, ?_⟩
    refine except_bind_eq_ok.2 ⟨value, TraceRecord.require_eq_ok.2 rfl, ?_⟩
    exact except_bind_eq_ok.2 ⟨width, TraceRecord.requireWidth_eq_ok.2 ⟨rfl, measured⟩, rfl⟩
  | copy source => exact except_bind_eq_ok.2 ⟨source, TraceRecord.oneOperand_eq_ok.2 rfl, rfl⟩
  | load base offset width =>
    refine except_bind_eq_ok.2 ⟨base, TraceRecord.oneOperand_eq_ok.2 rfl, ?_⟩
    exact except_bind_eq_ok.2 ⟨width, TraceRecord.requireWidth_eq_ok.2 ⟨rfl, measured⟩, rfl⟩
  | store base offset width value =>
    refine except_bind_eq_ok.2 ⟨(base, value), TraceRecord.twoOperands_eq_ok.2 rfl, ?_⟩
    exact except_bind_eq_ok.2 ⟨width, TraceRecord.requireWidth_eq_ok.2 ⟨rfl, measured⟩, rfl⟩
  | index base subscript offset stride width =>
    refine except_bind_eq_ok.2 ⟨(base, subscript), TraceRecord.twoOperands_eq_ok.2 rfl, ?_⟩
    refine except_bind_eq_ok.2 ⟨stride, TraceRecord.requireStride_eq_ok.2 ⟨rfl, measured.1⟩, ?_⟩
    exact except_bind_eq_ok.2 ⟨width, TraceRecord.requireWidth_eq_ok.2 ⟨rfl, measured.2⟩, rfl⟩
  | advance direction operand step width =>
    cases direction <;>
    · refine except_bind_eq_ok.2 ⟨operand, TraceRecord.oneOperand_eq_ok.2 rfl, ?_⟩
      refine except_bind_eq_ok.2 ⟨step, TraceRecord.require_eq_ok.2 rfl, ?_⟩
      exact except_bind_eq_ok.2 ⟨width, TraceRecord.requireWidth_eq_ok.2 ⟨rfl, measured⟩, rfl⟩
  | compare operator lhs rhs =>
    refine except_bind_eq_ok.2 ⟨(lhs, rhs), TraceRecord.twoOperands_eq_ok.2 rfl, ?_⟩
    exact except_bind_eq_ok.2 ⟨operator, TraceRecord.require_eq_ok.2 rfl, rfl⟩
  | bitwise operator lhs rhs width =>
    refine except_bind_eq_ok.2 ⟨(lhs, rhs), TraceRecord.twoOperands_eq_ok.2 rfl, ?_⟩
    refine except_bind_eq_ok.2 ⟨operator, TraceRecord.require_eq_ok.2 rfl, ?_⟩
    exact except_bind_eq_ok.2 ⟨width, TraceRecord.requireWidth_eq_ok.2 ⟨rfl, measured⟩, rfl⟩
  | call target args resultUsed =>
    have count : (Int64.ofNat args.length).toInt = args.length :=
      Int64.toInt_ofNat_of_lt (Int.ofNat_lt.1 (Int.lt_of_le_of_lt measured (by decide)))
    have nonneg : 0 ≤ Int64.ofNat args.length := by
      rw [Int64.le_iff_toInt_le, count]
      exact Int.natCast_nonneg _
    have called : (toRecord address (.call target args resultUsed)).callOperands =
        .ok (target, args) :=
      TraceRecord.callOperands_eq_ok.2 ⟨rfl, _, rfl, nonneg, by rw [count, Int.toNat_natCast]⟩
    exact except_bind_eq_ok.2 ⟨(target, args), called, rfl⟩

end Action

/-- Where the result of a record goes is no matter to what the record does. -/
lemma TraceRecord.action_routed (r : TraceRecord) (kind : RecordKind)
    (destination : Option Operand) : { r with destination }.action kind = r.action kind := by
  cases kind <;> rfl

namespace TraceBuilder

/-! ## Commands -/

/-- What a builder can be told to do; every action is written by a command of its own. -/
inductive Command where
  | setAddress (address : UInt64)
  | emit (a : Action)
  | assign (name : String)

namespace Command

def perform (b : TraceBuilder) : Command → TraceBuilder
  | .setAddress address => b.setAddress address
  | .emit a => b.emit a
  | .assign name => b.assign name

/-- The operand that a command returns, if any. -/
def returns (b : TraceBuilder) : Command → Option Operand
  | .setAddress _ => none
  | .emit a => if a.hasResult then some (b.emit a).lastResult else none
  | .assign name => some (.storage name)

end Command

/-- The builder after some commands. -/
def write (commands : List Command) : TraceBuilder :=
  commands.foldl Command.perform empty

/-! ## What the commands say -/

/-- The actions that are written. -/
def actions : List Command → List Action
  | [] => []
  | .setAddress _ :: rest => actions rest
  | .emit a :: rest => a :: actions rest
  | .assign _ :: rest => actions rest

/-- The last name that is assigned before the next action. -/
def assigned : List Command → Option String
  | [] => none
  | .setAddress _ :: rest => assigned rest
  | .emit _ :: _ => none
  | .assign name :: rest => (assigned rest).or (some name)

/-- Where the result of each action goes. -/
def destinations : List Command → List (Option String)
  | [] => []
  | .setAddress _ :: rest => destinations rest
  | .emit _ :: rest => assigned rest :: destinations rest
  | .assign _ :: rest => destinations rest

/-- The address of each action if the next one is at `next`. -/
def addresses (next : Nat) : List Command → List Nat
  | [] => []
  | .setAddress address :: rest => addresses address.toNat rest
  | .emit _ :: rest => next :: addresses (next + 1) rest
  | .assign _ :: rest => addresses next rest

/-- The operands that a builder returns, one command after the other. -/
def returned (b : TraceBuilder) : List Command → List Operand
  | [] => []
  | c :: rest => (c.returns b).toList ++ returned (c.perform b) rest

/-- The operand can be read after the given commands: a literal has a width, and a result was
returned by one of them. -/
def Available (before : List Command) : Operand → Prop
  | .storage _ => True
  | .literal _ width => width ≠ 0
  | .address _ => True
  | .result position => .result position ∈ returned empty before

instance (before : List Command) : DecidablePred (Available before)
  | .storage _ => inferInstanceAs (Decidable True)
  | .literal _ width => inferInstanceAs (Decidable (width ≠ 0))
  | .address _ => inferInstanceAs (Decidable True)
  | .result position => inferInstanceAs (Decidable (.result position ∈ returned empty before))

/-- The command is in order after the given ones. Only an action with a result can be assigned. -/
def Command.Follows (before : List Command) : Command → Prop
  | .setAddress _ => True
  | .emit a => a.Measured ∧ ∀ operand ∈ a.reads, Available before operand
  | .assign _ => ∀ a ∈ (actions before).getLast?, a.hasResult = true

instance (before : List Command) : DecidablePred (Command.Follows before)
  | .setAddress _ => inferInstanceAs (Decidable True)
  | .emit a =>
    inferInstanceAs (Decidable (a.Measured ∧ ∀ operand ∈ a.reads, Available before operand))
  | .assign _ => inferInstanceAs (Decidable (∀ a ∈ (actions before).getLast?, a.hasResult = true))

/-- Every command is in order where it stands. -/
def Valid (commands : List Command) : Prop :=
  ∀ i : Fin commands.length, commands[i].Follows (commands.take i)

instance (commands : List Command) : Decidable (Valid commands) :=
  inferInstanceAs (Decidable (∀ i : Fin commands.length, commands[i].Follows (commands.take i)))

/-- A valid command is in order after those before it. -/
lemma Valid.follows {before after : List Command} {c : Command}
    (valid : Valid (before ++ c :: after)) : c.Follows before := by
  have here := valid ⟨before.length, by simp⟩
  simpa using here

section
variable {before after commands : List Command}

/-- The actions of two lists of commands are those of the one and then those of the other. -/
lemma actions_append : actions (before ++ after) = actions before ++ actions after := by
  induction before with
  | nil => rfl
  | cons c rest ih => cases c <;> simp [actions, ih]

/-- A name that is assigned is assigned by a command, with no action before it. -/
lemma exists_of_assigned {name : String} (given : assigned commands = some name) :
    ∃ before after name', commands = before ++ .assign name' :: after ∧ actions before = [] := by
  induction commands with
  | nil => cases given
  | cons c rest ih =>
    cases c with
    | setAddress address =>
      obtain ⟨before, after, name', rfl, silent⟩ := ih given
      exact ⟨.setAddress address :: before, after, name', rfl, silent⟩
    | emit a => cases given
    | assign name' => exact ⟨[], rest, name', rfl, rfl⟩

end

/-! ## The records of a builder -/

/-- The records that are written if the next one is at `next`. -/
def recordsFrom (next : UInt64) : List Command → List TraceRecord
  | [] => []
  | .setAddress address :: rest => recordsFrom address rest
  | .emit a :: rest =>
    { a.toRecord next with destination := (assigned rest).map .storage } ::
      recordsFrom (next + 1) rest
  | .assign _ :: rest => recordsFrom next rest

/-- Let the result of the last record go to the given storage, if any. -/
def routed (records : List TraceRecord) : Option String → List TraceRecord
  | none => records
  | some name =>
    records.modify (records.length - 1) fun r => { r with destination := some (.storage name) }

/-- A later name replaces an earlier one. -/
lemma routed_routed (records : List TraceRecord) (later : Option String) (name : String) :
    routed (routed records (some name)) later = routed records (later.or (some name)) := by
  cases later with
  | none => rfl
  | some name' =>
    rw [routed, routed, List.length_modify, List.modify_modify_eq]
    rfl

/-- The name goes to the last record. -/
lemma routed_concat (records : List TraceRecord) {r : TraceRecord} (name : Option String)
    (unrouted : r.destination = none) :
    routed (records ++ [r]) name = records ++ [{ r with destination := name.map .storage }] := by
  cases name with
  | none =>
    rw [routed, Option.map_none, ← unrouted]
  | some name => simp [routed, List.modify_eq_take_drop]

/-- A record that is pushed at the next address counts it up by one. -/
lemma push_eq {b : TraceBuilder} {r : TraceRecord} (here : r.address = b.nextAddress) :
    b.push r = ⟨b.records.push r, b.nextAddress + 1⟩ := by
  rw [push, here, ite_self, ← here]

/-- Commands add their records, and a name that comes before all actions goes to the last record
before them. -/
lemma records_foldl (commands : List Command) (b : TraceBuilder) :
    (commands.foldl Command.perform b).records.toList =
      routed b.records.toList (assigned commands) ++ recordsFrom b.nextAddress commands := by
  -- the records that are there already change in the last one only, and only before the next action
  induction commands generalizing b with
  | nil => exact (List.append_nil _).symm
  | cons c rest ih =>
    rw [List.foldl_cons, ih]
    cases c with
    | setAddress address => rfl
    | emit a =>
      rw [Command.perform, emit, push_eq (a.address_toRecord _), Array.toList_push,
        routed_concat _ _ (a.destination_toRecord _), List.append_assoc]
      rfl
    | assign name =>
      have last : (b.assign name).records.toList = routed b.records.toList (some name) := by
        rw [assign, Array.toList_modify, routed, Array.length_toList]
      rw [Command.perform, last, routed_routed]
      rfl

/-- The records of a builder are those that the commands say. -/
lemma records_write (commands : List Command) :
    (write commands).records.toList = recordsFrom 0 commands := by
  rw [write, records_foldl]
  cases assigned commands <;> rfl

/-- There is one record for each action. -/
lemma length_recordsFrom (next : UInt64) (commands : List Command) :
    (recordsFrom next commands).length = (actions commands).length := by
  induction commands generalizing next with
  | nil => rfl
  | cons c rest ih => cases c <;> simp [recordsFrom, actions, ih]

/-- An operand that was returned was returned by one of the commands. -/
lemma split_of_mem_returned {b : TraceBuilder} {commands : List Command} {operand : Operand}
    (mem : operand ∈ returned b commands) :
    ∃ earlier c later, commands = earlier ++ c :: later ∧
      c.returns (earlier.foldl Command.perform b) = some operand := by
  induction commands generalizing b with
  | nil => cases mem
  | cons c rest ih =>
    rcases List.mem_append.1 mem with here | after
    · exact ⟨[], c, rest, rfl, Option.mem_toList.1 here⟩
    · obtain ⟨earlier, c', later, rfl, returns⟩ := ih after
      exact ⟨c :: earlier, c', later, rfl, returns⟩

/-- A command that returns a result writes an action, and the result has the position of it. -/
lemma emit_of_returns {earlier : List Command} {c : Command} {position : UInt64}
    (returns : c.returns (write earlier) = some (.result position)) :
    ∃ a, c = .emit a ∧ a.hasResult = true ∧
      position = UInt64.ofNat (actions earlier).length := by
  cases c with
  | setAddress address => cases returns
  | assign name => cases returns
  | emit a =>
    rw [Command.returns] at returns
    split at returns
    · rename_i produces
      rw [emit, push_eq (a.address_toRecord _), lastResult, Array.size_push, Nat.add_sub_cancel,
        ← Array.length_toList, records_write, length_recordsFrom] at returns
      cases returns
      exact ⟨a, rfl, produces, rfl⟩
    · cases returns

/-! ## The operations of a written trace -/

/-- The operations that are written if the next one has the given position and address. -/
def operationsFrom (position : Nat) (next : UInt64) : List Command → List Operation
  | [] => []
  | .setAddress address :: rest => operationsFrom position address rest
  | .emit a :: rest =>
    ⟨position, next, a, assigned rest⟩ :: operationsFrom (position + 1) (next + 1) rest
  | .assign _ :: rest => operationsFrom position next rest

section
variable {commands before after rest : List Command} {operations : List Operation} {a : Action}

/-- A result that was returned is there when it is read. -/
lemma producesAt_of_returns (small : (actions before).length ≤ UInt64.size)
    (acted : operations.map Operation.action = actions before) {position : UInt64}
    (available : Available before (.result position)) :
    Trace.producesAt operations.toArray position.toNat = true := by
  obtain ⟨earlier, c, later, rfl, returns⟩ := split_of_mem_returned available
  obtain ⟨a, rfl, produces, rfl⟩ := emit_of_returns returns
  rw [actions_append, actions] at small acted
  have fits : (actions earlier).length < UInt64.size := by
    rw [List.length_append, List.length_cons] at small
    omega
  have here : (operations.map Operation.action)[(actions earlier).length]? = some a := by
    rw [acted]
    simp
  rw [List.getElem?_map, Option.map_eq_some_iff] at here
  obtain ⟨op, here, rfl⟩ := here
  rw [UInt64.toNat_ofNat_of_lt' fits, Trace.producesAt, List.getElem?_toArray, here]
  exact produces

/-- The operands of a valid action pass their checks. -/
lemma checkOperand_of_available (small : (actions before).length ≤ UInt64.size)
    (acted : operations.map Operation.action = actions before) {operand : Operand}
    (available : Available before operand) :
    TraceRecord.checkOperand (Trace.producesAt operations.toArray) operand = .ok () := by
  cases operand with
  | storage name => rfl
  | literal value width => exact if_neg available
  | address place => rfl
  | result position => exact if_pos (producesAt_of_returns small acted available)

/-- Only an action with a result is assigned to storage. -/
lemma Valid.hasResult (valid : Valid (before ++ .emit a :: rest)) (given : assigned rest ≠ none) :
    a.hasResult = true := by
  obtain ⟨name, given⟩ := Option.ne_none_iff_exists'.1 given
  obtain ⟨between, after, name', rfl, silent⟩ := exists_of_assigned given
  have follows : Command.Follows (before ++ .emit a :: between) (.assign name') :=
    @Valid.follows _ after _ (by simpa using valid)
  refine follows a ?_
  rw [actions_append, actions, silent, List.getLast?_concat]
  rfl

/-- The record of a valid action passes its check. -/
lemma Valid.check (valid : Valid (before ++ .emit a :: rest))
    (small : (actions before).length ≤ UInt64.size)
    (acted : operations.map Operation.action = actions before) (next : UInt64) :
    TraceRecord.check { a.toRecord next with destination := (assigned rest).map .storage }
      operations.length (Trace.producesAt operations.toArray) =
      .ok ⟨operations.length, next, a, assigned rest⟩ := by
  obtain ⟨measured, available⟩ := valid.follows
  refine TraceRecord.check_eq_ok.2 ⟨a.kind, a.kind_toRecord next, ?_, ?_, ?_, rfl,
    (a.address_toRecord next).symm⟩
  · intro operand mem
    exact checkOperand_of_available small acted (available operand (a.operands_toRecord next ▸ mem))
  · rw [TraceRecord.action_routed]
    exact measured.action_toRecord next
  · refine TraceRecord.destinationName_eq_ok.2 ⟨rfl, fun given => valid.hasResult ?_⟩
    rintro none
    exact given (by rw [none]; rfl)

/-- The records that are still to be written pass their checks after those that are written. -/
lemma Valid.ingests (valid : Valid (before ++ after))
    (small : (actions (before ++ after)).length ≤ UInt64.size)
    (acted : operations.map Operation.action = actions before) {records : List TraceRecord}
    (ing : Trace.Ingests records operations) (next : UInt64) :
    Trace.Ingests (records ++ recordsFrom next after)
      (operations ++ operationsFrom operations.length next after) := by
  induction after generalizing before operations records next with
  | nil => rwa [recordsFrom, operationsFrom, List.append_nil, List.append_nil]
  | cons c rest ih =>
    have split : before ++ c :: rest = before ++ [c] ++ rest := List.append_cons ..
    cases c with
    | setAddress address =>
      rw [split] at valid small
      refine ih valid small ?_ ing address
      rw [acted, actions_append, actions, actions, List.append_nil]
    | assign name =>
      rw [split] at valid small
      refine ih valid small ?_ ing next
      rw [acted, actions_append, actions, actions, List.append_nil]
    | emit a =>
      have shorter : (actions before).length ≤ UInt64.size := by
        rw [actions_append, List.length_append] at small
        omega
      have longer := Trace.Ingests.snoc ing (valid.check shorter acted next)
      rw [split] at valid small
      have rest_ingests := ih valid small ?_ longer (next + 1)
      · rw [List.length_append, List.length_singleton, ← List.append_cons, ← List.append_cons]
          at rest_ingests
        exact rest_ingests
      · rw [List.map_append, acted, actions_append]
        rfl

end

/-- The operations have the actions that were written. -/
lemma map_action_operationsFrom (position : Nat) (next : UInt64) (commands : List Command) :
    (operationsFrom position next commands).map Operation.action = actions commands := by
  induction commands generalizing position next with
  | nil => rfl
  | cons c rest ih => cases c <;> simp [operationsFrom, actions, ih]

/-- The operations have the destinations that were assigned. -/
lemma map_destination_operationsFrom (position : Nat) (next : UInt64) (commands : List Command) :
    (operationsFrom position next commands).map Operation.destination = destinations commands := by
  induction commands generalizing position next with
  | nil => rfl
  | cons c rest ih => cases c <;> simp [operationsFrom, destinations, ih]

/-- The operations stand at consecutive positions. -/
lemma map_position_operationsFrom (position : Nat) (next : UInt64) (commands : List Command) :
    (operationsFrom position next commands).map Operation.position =
      List.range' position (actions commands).length := by
  induction commands generalizing position next with
  | nil => rfl
  | cons c rest ih => cases c <;> simp [operationsFrom, actions, ih, List.range'_succ]

/-- The operations have the addresses that were set or counted up. -/
lemma map_address_operationsFrom {next : UInt64} {commands : List Command}
    (below : ∀ r ∈ recordsFrom next commands, r.address.toNat + 1 < UInt64.size) (position : Nat) :
    (operationsFrom position next commands).map (·.address.toNat) =
      addresses next.toNat commands := by
  induction commands generalizing position next with
  | nil => rfl
  | cons c rest ih =>
    cases c with
    | setAddress address => exact ih below position
    | assign name => exact ih below position
    | emit a =>
      rw [recordsFrom, List.forall_mem_cons] at below
      have here : next.toNat + 1 < UInt64.size := a.address_toRecord next ▸ below.1
      have succ : (next + 1).toNat = next.toNat + 1 := by
        rw [UInt64.toNat_add]
        exact Nat.mod_eq_of_lt here
      rw [operationsFrom, List.map_cons, ih below.2, succ, addresses]

/-- A builder that was given valid commands builds a trace, if positions fit a machine word and no
record is at the last address. The trace has one operation for each action that was written: the
action itself, with the last name assigned before the next action as its destination, at the
address that was set, or else one above the address before. -/
theorem build_write {commands : List Command} (valid : Valid commands)
    (small : (actions commands).length ≤ UInt64.size)
    (below : ∀ r ∈ (write commands).records, r.address.toNat + 1 < UInt64.size) :
    ∃ t, (write commands).build = .ok t ∧
      t.operations.map Operation.action = actions commands ∧
      t.operations.map Operation.destination = destinations commands ∧
      t.operations.map (·.address.toNat) = addresses 0 commands ∧
      t.operations.map Operation.position = List.range (actions commands).length := by
  have ing : Trace.Ingests (recordsFrom 0 commands) (operationsFrom 0 0 commands) :=
    @Valid.ingests [] commands [] valid small rfl [] .nil 0
  refine ⟨⟨operationsFrom 0 0 commands⟩, ?_, map_action_operationsFrom ..,
    map_destination_operationsFrom .., ?_, ?_⟩
  · rw [build, records_write, ing.ingest_eq]
  · refine map_address_operationsFrom (fun r mem => below r ?_) 0
    rwa [← Array.mem_toList_iff, records_write]
  · rw [map_position_operationsFrom, List.range_eq_range']

/-- A field is read and tested, the outcome is written back, and a function is called. -/
def fieldCommands : List Command :=
  [.setAddress 0x400000, .emit (.load (.storage "R0") 8 4), .assign "R1", .assign "R2",
    .emit (.compare .ne (.result 0) (.literal 0 4)), .setAddress 0x400010,
    .emit (.store (.storage "R0") 0 4 (.result 1)),
    .emit (.call (.address 0x1000) [.result 0] false)]

/-- The commands build a trace of four operations, the first of which has the name that was assigned
last. -/
theorem build_fieldCommands :
    Valid fieldCommands ∧ ∃ t, (write fieldCommands).build = .ok t ∧
      t.operations.map Operation.action =
        [.load (.storage "R0") 8 4, .compare .ne (.result 0) (.literal 0 4),
          .store (.storage "R0") 0 4 (.result 1), .call (.address 0x1000) [.result 0] false] ∧
      t.operations.map Operation.destination = [some "R2", none, none, none] ∧
      t.operations.map (·.address.toNat) = [0x400000, 0x400001, 0x400010, 0x400011] ∧
      t.operations.map Operation.position = [0, 1, 2, 3] :=
  have valid : Valid fieldCommands := by decide
  ⟨valid, build_write valid (by decide) (by decide)⟩

end TraceBuilder

end TypeRecovery
