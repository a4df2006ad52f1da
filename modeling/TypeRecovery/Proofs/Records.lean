import Mathlib.Data.List.Basic
import TypeRecovery.Trace.Record

/-!
# Well-formed records

What a record has to provide depends on its kind: how many operands (`RecordKind.arity`) and which
fields (`RecordKind.fields`). The checks accept a record exactly if it is well formed, and the
operation that they make of it has the kind and the fields of the record (`WellFormed.exists_check`,
`wellFormed_and_becomes_of_check`).
-/

namespace TypeRecovery

/-- A sequence of checks passes if each of them does. -/
lemma except_bind_eq_ok {ε α β : Type} {x : Except ε α} {f : α → Except ε β} {b : β} :
    x >>= f = .ok b ↔ ∃ a, x = .ok a ∧ f a = .ok b := by
  cases x <;> simp [bind, Except.bind]

/-- A check of every member of a list passes if it passes for each of them. -/
lemma except_forM_eq_ok {ε α : Type} {f : α → Except ε Unit} {l : List α} :
    l.forM f = .ok () ↔ ∀ x ∈ l, f x = .ok () := by
  induction l with
  | nil => simp [List.forM, pure, Except.pure]
  | cons x l ih =>
    rw [List.forM, except_bind_eq_ok, List.forall_mem_cons]
    constructor
    · rintro ⟨_, first, rest⟩
      exact ⟨first, ih.1 rest⟩
    · rintro ⟨first, rest⟩
      exact ⟨(), first, ih.2 rest⟩

/-! ## What a kind of record asks for -/

namespace RecordKind

/-- How many operands a record of the kind has; those of a call depend on its argument count. -/
def arity (argCount : Option Int64) : RecordKind → Nat
  | .literal => 0
  | .copy | .load | .add | .sub => 1
  | .store | .index | .compare | .bitwise => 2
  | .call => (argCount.getD 0).toInt.toNat + 1

/-- The fields that a record of the kind has to provide. -/
def fields : RecordKind → List RecordField
  | .copy => []
  | .literal => [.value, .width]
  | .load | .store => [.width]
  | .index => [.stride, .width]
  | .add | .sub => [.step, .width]
  | .compare => [.comparison]
  | .bitwise => [.bitOperator, .width]
  | .call => [.argCount]

end RecordKind

/-- The kind of a record that goes on in a direction. -/
def Direction.recordKind : Direction → RecordKind
  | .add => .add
  | .sub => .sub

/-- An advance has one operand, whatever its direction. -/
@[simp] lemma RecordKind.arity_advance (direction : Direction) (argCount : Option Int64) :
    direction.recordKind.arity argCount = 1 := by
  cases direction <;> rfl

/-- An advance asks for a step and a width, whatever its direction. -/
@[simp] lemma RecordKind.fields_advance (direction : Direction) :
    direction.recordKind.fields = [.step, .width] := by
  cases direction <;> rfl

namespace TraceRecord

/-- The field is there, and its value can be used. -/
def Provides (r : TraceRecord) : RecordField → Prop
  | .kind => r.kind ≠ none
  | .value => r.value ≠ none
  | .width => ∃ width, r.width = some width ∧ width ≠ 0
  | .stride => ∃ stride, r.stride = some stride ∧ stride ≠ 0
  | .step => r.step ≠ none
  | .comparison => r.comparison ≠ none
  | .bitOperator => r.bitOperator ≠ none
  | .argCount => ∃ count, r.argCount = some count ∧ 0 ≤ count

/-- The operands and fields are those that the kind asks for. -/
structure Serves (r : TraceRecord) (kind : RecordKind) : Prop where
  arity : r.operands.length = kind.arity r.argCount
  fields : ∀ field ∈ kind.fields, r.Provides field

/-- The action has the given kind and the fields of the record; a missing offset is zero. -/
inductive Denotes (r : TraceRecord) : RecordKind → Action → Prop
  | literal {value width} : r.value = some value → r.width = some width →
    Denotes r .literal (.literal value width)
  | copy {source} : r.operands = [source] → Denotes r .copy (.copy source)
  | load {base width} : r.operands = [base] → r.width = some width →
    Denotes r .load (.load base (r.offset.getD 0) width)
  | store {base value width} : r.operands = [base, value] → r.width = some width →
    Denotes r .store (.store base (r.offset.getD 0) width value)
  | index {base subscript stride width} : r.operands = [base, subscript] →
    r.stride = some stride → r.width = some width →
    Denotes r .index (.index base subscript (r.offset.getD 0) stride width)
  | add {operand step width} : r.operands = [operand] → r.step = some step →
    r.width = some width → Denotes r .add (.advance .add operand step width)
  | sub {operand step width} : r.operands = [operand] → r.step = some step →
    r.width = some width → Denotes r .sub (.advance .sub operand step width)
  | compare {operator lhs rhs} : r.operands = [lhs, rhs] → r.comparison = some operator →
    Denotes r .compare (.compare operator lhs rhs)
  | bitwise {operator lhs rhs width} : r.operands = [lhs, rhs] → r.bitOperator = some operator →
    r.width = some width → Denotes r .bitwise (.bitwise operator lhs rhs width)
  | call {target args} : r.operands = target :: args →
    Denotes r .call (.call target args r.resultUsed)

/-! ## Single checks -/

section
variable {r : TraceRecord} {kind : RecordKind} {action : Action}

/-- The check for a field passes if the field is there. -/
lemma require_eq_ok {α : Type} {field : RecordField} {x : Option α} {a : α} :
    require field x = .ok a ↔ x = some a := by
  cases x <;> simp [require]

/-- The check of the width passes if it is there and not zero. -/
lemma requireWidth_eq_ok {width : UInt8} :
    r.requireWidth = .ok width ↔ r.width = some width ∧ width ≠ 0 := by
  rw [requireWidth]
  cases r.width with
  | none => simp
  | some w => by_cases zero : w = 0 <;> simp [zero] <;> grind

/-- The check of the stride passes if it is there and not zero. -/
lemma requireStride_eq_ok {stride : UInt32} :
    r.requireStride = .ok stride ↔ r.stride = some stride ∧ stride ≠ 0 := by
  rw [requireStride]
  cases r.stride with
  | none => simp
  | some s => by_cases zero : s = 0 <;> simp [zero] <;> grind

/-- The check for no operands passes if there are none. -/
lemma noOperands_eq_ok : r.noOperands = .ok () ↔ r.operands = [] := by
  rw [noOperands]
  split <;> simp_all

/-- The check for one operand passes if there is one and no other. -/
lemma oneOperand_eq_ok {a : Operand} : r.oneOperand = .ok a ↔ r.operands = [a] := by
  rw [oneOperand]
  split <;> simp_all

/-- The check for two operands passes if there are two and no other. -/
lemma twoOperands_eq_ok {a b : Operand} : r.twoOperands = .ok (a, b) ↔ r.operands = [a, b] := by
  rw [twoOperands]
  split <;> simp_all

/-- The check of a call passes if it has a target and as many arguments as it counts. -/
lemma callOperands_eq_ok {target : Operand} {args : List Operand} :
    r.callOperands = .ok (target, args) ↔ r.operands = target :: args ∧
      ∃ count, r.argCount = some count ∧ 0 ≤ count ∧ args.length = count.toInt.toNat := by
  rw [callOperands, except_bind_eq_ok]
  simp only [require_eq_ok]
  constructor
  · rintro ⟨count, counted, ok⟩
    by_cases negative : count < 0
    · simp only [if_pos negative] at ok
      cases ok
    · simp only [if_neg negative] at ok
      cases operands : r.operands with
      | nil =>
        simp only [operands] at ok
        cases ok
      | cons first rest =>
        simp only [operands] at ok
        split at ok
        · rename_i count_eq
          cases ok
          exact ⟨rfl, count, counted, Int64.not_lt.1 negative, Nat.succ.inj count_eq⟩
        · cases ok
  · rintro ⟨operands, count, counted, nonneg, length⟩
    refine ⟨count, counted, ?_⟩
    simp only [if_neg (Int64.not_lt.2 nonneg), operands, length, if_true]
    rfl

/-! ## Advances

A record that adds and one that subtracts differ in the direction alone. -/

/-- Advances in either direction are checked alike. -/
lemma action_advance (direction : Direction) :
    r.action direction.recordKind = (do
      let operand ← r.oneOperand
      let step ← require .step r.step
      return .advance direction operand step (← r.requireWidth)) := by
  cases direction <;> rfl

/-- An advance denotes a move by its step in its direction. -/
lemma Denotes.advance (direction : Direction) {operand : Operand} {step : Int64} {width : UInt8}
    (one : r.operands = [operand]) (stepped : r.step = some step) (wide : r.width = some width) :
    r.Denotes direction.recordKind (.advance direction operand step width) := by
  cases direction with
  | add => exact .add one stepped wide
  | sub => exact .sub one stepped wide

/-- A record that passes the checks of an advance has what an advance asks for, and becomes one. -/
lemma serves_and_denotes_of_advance (direction : Direction)
    (ok : r.action direction.recordKind = .ok action) :
    r.Serves direction.recordKind ∧ r.Denotes direction.recordKind action := by
  rw [action_advance] at ok
  obtain ⟨operand, one, ok⟩ := except_bind_eq_ok.1 ok
  obtain ⟨step, stepped, ok⟩ := except_bind_eq_ok.1 ok
  obtain ⟨width, wide, ok⟩ := except_bind_eq_ok.1 ok
  rw [oneOperand_eq_ok] at one
  rw [require_eq_ok] at stepped
  rw [requireWidth_eq_ok] at wide
  cases ok
  refine ⟨⟨by simp [one], ?_⟩, .advance direction one stepped wide.1⟩
  simp [Provides, stepped, wide]

/-- A record that has what an advance asks for passes its checks. -/
lemma Serves.exists_advance (direction : Direction) (serves : r.Serves direction.recordKind) :
    ∃ action, r.action direction.recordKind = .ok action := by
  have arity := serves.arity
  have fields := serves.fields
  simp only [RecordKind.arity_advance, RecordKind.fields_advance] at arity fields
  obtain ⟨operand, one⟩ := List.length_eq_one_iff.1 arity
  obtain ⟨step, stepped⟩ := Option.ne_none_iff_exists'.1 (fields .step (by decide))
  obtain ⟨width, wide⟩ := fields .width (by decide)
  refine ⟨.advance direction operand step width, ?_⟩
  rw [action_advance, oneOperand_eq_ok.2 one, require_eq_ok.2 stepped, requireWidth_eq_ok.2 wide]
  rfl

/-! ## Actions -/

/-- A record that passes the checks of a kind has what the kind asks for, and becomes an action of
it. -/
lemma serves_and_denotes_of_action (ok : r.action kind = .ok action) :
    r.Serves kind ∧ r.Denotes kind action := by
  cases kind with
  | literal =>
    obtain ⟨_, none, ok⟩ := except_bind_eq_ok.1 ok
    obtain ⟨value, valued, ok⟩ := except_bind_eq_ok.1 ok
    obtain ⟨width, wide, ok⟩ := except_bind_eq_ok.1 ok
    rw [noOperands_eq_ok] at none
    rw [require_eq_ok] at valued
    rw [requireWidth_eq_ok] at wide
    cases ok
    refine ⟨⟨by simp [none, RecordKind.arity], ?_⟩, .literal valued wide.1⟩
    simp [RecordKind.fields, Provides, valued, wide]
  | copy =>
    obtain ⟨source, one, ok⟩ := except_bind_eq_ok.1 ok
    rw [oneOperand_eq_ok] at one
    cases ok
    exact ⟨⟨by simp [one, RecordKind.arity], by simp [RecordKind.fields]⟩, .copy one⟩
  | load =>
    obtain ⟨base, one, ok⟩ := except_bind_eq_ok.1 ok
    obtain ⟨width, wide, ok⟩ := except_bind_eq_ok.1 ok
    rw [oneOperand_eq_ok] at one
    rw [requireWidth_eq_ok] at wide
    cases ok
    refine ⟨⟨by simp [one, RecordKind.arity], ?_⟩, .load one wide.1⟩
    simp [RecordKind.fields, Provides, wide]
  | store =>
    obtain ⟨⟨base, value⟩, two, ok⟩ := except_bind_eq_ok.1 ok
    obtain ⟨width, wide, ok⟩ := except_bind_eq_ok.1 ok
    rw [twoOperands_eq_ok] at two
    rw [requireWidth_eq_ok] at wide
    cases ok
    refine ⟨⟨by simp [two, RecordKind.arity], ?_⟩, .store two wide.1⟩
    simp [RecordKind.fields, Provides, wide]
  | index =>
    obtain ⟨⟨base, subscript⟩, two, ok⟩ := except_bind_eq_ok.1 ok
    obtain ⟨stride, strided, ok⟩ := except_bind_eq_ok.1 ok
    obtain ⟨width, wide, ok⟩ := except_bind_eq_ok.1 ok
    rw [twoOperands_eq_ok] at two
    rw [requireStride_eq_ok] at strided
    rw [requireWidth_eq_ok] at wide
    cases ok
    refine ⟨⟨by simp [two, RecordKind.arity], ?_⟩, .index two strided.1 wide.1⟩
    simp [RecordKind.fields, Provides, strided, wide]
  | add => exact serves_and_denotes_of_advance .add ok
  | sub => exact serves_and_denotes_of_advance .sub ok
  | compare =>
    obtain ⟨⟨lhs, rhs⟩, two, ok⟩ := except_bind_eq_ok.1 ok
    obtain ⟨operator, compared, ok⟩ := except_bind_eq_ok.1 ok
    rw [twoOperands_eq_ok] at two
    rw [require_eq_ok] at compared
    cases ok
    refine ⟨⟨by simp [two, RecordKind.arity], ?_⟩, .compare two compared⟩
    simp [RecordKind.fields, Provides, compared]
  | bitwise =>
    obtain ⟨⟨lhs, rhs⟩, two, ok⟩ := except_bind_eq_ok.1 ok
    obtain ⟨operator, combined, ok⟩ := except_bind_eq_ok.1 ok
    obtain ⟨width, wide, ok⟩ := except_bind_eq_ok.1 ok
    rw [twoOperands_eq_ok] at two
    rw [require_eq_ok] at combined
    rw [requireWidth_eq_ok] at wide
    cases ok
    refine ⟨⟨by simp [two, RecordKind.arity], ?_⟩, .bitwise two combined wide.1⟩
    simp [RecordKind.fields, Provides, combined, wide]
  | call =>
    obtain ⟨⟨target, args⟩, called, ok⟩ := except_bind_eq_ok.1 ok
    obtain ⟨operands, count, counted, nonneg, length⟩ := callOperands_eq_ok.1 called
    cases ok
    refine ⟨⟨?_, by simp [RecordKind.fields, Provides, counted, nonneg]⟩, .call operands⟩
    rw [operands, RecordKind.arity, counted, List.length_cons, length, Option.getD_some]

/-- A record that has what a kind asks for passes the checks of the kind. -/
lemma Serves.exists_action (serves : r.Serves kind) : ∃ action, r.action kind = .ok action := by
  cases kind with
  | literal =>
    have none := List.length_eq_zero_iff.1 serves.arity
    obtain ⟨value, valued⟩ := Option.ne_none_iff_exists'.1 (serves.fields .value (by decide))
    obtain ⟨width, wide⟩ := serves.fields .width (by decide)
    refine ⟨.literal value width, ?_⟩
    rw [TraceRecord.action, noOperands_eq_ok.2 none, require_eq_ok.2 valued,
      requireWidth_eq_ok.2 wide]
    rfl
  | copy =>
    obtain ⟨source, one⟩ := List.length_eq_one_iff.1 serves.arity
    refine ⟨.copy source, ?_⟩
    rw [TraceRecord.action, oneOperand_eq_ok.2 one]
    rfl
  | load =>
    obtain ⟨base, one⟩ := List.length_eq_one_iff.1 serves.arity
    obtain ⟨width, wide⟩ := serves.fields .width (by decide)
    refine ⟨.load base r.displacement width, ?_⟩
    rw [TraceRecord.action, oneOperand_eq_ok.2 one, requireWidth_eq_ok.2 wide]
    rfl
  | store =>
    obtain ⟨base, value, two⟩ := List.length_eq_two.1 serves.arity
    obtain ⟨width, wide⟩ := serves.fields .width (by decide)
    refine ⟨.store base r.displacement width value, ?_⟩
    rw [TraceRecord.action, twoOperands_eq_ok.2 two, requireWidth_eq_ok.2 wide]
    rfl
  | index =>
    obtain ⟨base, subscript, two⟩ := List.length_eq_two.1 serves.arity
    obtain ⟨stride, strided⟩ := serves.fields .stride (by decide)
    obtain ⟨width, wide⟩ := serves.fields .width (by decide)
    refine ⟨.index base subscript r.displacement stride width, ?_⟩
    rw [TraceRecord.action, twoOperands_eq_ok.2 two, requireStride_eq_ok.2 strided,
      requireWidth_eq_ok.2 wide]
    rfl
  | add => exact serves.exists_advance .add
  | sub => exact serves.exists_advance .sub
  | compare =>
    obtain ⟨lhs, rhs, two⟩ := List.length_eq_two.1 serves.arity
    obtain ⟨operator, compared⟩ :=
      Option.ne_none_iff_exists'.1 (serves.fields .comparison (by decide))
    refine ⟨.compare operator lhs rhs, ?_⟩
    rw [TraceRecord.action, twoOperands_eq_ok.2 two, require_eq_ok.2 compared]
    rfl
  | bitwise =>
    obtain ⟨lhs, rhs, two⟩ := List.length_eq_two.1 serves.arity
    obtain ⟨operator, combined⟩ :=
      Option.ne_none_iff_exists'.1 (serves.fields .bitOperator (by decide))
    obtain ⟨width, wide⟩ := serves.fields .width (by decide)
    refine ⟨.bitwise operator lhs rhs width, ?_⟩
    rw [TraceRecord.action, twoOperands_eq_ok.2 two, require_eq_ok.2 combined,
      requireWidth_eq_ok.2 wide]
    rfl
  | call =>
    obtain ⟨count, counted, nonneg⟩ := serves.fields .argCount (by decide)
    have arity := serves.arity
    rw [RecordKind.arity, counted, Option.getD_some] at arity
    obtain ⟨target, args, operands⟩ := List.exists_cons_of_length_eq_add_one arity
    rw [operands, List.length_cons, Nat.add_right_cancel_iff] at arity
    refine ⟨.call target args r.resultUsed, ?_⟩
    rw [TraceRecord.action, callOperands_eq_ok.2 ⟨operands, count, counted, nonneg, arity⟩]
    rfl

/-- An operation reads what its record lists. -/
lemma reads_of_action (ok : r.action kind = .ok action) : action.reads = r.operands := by
  obtain ⟨serves, denotes⟩ := serves_and_denotes_of_action ok
  cases denotes with
  | literal => exact (List.length_eq_zero_iff.1 serves.arity).symm
  | copy operands => exact operands.symm
  | load operands => exact operands.symm
  | store operands => exact operands.symm
  | index operands => exact operands.symm
  | add operands => exact operands.symm
  | sub operands => exact operands.symm
  | compare operands => exact operands.symm
  | bitwise operands => exact operands.symm
  | call operands => exact operands.symm

/-- An access to elements has a stride that is not zero. -/
lemma stride_of_action {base subscript : Operand} {offset : Int64} {stride : UInt32}
    {width : UInt8} (ok : r.action kind = .ok (.index base subscript offset stride width)) :
    stride ≠ 0 := by
  obtain ⟨serves, denotes⟩ := serves_and_denotes_of_action ok
  cases denotes with
  | index _ strided _ =>
    obtain ⟨found, there, nonzero⟩ := serves.fields .stride (by decide)
    cases there.symm.trans strided
    exact nonzero

/-- All actions but stores have results. -/
lemma hasResult_of_action (ok : r.action kind = .ok action) :
    action.hasResult = true ↔ kind ≠ .store := by
  cases (serves_and_denotes_of_action ok).2 <;> simp [Action.hasResult]

/-! ## Whole records -/

/-- The check of the destination passes if there is none, or if it is a storage location and there
is a result to go there. -/
lemma destinationName_eq_ok {name : Option String} :
    r.destinationName action = .ok name ↔
      name.map .storage = r.destination ∧ (r.destination ≠ none → action.hasResult = true) := by
  rw [destinationName]
  cases r.destination with
  | none => cases name <;> simp
  | some operand =>
    cases produces : action.hasResult with
    | false => simp
    | true => cases operand <;> cases name <;> simp [eq_comm]

/-- A record passes if its kind is there and the operands, the action and the destination pass. -/
lemma check_eq_ok {position : Nat} {hasResult : Nat → Bool} {op : Operation} :
    r.check position hasResult = .ok op ↔ ∃ kind, r.kind = some kind ∧
      (∀ operand ∈ r.operands, checkOperand hasResult operand = .ok ()) ∧
      r.action kind = .ok op.action ∧ r.destinationName op.action = .ok op.destination ∧
      op.position = position ∧ op.address = r.address := by
  rw [check]
  constructor
  · intro ok
    obtain ⟨kind, required, ok⟩ := except_bind_eq_ok.1 ok
    obtain ⟨_, operands, ok⟩ := except_bind_eq_ok.1 ok
    obtain ⟨action, acted, ok⟩ := except_bind_eq_ok.1 ok
    obtain ⟨destination, named, ok⟩ := except_bind_eq_ok.1 ok
    cases ok
    exact ⟨kind, require_eq_ok.1 required, except_forM_eq_ok.1 operands, acted, named, rfl, rfl⟩
  · rintro ⟨kind, required, operands, acted, named, rfl, address⟩
    refine except_bind_eq_ok.2 ⟨kind, require_eq_ok.2 required, ?_⟩
    refine except_bind_eq_ok.2 ⟨(), except_forM_eq_ok.2 operands, ?_⟩
    refine except_bind_eq_ok.2 ⟨op.action, acted, ?_⟩
    refine except_bind_eq_ok.2 ⟨op.destination, named, ?_⟩
    rw [← address]
    rfl

/-- The operand is one that a record after the given ones may have. -/
def Fits (earlier : List TraceRecord) : Operand → Prop
  | .storage _ => True
  | .address _ => True
  | .literal _ width => width ≠ 0
  | .result target => ∃ r, earlier[target.toNat]? = some r ∧ r.kind ≠ some .store

/-- The record is a record of the kind, after the given ones, that lacks nothing. -/
structure WellFormedAs (earlier : List TraceRecord) (r : TraceRecord) (kind : RecordKind) : Prop
    extends r.Serves kind where
  kind_eq : r.kind = some kind
  operands : ∀ operand ∈ r.operands, Fits earlier operand
  destination : ∀ operand, r.destination = some operand →
    kind ≠ .store ∧ ∃ name, operand = .storage name

/-- The record lacks nothing after the given ones. -/
def WellFormed (earlier : List TraceRecord) (r : TraceRecord) : Prop :=
  ∃ kind, WellFormedAs earlier r kind

/-- The operation has the given position and everything else from the record. -/
structure Becomes (r : TraceRecord) (position : Nat) (op : Operation) : Prop where
  position : op.position = position
  address : op.address = r.address
  destination : op.destination.map .storage = r.destination
  action : ∃ kind, r.kind = some kind ∧ r.Denotes kind op.action

section
variable {earlier : List TraceRecord} {position : Nat} {hasResult : Nat → Bool} {op : Operation}
  (known : ∀ target, hasResult target = true ↔
    ∃ r, earlier[target]? = some r ∧ r.kind ≠ some .store)
include known

/-- The check of an operand passes if it is one that the record may have. -/
lemma checkOperand_eq_ok {operand : Operand} :
    checkOperand hasResult operand = .ok () ↔ Fits earlier operand := by
  cases operand with
  | storage | address => simp [checkOperand, Fits]
  | literal _ width => simp [checkOperand, Fits]
  | result target =>
    rw [Fits, ← known, checkOperand]
    split <;> simp_all

/-- Only well-formed records are accepted, and they become what they say. -/
lemma wellFormed_and_becomes_of_check (ok : r.check position hasResult = .ok op) :
    WellFormed earlier r ∧ r.Becomes position op := by
  obtain ⟨kind, kind_eq, operands, acted, named, position, address⟩ := check_eq_ok.1 ok
  obtain ⟨serves, denotes⟩ := serves_and_denotes_of_action acted
  obtain ⟨destination, produces⟩ := destinationName_eq_ok.1 named
  refine ⟨⟨kind, serves, kind_eq, ?_, ?_⟩, position, address, destination, kind, kind_eq, denotes⟩
  · exact fun operand mem => (checkOperand_eq_ok known).1 (operands operand mem)
  · intro operand there
    rw [there] at destination produces
    obtain ⟨name, _, rfl⟩ := Option.map_eq_some_iff.1 destination
    exact ⟨(hasResult_of_action acted).1 (produces nofun), name, rfl⟩

/-- All well-formed records are accepted. -/
lemma WellFormed.exists_check (wf : WellFormed earlier r) :
    ∃ op, r.check position hasResult = .ok op := by
  obtain ⟨kind, wf⟩ := wf
  obtain ⟨action, acted⟩ := wf.toServes.exists_action
  obtain ⟨name, named⟩ : ∃ name, r.destinationName action = .ok name := by
    cases there : r.destination with
    | none => exact ⟨none, destinationName_eq_ok.2 ⟨there.symm, (absurd there ·)⟩⟩
    | some operand =>
      obtain ⟨result, name, rfl⟩ := wf.destination operand there
      refine ⟨some name, destinationName_eq_ok.2 ⟨there.symm, fun _ => ?_⟩⟩
      exact (hasResult_of_action acted).2 result
  refine ⟨⟨position, r.address, action, name⟩,
    check_eq_ok.2 ⟨kind, wf.kind_eq, ?_, acted, named, rfl, rfl⟩⟩
  exact fun operand mem => (checkOperand_eq_ok known).2 (wf.operands operand mem)

end

end

end TraceRecord

end TypeRecovery
