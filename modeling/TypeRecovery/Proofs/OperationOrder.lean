import TypeRecovery.Proofs.StorageTypes
import TypeRecovery.Proofs.Totality

/-!
# The order of operations

Records that refer to no other record can be put in any order: the types of named storage stay alike,
and so do the classes that names share (`storage_alike_of_perm`). The two analyses make different
variables, and even different numbers of them. But each operation of one trace stands somewhere in the
other, so the observations of one are those of the other, with the operations moved.
-/

namespace TypeRecovery

/-! ## Moved observations -/

/-- Every observation of one list is in the other after some operations were moved. -/
def Moves (obs other : List Observation) : Prop :=
  ∃ f, ∀ o ∈ obs, o.move f ∈ other

section
variable {obs other : List Observation}

/-- A name that is used is still used after operations were moved. -/
lemma Moves.used (mv : Moves obs other) {name : String} (used : .uses (.storage name) ∈ obs) :
    .uses (.storage name) ∈ other := by
  obtain ⟨f, each⟩ := mv
  exact each _ used

/-- Names that are joined are still joined after operations were moved. -/
lemma Moves.joined (mv : Moves obs other) {name name' : String}
    (joined : Joined obs (.storage name) (.storage name')) :
    Joined other (.storage name) (.storage name') := by
  obtain ⟨f, each⟩ := mv
  exact joined.move each

/-- What is told of a name is still told after operations were moved. -/
lemma Moves.told (mv : Moves obs other) {name : String} {fact : Fact}
    (told : Told obs (.storage name) fact) : Told other (.storage name) fact := by
  obtain ⟨f, each⟩ := mv
  obtain ⟨w, joined, told⟩ := told
  exact ⟨w.move f, joined.move each, each _ told⟩

/-- A name that is dereferenced is still dereferenced after operations were moved. -/
lemma Moves.dereferenced (mv : Moves obs other) {name : String}
    (seen : Dereferenced obs (.storage name)) : Dereferenced other (.storage name) := by
  obtain ⟨f, each⟩ := mv
  obtain ⟨w, joined, seen⟩ := seen
  exact ⟨w.move f, joined.move each, each _ seen⟩

end

/-! ## Moved operations -/

/-- An operation that refers to no other one observes the same wherever it stands. -/
lemma Operation.observations_move {memory : MemoryMap} {op : Operation}
    (own : ∀ operand ∈ op.action.reads, operand.isResult = false) (f : Nat → Nat) :
    (op.observations memory).map (·.move f) =
      ({ op with position := f op.position } : Operation).observations memory := by
  rw [observations, observations, List.map_append, Action.observations_move own]
  cases op.destination <;> cases op.action.hasResult <;> rfl

namespace Trace

section
variable {records others : List TraceRecord} {operations operations' : List Operation}

/-- An operation is known by its position. -/
lemma Ingests.eq_of_position (ing : Ingests records operations) {op op' : Operation}
    (mem : op ∈ operations) (mem' : op' ∈ operations) (same : op.position = op'.position) :
    op = op' := by
  obtain ⟨before, after, split⟩ := List.append_of_mem mem
  obtain ⟨before', after', split'⟩ := List.append_of_mem mem'
  have length : before.length = before'.length := by
    rw [← ing.position split, ← ing.position split', same]
  rw [split] at split'
  exact (List.cons.inj (List.append_inj_right split' length)).1

/-- Each operation stands somewhere in a trace that has its record. -/
lemma Ingests.moved (ing : Ingests records operations) (ing' : Ingests others operations')
    (sub : ∀ r ∈ records, r ∈ others)
    (own : ∀ r ∈ records, ∀ operand ∈ r.operands, operand.isResult = false) :
    ∃ f : Nat → Nat, ∀ op ∈ operations, (∀ operand ∈ op.action.reads, operand.isResult = false) ∧
      { op with position := f op.position } ∈ operations' := by
  have each : ∀ op ∈ operations, (∀ operand ∈ op.action.reads, operand.isResult = false) ∧
      ∃ position, { op with position := position } ∈ operations' := by
    intro op mem
    obtain ⟨before, after, split⟩ := List.append_of_mem mem
    obtain ⟨r, listed, checked⟩ := ing.split split
    obtain ⟨kind, _, _, acted, _⟩ := TraceRecord.check_eq_ok.1 checked
    obtain ⟨before', op', after', split', checked'⟩ := ing'.mem (sub r listed)
    rw [TraceRecord.check_moved (own r listed) checked] at checked'
    cases checked'
    refine ⟨?_, before'.length, ?_⟩
    · rw [TraceRecord.reads_of_action acted]
      exact own r listed
    · rw [split']
      exact List.mem_append_right _ List.mem_cons_self
  -- positions tell operations apart, so there is a place for each position
  have places : ∀ i, ∃ j, ∀ op ∈ operations, op.position = i →
      { op with position := j } ∈ operations' := by
    intro i
    by_cases some : ∃ op ∈ operations, op.position = i
    · obtain ⟨op, mem, rfl⟩ := some
      obtain ⟨_, j, moved⟩ := each op mem
      refine ⟨j, fun op' mem' same => ?_⟩
      rw [ing.eq_of_position mem' mem same]
      exact moved
    · exact ⟨0, fun op mem same => (some ⟨op, mem, same⟩).elim⟩
  choose f moved using places
  exact ⟨f, fun op mem => ⟨(each op mem).1, moved op.position op mem rfl⟩⟩

/-- Records among others are observed in both lists, with the operations moved. -/
lemma moves_of_ingest {t t' : Trace} (ingested : ingest records = .ok t)
    (ingested' : ingest others = .ok t') (sub : ∀ r ∈ records, r ∈ others)
    (own : ∀ r ∈ records, ∀ operand ∈ r.operands, operand.isResult = false) (memory : MemoryMap) :
    Moves (t.observations memory) (t'.observations memory) := by
  obtain ⟨f, moved⟩ :=
    (ingests_of_ingest ingested).moved (ingests_of_ingest ingested') sub own
  refine ⟨f, fun o mem => ?_⟩
  obtain ⟨op, here, observed⟩ := List.mem_flatMap.1 mem
  obtain ⟨reads, there⟩ := moved op here
  refine List.mem_flatMap.2 ⟨_, there, ?_⟩
  rw [← Operation.observations_move reads f]
  exact List.mem_map_of_mem observed

end

end Trace

/-! ## Analyses of the same operations -/

namespace Analysis

/-- What the listing of records that were analyzed was observed from. -/
lemma observed_of_runRecords {memory : MemoryMap} {config : Config} {function : String}
    {records : List TraceRecord} {start d : Arena} {l : Listing}
    (ran : runRecords memory config function records start = .ok l d) :
    ∃ (t : Trace) (a : Arena) (log : List Constraint) (c : Arena) (remarks : List Remark)
      (script : Script) (ν : Naming), Trace.ingest records = .ok t ∧
      Lists config a log c d remarks ∧ l = Listing.ofArena function d remarks ∧
      script.Gathers a ∧ script.Accounts (t.observations memory) ν := by
  rw [runRecords] at ran
  cases ingested : Trace.ingest records with
  | error e =>
    rw [ingested] at ran
    cases ran
  | ok t =>
    rw [ingested] at ran
    obtain ⟨a, log, c, remarks, script, ν, lists, e, ga, ac, _⟩ := observed_of_run ingested ran
    exact ⟨t, a, log, c, remarks, script, ν, rfl, lists, e, ga, ac⟩

namespace Lists

section
variable {config : Config} {function function' name : String} {a c d a' c' d' : Arena}
  {log log' : List Constraint} {remarks remarks' : List Remark} {script script' : Script}
  {obs obs' : List Observation} {ν ν' : Naming}

/-- The same is told of a name if the same is observed of it. -/
lemma sameFacts {v w : VarId} (lists : Lists config a log c d remarks) (ga : script.Gathers a)
    (ac : script.Accounts obs ν) (lists' : Lists config a' log' c' d' remarks')
    (ga' : script'.Gathers a') (ac' : script'.Accounts obs' ν') (mv : Moves obs obs')
    (mv' : Moves obs' obs) (here : ν (.storage name) = some v)
    (there : ν' (.storage name) = some w) :
    SameFacts (c.evidence log (c.forest.leaderOf v.index))
      (c'.evidence log' (c'.forest.leaderOf w.index)) where
  told fact plain := by
    rw [lists.told_iff ga ac here plain, lists'.told_iff ga' ac' there plain]
    exact ⟨mv.told, mv'.told⟩
  pointer := by
    rw [lists.dereferenced_iff ga ac here, lists'.dereferenced_iff ga' ac' there]
    exact ⟨mv.dereferenced, mv'.dereferenced⟩

/-- Names of storage have types alike if the same is observed of them. -/
lemma storageType?_alike (lists : Lists config a log c d remarks) (ga : script.Gathers a)
    (ac : script.Accounts obs ν) (lists' : Lists config a' log' c' d' remarks')
    (ga' : script'.Gathers a') (ac' : script'.Accounts obs' ν') (mv : Moves obs obs')
    (mv' : Moves obs' obs) :
    Option.Rel DataType.Alike ((Listing.ofArena function d remarks).storageType? name)
      ((Listing.ofArena function' d' remarks').storageType? name) := by
  rw [Listing.storageType?, Listing.storageType?, lists.storage?_eq ga ac,
    lists'.storage?_eq ga' ac']
  cases here : ν (.storage name) with
  | none =>
    cases there : ν' (.storage name) with
    | none => exact .none
    | some w =>
      obtain ⟨v, named⟩ := ac.confirms _ (mv'.used (ac'.named there).1)
      rw [here] at named
      cases named
  | some v =>
    cases there : ν' (.storage name) with
    | none =>
      obtain ⟨w, named⟩ := ac'.confirms _ (mv.used (ac.named here).1)
      rw [there] at named
      cases named
    | some w =>
      obtain ⟨target, type, _⟩ :=
        lists.typeOf?_eq (ac.lt_of_named ga here) (lists.isPointee?_eq ga ac here)
      obtain ⟨target', type', _⟩ :=
        lists'.typeOf?_eq (ac'.lt_of_named ga' there) (lists'.isPointee?_eq ga' ac' there)
      rw [Option.bind_some, Option.bind_some, type, type']
      have same := lists.sameFacts ga ac lists' ga' ac' mv mv' here there
      exact .some (Inquiry.valueType_alike (Evidence.gather_agrees same) config target target')

end

end Lists

/-- The order of records that refer to no other record changes neither which names of storage share
a class nor the types of names, up to the class that a pointer points to and the order of the
alternatives of a union. -/
theorem storage_alike_of_perm {memory : MemoryMap} {config : Config} {function : String}
    {records others : List TraceRecord} {start start' d d' : Arena} {l l' : Listing}
    (perm : records.Perm others)
    (own : ∀ r ∈ records, ∀ operand ∈ r.operands, operand.isResult = false)
    (ran : runRecords memory config function records start = .ok l d)
    (ran' : runRecords memory config function others start' = .ok l' d') :
    (∀ name other, l.SharesClass name other ↔ l'.SharesClass name other) ∧
      ∀ name, Option.Rel DataType.Alike (l.storageType? name) (l'.storageType? name) := by
  obtain ⟨t, a, log, c, remarks, script, ν, ingested, lists, rfl, ga, ac⟩ :=
    observed_of_runRecords ran
  obtain ⟨t', a', log', c', remarks', script', ν', ingested', lists', rfl, ga', ac'⟩ :=
    observed_of_runRecords ran'
  have mv := Trace.moves_of_ingest ingested ingested' (fun r => perm.mem_iff.1) own memory
  have mv' := Trace.moves_of_ingest ingested' ingested (fun r => perm.mem_iff.2)
    (fun r mem => own r (perm.mem_iff.2 mem)) memory
  refine ⟨fun name other => ?_, fun name => lists.storageType?_alike ga ac lists' ga' ac' mv mv'⟩
  rw [lists.sharesClass_iff ga ac, lists'.sharesClass_iff ga' ac']
  exact ⟨mv.joined, mv'.joined⟩

/-- A pointer is dereferenced, copied, and masked like a number. -/
def maskedPointer : List TraceRecord :=
  [{ kind := some .load, operands := [.storage "p"], width := some 8,
      destination := some (.storage "x") },
    { kind := some .copy, operands := [.storage "p"], destination := some (.storage "q") },
    { kind := some .bitwise, operands := [.storage "q", .literal 7 8], bitOperator := some .and,
      width := some 8, destination := some (.storage "tag") }]

/-- The pointer is a union of a pointer and an integer, or of an integer and a pointer if the last
operation comes first. -/
theorem storage_alike_of_perm_maskedPointer :
    ∃ l d l' d', runRecords .empty .lp64 "f" maskedPointer .empty = .ok l d ∧
      runRecords .empty .lp64 "f" maskedPointer.reverse .empty = .ok l' d' ∧
      (∀ name other, l.SharesClass name other ↔ l'.SharesClass name other) ∧
      ∀ name, Option.Rel DataType.Alike (l.storageType? name) (l'.storageType? name) := by
  have own : ∀ r ∈ maskedPointer, ∀ operand ∈ r.operands, operand.isResult = false := by decide
  have ingested : Trace.ingest maskedPointer = .ok
      ⟨[⟨0, 0, .load (.storage "p") 0 8, some "x"⟩, ⟨1, 0, .copy (.storage "p"), some "q"⟩,
        ⟨2, 0, .bitwise .and (.storage "q") (.literal 7 8) 8, some "tag"⟩]⟩ := rfl
  have ingested' : Trace.ingest maskedPointer.reverse = .ok
      ⟨[⟨0, 0, .bitwise .and (.storage "q") (.literal 7 8) 8, some "tag"⟩,
        ⟨1, 0, .copy (.storage "p"), some "q"⟩, ⟨2, 0, .load (.storage "p") 0 8, some "x"⟩]⟩ := rfl
  obtain ⟨l, d, ran⟩ := runRecords_of_fits ingested
    (by simp [Action.Strays, Operand.Strays]) .lp64 "f" .empty
  obtain ⟨l', d', ran'⟩ := runRecords_of_fits ingested'
    (by simp [Action.Strays, Operand.Strays]) .lp64 "f" .empty
  exact ⟨l, d, l', d', ran, ran',
    storage_alike_of_perm (List.reverse_perm maskedPointer).symm own ran ran'⟩

end Analysis

end TypeRecovery
