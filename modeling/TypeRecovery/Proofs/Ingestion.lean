import TypeRecovery.Proofs.Records
import TypeRecovery.Proofs.Walk

/-!
# Ingested traces

What the checks on records guarantee for the operations that they become. An operation stands where
its record stands (`Ingests.split`, `Ingests.mem`). A trace that was ingested is well placed and has
no stride of zero. A record that refers to no other one becomes the same operation wherever it stands
(`check_moved`). A list of records is ingested exactly if all its records are well formed
(`ingest_ok_iff_wellFormed`).
-/

namespace TypeRecovery

namespace TraceRecord

/-- A record that refers to no other one becomes the same operation wherever it stands. -/
lemma check_moved {r : TraceRecord} {position position' : Nat} {hasResult hasResult' : Nat → Bool}
    {op : Operation}
    (own : ∀ operand ∈ r.operands, operand.isResult = false)
    (ok : r.check position hasResult = .ok op) :
    r.check position' hasResult' = .ok { op with position := position' } := by
  obtain ⟨kind, required, operands, acted, named, _, address⟩ := check_eq_ok.1 ok
  refine check_eq_ok.2 ⟨kind, required, fun operand mem => ?_, acted, named, rfl, address⟩
  have checked := operands operand mem
  have own := own operand mem
  cases operand with
  | result target => cases own
  | _ => exact checked

end TraceRecord

/-! ## Lists of records -/

namespace Trace

/-- The operations that records become. -/
inductive Ingests : List TraceRecord → List Operation → Prop
  | nil : Ingests [] []
  | snoc {records operations r op} : Ingests records operations →
    r.check operations.length (producesAt operations.toArray) = .ok op →
    Ingests (records ++ [r]) (operations ++ [op])

/-- All records are taken, or all up to the first one that is refused. -/
lemma Ingests.foldlM {records more : List TraceRecord} {earlier : Array Operation}
    (ing : Ingests records earlier.toList) :
    (∃ all : Array Operation,
      more.foldlM append earlier = .ok all ∧ Ingests (records ++ more) all.toList) ∨
    ∃ passed r rest operations flaw, more = passed ++ r :: rest ∧
      Ingests (records ++ passed) operations ∧
      r.check operations.length (producesAt operations.toArray) = .error flaw ∧
      more.foldlM append earlier = .error ⟨operations.length, flaw⟩ := by
  induction more generalizing records earlier with
  | nil => exact .inl ⟨earlier, rfl, by rwa [List.append_nil]⟩
  | cons r more ih =>
    rw [List.foldlM_cons, append]
    cases checked : r.check earlier.size (producesAt earlier) with
    | error flaw =>
      exact .inr ⟨[], r, more, earlier.toList, flaw, rfl, by rwa [List.append_nil], checked, rfl⟩
    | ok op =>
      have longer : Ingests (records ++ [r]) (earlier.push op).toList := by
        rw [Array.toList_push]
        exact .snoc ing checked
      rcases ih longer with
        ⟨all, ok, rest⟩ | ⟨passed, r', rest, operations, flaw, rfl, ing', refused, error⟩
      · rw [List.append_assoc] at rest
        exact .inl ⟨all, ok, rest⟩
      · rw [List.append_assoc] at ing'
        exact .inr ⟨r :: passed, r', rest, operations, flaw, rfl, ing', refused, error⟩

/-- Records are ingested, or refused at the first one that fails its check. -/
lemma ingest_cases (records : List TraceRecord) :
    (∃ t, ingest records = .ok t ∧ Ingests records t.operations) ∨
    ∃ passed r rest operations flaw, records = passed ++ r :: rest ∧ Ingests passed operations ∧
      r.check operations.length (producesAt operations.toArray) = .error flaw ∧
      ingest records = .error ⟨operations.length, flaw⟩ := by
  rw [ingest]
  rcases @Ingests.foldlM [] records #[] .nil with
    ⟨all, ok, ing⟩ | ⟨passed, r, rest, operations, flaw, split, ing, refused, error⟩
  · rw [ok]
    exact .inl ⟨⟨all.toList⟩, rfl, ing⟩
  · rw [error]
    exact .inr ⟨passed, r, rest, operations, flaw, split, ing, refused, rfl⟩

/-- The operations of an ingested trace are those that the records become. -/
lemma ingests_of_ingest {records : List TraceRecord} {t : Trace}
    (ingested : ingest records = .ok t) : Ingests records t.operations := by
  rcases ingest_cases records with ⟨t', ok, ing⟩ | ⟨_, _, _, _, _, _, _, _, error⟩
  · cases ok.symm.trans ingested
    exact ing
  · cases error.symm.trans ingested

/-- Records that become operations are ingested as these. -/
lemma Ingests.ingest_eq {records : List TraceRecord} {operations : List Operation}
    (ing : Ingests records operations) : ingest records = .ok ⟨operations⟩ := by
  have folded : records.foldlM append #[] = .ok operations.toArray := by
    induction ing with
    | nil => rfl
    | snoc _ checked ih =>
      rw [List.foldlM_append, ih]
      refine except_bind_eq_ok.2 ⟨_, rfl, ?_⟩
      rw [List.foldlM_cons, append, List.size_toArray, checked]
      exact congrArg Except.ok (List.push_toArray ..)
  rw [ingest, folded]
  rfl

section
variable {records : List TraceRecord} {operations before after : List Operation} {op : Operation}

/-- Every operation comes from a record that was checked at its place. -/
lemma Ingests.split (ing : Ingests records operations)
    (split : operations = before ++ op :: after) :
    ∃ r ∈ records, r.check before.length (producesAt before.toArray) = .ok op := by
  -- records are checked against what stands before them, so the induction drops the last one
  induction ing generalizing after with
  | nil => simp at split
  | @snoc records operations r last _ checked ih =>
    cases after using List.reverseRecOn with
    | nil =>
      obtain ⟨rfl, e⟩ := List.append_inj' split rfl
      cases e
      exact ⟨r, by simp, checked⟩
    | append_singleton rest final =>
      have shorter : operations = before ++ op :: rest := by
        rw [← List.cons_append, ← List.append_assoc] at split
        exact (List.append_inj' split rfl).1
      obtain ⟨r', mem, here⟩ := ih shorter
      exact ⟨r', List.mem_append_left _ mem, here⟩

/-- Every record becomes an operation. -/
lemma Ingests.mem (ing : Ingests records operations) {r : TraceRecord} (mem : r ∈ records) :
    ∃ before op after, operations = before ++ op :: after ∧
      r.check before.length (producesAt before.toArray) = .ok op := by
  induction ing with
  | nil => cases mem
  | @snoc records operations r' last _ checked ih =>
    rcases List.mem_append.1 mem with mem | mem
    · obtain ⟨before, op, after, rfl, here⟩ := ih mem
      exact ⟨before, op, after ++ [last], by simp, here⟩
    · cases List.mem_singleton.1 mem
      exact ⟨operations, last, [], rfl, checked⟩

/-- An operation has as its position the number of those before it. -/
lemma Ingests.position (ing : Ingests records operations)
    (split : operations = before ++ op :: after) : op.position = before.length := by
  obtain ⟨r, _, checked⟩ := ing.split split
  obtain ⟨_, _, _, _, _, position, _⟩ := TraceRecord.check_eq_ok.1 checked
  exact position

/-- An operation is found at its position. -/
lemma Ingests.getElem?_position (ing : Ingests records operations) (mem : op ∈ operations) :
    operations[op.position]? = some op := by
  obtain ⟨before, after, rfl⟩ := List.append_of_mem mem
  rw [ing.position rfl, List.getElem?_append_right (le_refl _), Nat.sub_self]
  rfl

/-- Positions count the operations. -/
lemma Ingests.map_position (ing : Ingests records operations) :
    operations.map Operation.position = List.range operations.length := by
  induction ing with
  | nil => rfl
  | snoc _ checked ih =>
    obtain ⟨_, _, _, _, _, position, _⟩ := TraceRecord.check_eq_ok.1 checked
    rw [List.map_append, ih, List.length_append, List.length_singleton, List.range_succ,
      List.map_singleton, position]

/-- Only operations with results have destinations. -/
lemma Ingests.hasResult (ing : Ingests records operations) (mem : op ∈ operations)
    (given : op.destination ≠ none) : op.action.hasResult = true := by
  obtain ⟨before, after, rfl⟩ := List.append_of_mem mem
  obtain ⟨r, _, checked⟩ := ing.split rfl
  obtain ⟨_, _, _, _, named, _⟩ := TraceRecord.check_eq_ok.1 checked
  obtain ⟨routed, produces⟩ := TraceRecord.destinationName_eq_ok.1 named
  refine produces ?_
  rw [← routed]
  simpa using given

/-- Ingested operations are well placed. -/
lemma Ingests.wellPlaced (ing : Ingests records operations) : WellPlaced operations := by
  intro before op after split
  obtain ⟨r, _, checked⟩ := ing.split split
  obtain ⟨kind, _, operands, acted, _⟩ := TraceRecord.check_eq_ok.1 checked
  refine ⟨ing.position split, fun target mem => ?_⟩
  rw [TraceRecord.reads_of_action acted] at mem
  have known := operands _ mem
  rw [TraceRecord.checkOperand] at known
  split at known
  · rename_i produced
    rw [producesAt, List.getElem?_toArray] at produced
    cases found : before[target.toNat]? with
    | none =>
      rw [found] at produced
      cases produced
    | some earlier =>
      rw [found] at produced
      obtain ⟨lt, here⟩ := List.getElem?_eq_some_iff.1 found
      have parts : before = before.take target.toNat ++ earlier :: before.drop (target.toNat + 1) := by
        rw [← here, List.getElem_cons_drop, List.take_append_drop]
      refine ⟨earlier, List.mem_of_getElem? found, ?_, produced⟩
      rw [parts, List.append_assoc] at split
      rw [ing.position split, List.length_take, Nat.min_eq_left lt.le]
  · cases known

/-- Ingested operations have no stride of zero. -/
lemma Ingests.stride_ne_zero (ing : Ingests records operations) (mem : op ∈ operations)
    {base subscript : Operand} {offset : Int64} {stride : UInt32} {width : UInt8}
    (act : op.action = .index base subscript offset stride width) : stride ≠ 0 := by
  obtain ⟨before, after, rfl⟩ := List.append_of_mem mem
  obtain ⟨r, _, checked⟩ := ing.split rfl
  obtain ⟨kind, _, _, acted, _⟩ := TraceRecord.check_eq_ok.1 checked
  rw [act] at acted
  exact TraceRecord.stride_of_action acted

/-! ## Accepted lists of records -/

/-- There are as many operations as records. -/
lemma Ingests.length_eq (ing : Ingests records operations) :
    operations.length = records.length := by
  induction ing with
  | nil => rfl
  | snoc _ _ ih => rw [List.length_append, List.length_append, ih, List.length_singleton,
      List.length_singleton]

/-- The first records become the first operations. -/
lemma Ingests.take (ing : Ingests records operations) (n : Nat) :
    Ingests (records.take n) (operations.take n) := by
  induction ing with
  | nil => simpa using Ingests.nil
  | @snoc records operations r op ing checked ih =>
    rcases Nat.lt_or_ge records.length n with lt | le
    · have whole := Ingests.snoc ing checked
      rwa [List.take_of_length_le, List.take_of_length_le]
      · rwa [whole.length_eq, List.length_append]
      · rwa [List.length_append]
    · rwa [List.take_append_of_le_length le, List.take_append_of_le_length (ing.length_eq ▸ le)]

/-- The record at a position becomes the operation there, checked against those before. -/
lemma Ingests.getElem? (ing : Ingests records operations) {i : Nat} {r : TraceRecord}
    (listed : records[i]? = some r) :
    ∃ op, operations[i]? = some op ∧
      r.check i (producesAt (operations.take i).toArray) = .ok op := by
  induction ing with
  | nil => cases listed
  | @snoc records operations last op ing checked ih =>
    rcases Nat.lt_or_ge i records.length with lt | le
    · rw [List.getElem?_append_left lt] at listed
      rw [← ing.length_eq] at lt
      rw [List.getElem?_append_left lt, List.take_append_of_le_length lt.le]
      exact ih listed
    · rw [List.getElem?_append_right le, List.getElem?_singleton] at listed
      split at listed
      · rename_i zero
        cases listed
        have here : i = operations.length := by
          rw [ing.length_eq]
          omega
        subst here
        exact ⟨op, List.getElem?_concat_length, by rwa [List.take_left]⟩
      · cases listed

/-- The positions that have results are those of records that are no stores. -/
lemma Ingests.producesAt_iff (ing : Ingests records operations) (target : Nat) :
    producesAt operations.toArray target = true ↔
      ∃ r, records[target]? = some r ∧ r.kind ≠ some .store := by
  rw [producesAt, List.getElem?_toArray]
  cases listed : records[target]? with
  | none =>
    have beyond : operations[target]? = none := by
      rw [List.getElem?_eq_none_iff] at listed ⊢
      rwa [ing.length_eq]
    simp [beyond]
  | some r =>
    obtain ⟨op, here, checked⟩ := ing.getElem? listed
    obtain ⟨kind, kind_eq, _, acted, _⟩ := TraceRecord.check_eq_ok.1 checked
    simp [here, kind_eq, TraceRecord.hasResult_of_action acted]

/-- Every record that was taken is well formed and became what it says. -/
lemma Ingests.becomes (ing : Ingests records operations) {i : Nat} {r : TraceRecord}
    (listed : records[i]? = some r) :
    TraceRecord.WellFormed (records.take i) r ∧
      ∃ op, operations[i]? = some op ∧ TraceRecord.Becomes r i op := by
  obtain ⟨op, here, checked⟩ := ing.getElem? listed
  obtain ⟨wf, becomes⟩ :=
    TraceRecord.wellFormed_and_becomes_of_check (ing.take i).producesAt_iff checked
  exact ⟨wf, op, here, becomes⟩

end

/-- A list of records is ingested if and only if each record is well formed after those before it.
Each operation then stands at the position of its record and has everything else from it. Otherwise
the error has the position of the first record that is not well formed. -/
theorem ingest_ok_iff_wellFormed (records : List TraceRecord) :
    ((∃ t, ingest records = .ok t) ↔
      ∀ i r, records[i]? = some r → TraceRecord.WellFormed (records.take i) r) ∧
    (∀ t, ingest records = .ok t → t.operations.length = records.length ∧
      ∀ i r, records[i]? = some r → ∃ op, t.operations[i]? = some op ∧ TraceRecord.Becomes r i op) ∧
    (∀ e, ingest records = .error e →
      (∃ r, records[e.position]? = some r ∧
        ¬ TraceRecord.WellFormed (records.take e.position) r) ∧
      ∀ i < e.position, ∀ r, records[i]? = some r →
        TraceRecord.WellFormed (records.take i) r) := by
  rcases ingest_cases records with
    ⟨t, ok, ing⟩ | ⟨passed, r, rest, operations, flaw, rfl, ing, refused, error⟩
  · refine ⟨⟨fun _ i r listed => (ing.becomes listed).1, fun _ => ⟨t, ok⟩⟩, ?_, ?_⟩
    · intro t' ok'
      cases ok.symm.trans ok'
      exact ⟨ing.length_eq, fun i r listed => (ing.becomes listed).2⟩
    · intro e error
      cases ok.symm.trans error
  · have first : ¬ TraceRecord.WellFormed passed r := by
      intro wf
      obtain ⟨op, ok⟩ := wf.exists_check ing.producesAt_iff
      cases ok.symm.trans refused
    have here : (passed ++ r :: rest)[passed.length]? = some r := by simp
    refine ⟨⟨?_, ?_⟩, ?_, ?_⟩
    · rintro ⟨t, ok⟩
      cases ok.symm.trans error
    · intro wf
      have wf := wf _ r here
      rw [List.take_left] at wf
      exact absurd wf first
    · intro t ok
      cases ok.symm.trans error
    · intro e error'
      cases error.symm.trans error'
      rw [ing.length_eq]
      refine ⟨⟨r, here, by rwa [List.take_left]⟩, ?_⟩
      intro i lt r' listed
      rw [List.getElem?_append_left lt] at listed
      rw [List.take_append_of_le_length lt.le]
      exact (ing.becomes listed).1

end Trace

end TypeRecovery
