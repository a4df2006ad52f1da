import TypeRecovery.Proofs.Allocation
import TypeRecovery.Proofs.Chronology
import TypeRecovery.Proofs.Listing
import TypeRecovery.Proofs.ListingText

/-!
# Listings are read back

Every listing that an analysis makes is portable, so reading its text gives it back
(`listing_reads_back`). Its types do not nest deeper than verdicts do; first types have no parts at
all. Its positions are those of operations, and its counts are bounded by the accesses that differ and
by the arguments that a record can count. What remains to be assumed is that there are no more
operations and variables than there are numbers for them.
-/

namespace TypeRecovery

open Decoder

/-! ## First types -/

namespace Arena

variable {a b : Arena} {log : List Constraint}

/-- First types have no parts. -/
def FirstAtomic (a : Arena) : Prop :=
  ∀ v found, a.var? v = some found → ∀ t ∈ found.firstType, t.Atomic

/-- First types depend on the variables only. -/
lemma FirstAtomic.of_store (first : a.FirstAtomic) (store : b.store = a.store) :
    b.FirstAtomic := by
  intro v found here
  rw [var?, store] at here
  exact first v found here

/-- A type that one fact is enough for has no parts. -/
lemma atomic_of_directEvidence {fact : Fact} {t : DataType}
    (direct : a.directEvidence fact = .ok (some t)) : t.Atomic := by
  cases fact with
  | pointsTo target =>
    rw [directEvidence_pointsTo] at direct
    split at direct
    · cases direct
      exact .pointer
    · cases direct
  | size _ | constant _ | bitwise _ | discriminant _ =>
    cases direct
    exact .integer
  | boolean =>
    cases direct
    exact .boolean
  | _ => cases direct

/-- Evidence leaves first types without parts. -/
lemma FirstAtomic.constrain (first : a.FirstAtomic) (co : a.Coherent log) {v : VarId}
    {position : Nat} {fact : Fact} (lt : v.index < a.size)
    (run : ArenaM.constrain v position fact a = .ok () b) : b.FirstAtomic := by
  have out := ArenaM.constrain_of_lt co position fact lt
  rw [run] at out
  cases out with
  | @added evidence _ direct =>
    cases evidence with
    | none => exact first.of_store rfl
    | some t =>
      intro w found here u implied
      obtain ⟨old, was, _, _, same | new⟩ := var?_withConstraint here
      · exact first w old was u (same ▸ implied)
      · rw [new] at implied
        cases implied
        exact atomic_of_directEvidence direct

/-- Every call leaves first types without parts. -/
lemma Effect.firstAtomic {call : Call} (eff : a.Effect call b) (co : a.Coherent log)
    (first : a.FirstAtomic) : b.FirstAtomic := by
  cases eff with
  | compresses _ cp => exact first.of_store cp.retouches.store
  | allocates =>
    intro v found here t implied
    rw [var?_addVariable] at here
    split at here
    · cases here
      cases implied
    · exact first v found here t implied
  | merges _ _ _ mg => exact first.of_store mg.store
  | constrains lt _ _ run => exact first.constrain co lt run
  | judges _ cp => exact first.of_store cp.retouches.store
  | finalizes cp => exact first.of_store cp.retouches.store
  | finalizesAll => exact first
  | resets =>
    intro v found here
    cases here

/-- First types never have parts. -/
lemma Reachable.firstAtomic (re : a.Reachable) : a.FirstAtomic := by
  refine re.induction (P := FirstAtomic) ?_ fun call co first => (co.effect call).firstAtomic co first
  intro v found here
  cases here

end Arena

/-! ## Positions and arities -/

/-- The uses of an operation have its position, which has 64 bits. -/
lemma Operation.portable_of_mem_requests {memory : MemoryMap} {op : Operation}
    (small : op.position < UInt64.size) {site : UseSite} (mem : site ∈ op.requests memory) :
    site.Portable := by
  have value : ∀ operand : Operand, site ∈ operand.requests op.position → site.Portable := by
    intro operand mem
    cases operand with
    | result _ => cases mem
    | literal _ _ =>
      rw [List.mem_singleton.1 mem]
      exact small
    | _ =>
      rw [List.mem_singleton.1 mem]
      trivial
  simp only [requests, List.mem_append, List.mem_flatMap, Option.mem_toList] at mem
  rcases mem with ((⟨operand, _, mem⟩ | ⟨⟨base, offset⟩, _, mem⟩) | mem) | mem
  · exact value operand mem
  · cases base with
    | address _ =>
      rw [List.mem_singleton.1 mem]
      trivial
    | storage name => exact value (.storage name) mem
    | literal number width => exact value (.literal number width) mem
    | result target => exact value (.result target) mem
  · cases act : op.action <;> rw [act] at mem <;> cases mem <;> exact small
  · split at mem
    · obtain ⟨name, _, rfl⟩ := Option.map_eq_some_iff.1 (Option.mem_toList.1 mem)
      trivial
    · cases mem

namespace Trace

variable {records : List TraceRecord} {operations : List Operation} {op : Operation} {t : Trace}

/-- An operation stands at the position of one of the records. -/
lemma Ingests.position_lt (ing : Ingests records operations) (mem : op ∈ operations) :
    op.position < records.length := by
  rw [← ing.length_eq]
  exact (List.getElem?_eq_some_iff.1 (ing.getElem?_position mem)).1

/-- The arguments of a call are as many as a record says, in 64 bits. -/
lemma Ingests.length_args (ing : Ingests records operations) (mem : op ∈ operations)
    {target : Operand} {args : List Operand} {resultUsed : Bool}
    (act : op.action = .call target args resultUsed) : args.length < UInt64.size := by
  obtain ⟨before, after, rfl⟩ := List.append_of_mem mem
  obtain ⟨r, _, checked⟩ := ing.split rfl
  obtain ⟨kind, _, _, acted, _⟩ := TraceRecord.check_eq_ok.1 checked
  rw [act] at acted
  obtain ⟨serves, denotes⟩ := TraceRecord.serves_and_denotes_of_action acted
  cases denotes with
  | call operands =>
    have arity := serves.arity
    rw [operands, RecordKind.arity, List.length_cons, Nat.add_right_cancel_iff] at arity
    have count := (r.argCount.getD 0).toInt_lt
    rw [arity, UInt64.size]
    omega

/-- What a trace is evidence for stands at a position of 64 bits, and its calls have no more arguments
than 64 bits can count. -/
lemma collect_counts {memory : MemoryMap} {s : Collection} {a : Arena} {log : List Constraint}
    (ingested : ingest records = .ok t) (short : records.length ≤ UInt64.size)
    (collected : ArenaM.collect memory t .empty = .ok s a) (co : a.Coherent log) :
    ∀ x ∈ log, x.position < UInt64.size ∧
      ∀ site ∈ x.fact.callSite?, site.args.length < UInt64.size := by
  have ing := ingests_of_ingest ingested
  have admitted : ∀ op ∈ t.operations, CollectM.Admitted (fun position fact =>
      position < UInt64.size ∧ ∀ site ∈ fact.callSite?, site.args.length < UInt64.size) op := by
    intro op mem
    have small : op.position < UInt64.size := Nat.lt_of_lt_of_le (ing.position_lt mem) short
    refine ⟨fun fact none => ⟨small, ?_⟩, fun act site same => ⟨small, ?_⟩⟩
    · rw [none]
      exact fun _ given => absurd given (Option.not_mem_none _)
    · intro _ given
      cases given
      rw [same]
      exact ing.length_args mem act
  exact ArenaM.collect_admitted admitted collected co

/-- The variables of a trace are used at positions of 64 bits. -/
lemma collect_portable {memory : MemoryMap} {s : Collection} {a : Arena}
    (ingested : ingest records = .ok t) (short : records.length ≤ UInt64.size)
    (collected : ArenaM.collect memory t .empty = .ok s a) {site : UseSite} (mem : site ∈ a.sites)
    (value : site.isPointee = false) : site.Portable := by
  obtain ⟨rfl, _, uses⟩ := uses_of_collect collected
  rw [← Collection.mem_uses value, uses, UseSite.mem_foldl_grant] at mem
  obtain ⟨op, inside, requested⟩ := List.mem_flatMap.1 (mem.resolve_left List.not_mem_nil)
  have small := Nat.lt_of_lt_of_le ((ingests_of_ingest ingested).position_lt inside) short
  exact Operation.portable_of_mem_requests small requested

end Trace

/-! ## Listings -/

/-- A listing has an entry for each variable. -/
lemma Listing.length_vars_ofArena {function : String} {a : Arena} {remarks : List Remark} :
    (ofArena function a remarks).vars.length = a.size := by
  simp [ofArena, Arena.size, VariableStore.toList, VariableStore.size]

namespace Analysis

namespace Lists

variable {config : Config} {function : String} {a c d : Arena} {log : List Constraint}
  {remarks : List Remark} {types : ClassId → DataType} {record : ClassRecord}

/-- What an analysis lists is closed. -/
lemma closed (lists : Lists config a log c d remarks) :
    (Listing.ofArena function d remarks).Closed := by
  have rt := lists.retouches
  refine Listing.closed_ofArena lists.coherent (lists.bounded.of_store rt.store) ?_ ?_
  · intro record live
    obtain ⟨u, verdict, entails⟩ := lists.entails record live
    exact ⟨u, verdict, rt.size ▸ entails.names⟩
  · intro n mem
    have noted := lists.notes n mem
    exact ⟨rt.liveIds lists.sorted.coherent ▸ noted.subject, noted.calm, rt.size ▸ noted.unknown⟩

/-- The type of a class of values is flat. -/
lemma flat_of_value (lists : Lists config a log c d remarks)
    (typed : ∀ record ∈ d.liveClasses, record.dataType = some (types record.id)) {v : VarId}
    (value : c.isPointee? v = some false) : (types (c.holder v)).Flat := by
  obtain ⟨record, live, held⟩ := lists.exists_holder (Arena.lt_of_isPointee? value)
  obtain ⟨t, verdict, entails⟩ := lists.entails record live
  cases verdict.symm.trans (typed record live)
  rw [held] at entails
  obtain ⟨target, type, _⟩ := lists.sorted.valueType_of_entails value entails
  rw [type]
  exact Inquiry.valueType_flat _ _ _

/-- The verdict on a class and the remarks on it. -/
lemma shallow_of_solves (lists : Lists config a log c d remarks) (solves : c.Solves log config types)
    (typed : ∀ record ∈ d.liveClasses, record.dataType = some (types record.id))
    (strides : ∀ {v access}, a.Holds v (.element access) → access.stride ≠ 0)
    (counts : ∀ x ∈ log, x.position < UInt64.size ∧
      ∀ site ∈ x.fact.callSite?, site.args.length < UInt64.size) (live : record ∈ d.liveClasses) :
    (Synthesis.mk (types record.id) (c.remarksOn log config types record.id)).Shallow 18 := by
  have lives : record.id ∈ c.liveIds := by
    rw [← lists.retouches.liveIds lists.sorted.coherent]
    exact List.mem_map_of_mem live
  have judged : c.judgement log config (fun v => types (c.holder v)) record.id =
      (some (types record.id), c.remarksOn log config types record.id) :=
    Prod.ext (solves record.id lives) rfl
  refine Inquiry.verdict_shallow ?_ ?_ ?_ ?_ judged
  · rintro v ⟨constraint, mem, mention⟩
    exact lists.flat_of_value typed (lists.sorted.mentions (Arena.mem_evidence.1 mem).1 mention)
  · intro constraint mem access element
    apply strides
    exact lists.collected.holds_iff.2 ⟨constraint, (Arena.mem_evidence.1 mem).1, rfl,
      Fact.element?_eq_some.1 element⟩
  · exact fun constraint mem => (counts constraint (Arena.mem_evidence.1 mem).1).1
  · exact fun constraint mem => (counts constraint (Arena.mem_evidence.1 mem).1).2

section
variable (lists : Lists config a log c d remarks)
  (few : (Listing.ofArena function d remarks).vars.length ≤ UInt32.size)
include lists few

/-- Numbers of classes are numbers of variables. -/
lemma index_of_hasClass {e : ClassId} (listed : (Listing.ofArena function d remarks).HasClass e) :
    e.index < UInt32.size := by
  obtain ⟨record, live, rfl⟩ := List.mem_map.1 (Listing.hasClass_ofArena.1 listed)
  have own := lists.coherent.own_mem_members live
  rw [(lists.coherent.records_live live).members, Arena.mem_followers] at own
  rw [Listing.length_vars_ofArena] at few
  exact Nat.lt_of_lt_of_le own.1 few

omit lists in
/-- Every listed variable has a number of 32 bits. -/
lemma index_of_hasVar {v : VarId} (listed : (Listing.ofArena function d remarks).HasVar v) :
    v.index < UInt32.size := by
  obtain ⟨entry, here, _⟩ := listed
  exact Nat.lt_of_lt_of_le (List.getElem?_eq_some_iff.1 here).1 few

/-- Listed classes are portable. -/
lemma portable_classes
    (typed : ∀ record ∈ d.liveClasses, record.dataType = some (types record.id))
    (nests : ∀ record ∈ d.liveClasses, (types record.id).Nests 18) :
    ∀ entry ∈ (Listing.ofArena function d remarks).classes, entry.Portable := by
  have closed : (Listing.ofArena function d remarks).Closed := lists.closed
  intro entry mem
  constructor
  case id => exact lists.index_of_hasClass few ⟨entry, mem, rfl⟩
  case dataType =>
    refine ⟨?_, fun e named => lists.index_of_hasClass few (closed.types entry mem e named)⟩
    obtain ⟨record, live, rfl⟩ := List.mem_map.1 mem
    rw [Listing.classEntry, typed record live]
    exact (nests record live).mapClasses _
  case members => exact fun v member => index_of_hasVar few (closed.members entry mem v member)

/-- Listed variables are portable. -/
lemma portable_vars (first : a.FirstAtomic)
    (sites : ∀ site ∈ a.sites, site.isPointee = false → site.Portable) :
    ∀ entry ∈ (Listing.ofArena function d remarks).vars, entry.Portable := by
  have closed : (Listing.ofArena function d remarks).Closed := lists.closed
  have bounded := lists.bounded.of_store lists.retouches.store
  intro entry mem
  have holder := lists.index_of_hasClass few (closed.holders entry mem)
  have named := closed.firstTypes entry mem
  have pointer : ∀ {p}, entry.site = .pointee p → p.index < UInt32.size :=
    fun site => index_of_hasVar few (closed.pointers entry mem site)
  obtain ⟨v, found, here, rfl⟩ := Listing.mem_vars_ofArena mem
  have old : a.var? v = some found := by
    rwa [Arena.var?, lists.retouches.store, lists.store] at here
  refine ⟨?_, ?_, holder, fun t implied => ⟨?_, ?_⟩⟩
  · have lt : found.id.index < d.size := by
      rw [bounded.id here]
      exact (Array.getElem?_eq_some_iff.1 here).1
    exact index_of_hasVar few (Listing.hasVar_ofArena bounded lt)
  · show found.site.Portable
    cases kind : found.site with
    | pointee p => exact pointer kind
    | _ =>
      rw [← kind]
      refine sites _ (List.mem_map_of_mem (Array.mem_toList_iff.2 (Array.mem_of_getElem? old))) ?_
      rw [kind]
      rfl
  · obtain ⟨u, given, rfl⟩ := Option.map_eq_some_iff.1 implied
    exact ((first v found old u given).nests.mono (by decide)).mapClasses _
  · exact fun e inside => lists.index_of_hasClass few (named t implied e inside)

/-- Listed remarks are portable. -/
lemma portable_remarks (counts : ∀ n ∈ remarks, n.unknown? = none → n.Counts) :
    ∀ n ∈ (Listing.ofArena function d remarks).remarks, n.Portable := by
  have closed : (Listing.ofArena function d remarks).Closed := lists.closed
  intro n mem
  constructor
  case subject => exact lists.index_of_hasClass few (closed.remarks n mem)
  case unknown =>
    intro v unknown
    cases n with
    | unassigned w e =>
      cases unknown
      exact index_of_hasVar few (closed.unassigned mem)
    | _ => cases unknown
  case counts =>
    have left := mem_remarks_ofArena.1 mem
    cases n with
    | unassigned w e => trivial
    | _ => exact counts _ left rfl

/-- What an analysis lists is portable. -/
lemma portable (first : a.FirstAtomic)
    (sites : ∀ site ∈ a.sites, site.isPointee = false → site.Portable)
    (strides : ∀ {v access}, a.Holds v (.element access) → access.stride ≠ 0)
    (counts : ∀ x ∈ log, x.position < UInt64.size ∧
      ∀ site ∈ x.fact.callSite?, site.args.length < UInt64.size) :
    (Listing.ofArena function d remarks).Portable := by
  obtain ⟨types, solves, typed, noted⟩ := lists.exists_solution strides
  have shallow : ∀ record ∈ d.liveClasses, (Synthesis.mk (types record.id)
      (c.remarksOn log config types record.id)).Shallow 18 :=
    fun record live => lists.shallow_of_solves solves typed strides counts live
  have classes : ∀ entry ∈ (Listing.ofArena function d remarks).classes, entry.Portable :=
    lists.portable_classes few typed fun record live => (shallow record live).type
  constructor
  case classes => exact classes
  case vars => exact lists.portable_vars few first sites
  case declarations =>
    intro declared mem
    obtain ⟨entry, inside, rfl⟩ := List.mem_map.1 mem
    have portable := classes entry (List.mem_of_mem_filter inside)
    exact ⟨portable.id, portable.dataType⟩
  case remarks =>
    refine lists.portable_remarks few fun n mem known => ?_
    have subject := (lists.notes n mem).subject
    rw [← lists.retouches.liveIds lists.sorted.coherent] at subject
    obtain ⟨record, live, about⟩ := List.mem_map.1 subject
    exact (shallow record live).remarks n ((noted record live about.symm known).1 mem)

end

end Lists

/-- The listing of an analysis takes 21 levels of nesting, of which a text may have 127, and is read
back from its JSON form and from the text of that, in either layout. There are to be no more
operations than 64 bits can count, and no more variables than there are numbers of 32 bits. -/
theorem listing_reads_back {records : List TraceRecord} {t : Trace}
    (ingested : Trace.ingest records = .ok t) {memory : MemoryMap} {config : Config}
    {function : String} {start d : Arena} {l : Listing}
    (ran : run memory config function t start = .ok l d) (short : records.length ≤ UInt64.size)
    (few : l.vars.length ≤ UInt32.size) :
    l.toJson.isReadable 21 = true ∧ Listing.decoder.run l.toJson = some l ∧
      Listing.ofJsonText? l.toJsonText = some l ∧
      ∀ layout, Listing.ofJsonText? (l.toJson.textIn layout) = some l := by
  obtain ⟨s, a, log, c, remarks, script, ν, collected, lists, rfl, ga, ac, _⟩ :=
    collected_of_run ingested ran
  have reachable : a.Reachable := by
    obtain ⟨calls, _, e⟩ := @Procedure.byCalls .empty (.collect memory t) Procedure.noConfusion
    rw [Procedure.after, collected] at e
    exact ⟨calls, e.symm⟩
  have portable : (Listing.ofArena function d remarks).Portable :=
    lists.portable few reachable.firstAtomic
      (fun _ mem value => Trace.collect_portable ingested short collected mem value)
      (fun holds => Trace.stride_ne_zero ingested ga ac holds)
      (Trace.collect_counts ingested short collected lists.collected)
  refine ⟨portable.reads.fits.readable (Nat.le_refl _), ?_, portable.ofJsonText?_textIn .indented,
    portable.ofJsonText?_textIn⟩
  exact portable.reads_within.found (Nat.le_refl _) (Nat.lt_succ_self _)

/-- A function that takes a union, a first type that is left out, and remarks of two kinds are written
and read back. -/
theorem listing_reads_back_handler :
    Trace.ingest handlerCalls = .ok handlerCallsTrace ∧
    ∃ l d, run .empty .lp64 "f" handlerCallsTrace .empty = .ok l d ∧
      l.vars.length ≤ UInt32.size ∧ l.toJson.isReadable 21 = true ∧
      Listing.ofJsonText? l.toJsonText = some l := by
  have ingested : Trace.ingest handlerCalls = .ok handlerCallsTrace := rfl
  have success : succeeded (run .empty .lp64 "f" handlerCallsTrace .empty) = true := by
    decide +kernel
  have size : (finalState (run .empty .lp64 "f" handlerCallsTrace .empty)).size ≤ UInt32.size := by
    decide +kernel
  obtain ⟨l, d, ran⟩ := exists_of_succeeded success
  rw [ran] at size
  have few : l.vars.length ≤ UInt32.size := by
    obtain ⟨_, _, _, _, _, _, _, rfl⟩ := lists_of_run ran
    rw [Listing.length_vars_ofArena]
    exact size
  obtain ⟨readable, _, found, _⟩ := listing_reads_back ingested ran (by decide) few
  exact ⟨ingested, l, d, ran, few, readable, found⟩

end Analysis

end TypeRecovery
