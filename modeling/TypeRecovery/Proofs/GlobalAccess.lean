import TypeRecovery.Proofs.Segments
import TypeRecovery.Proofs.Totality

/-!
# Accesses to global memory are reported

An access at a fixed address goes to a place in a segment. The report of a program has an entry for
that place that names the function, unless the analysis of the function collapsed equal fields of the
segment to an array: then it tells of the start of the array only (`access_reported`), and the place
may get an entry from another function that does not name this one (`access_unreported`).
-/

namespace TypeRecovery

/-- The address that is `offset` bytes from a fixed one. -/
def Operand.fixedAddress? (offset : Int64) : Operand → Option UInt64
  | .address place => some (place + offset.toUInt64)
  | _ => none

/-- The fixed address that an action accesses. -/
def Action.fixedAddress? : Action → Option UInt64
  | .load base offset _ | .store base offset _ _ | .index base _ offset _ _ =>
    base.fixedAddress? offset
  | _ => none

/-- The place of an address. -/
def MemoryMap.place (memory : MemoryMap) (address : UInt64) : Place :=
  ⟨(memory.locate address).segment, (memory.locate address).offset.toInt64⟩

/-- An entry for a place names a function. -/
def ProgramReport.Reports (r : ProgramReport) (place : Place) (function : String) : Prop :=
  ∃ entry, r.global? place.segment place.offset = some entry ∧ function ∈ entry.functions

/-- Equal fields of a segment were collapsed to an array, and one of them, but not the first, was at a
place. -/
def Listing.Collapses (l : Listing) (config : Config) (place : Place) : Prop :=
  ∃ t, l.contents? place.segment = some t ∧ t.Collapses config place.offset

/-! ## Places in reports -/

/-- Places are totally ordered. -/
lemma Place.lt_total : Ascending.Total Place.lt := by
  rintro ⟨segment, offset⟩ ⟨segment', offset'⟩ above below
  simp only [Place.lt, Bool.or_eq_false_iff, Bool.and_eq_false_iff, decide_eq_false_iff_not,
    beq_eq_false_iff_ne] at above below
  have same : segment = segment' :=
    String.le_antisymm (String.not_lt.1 below.1) (String.not_lt.1 above.1)
  subst same
  have same : offset = offset' := by
    refine Int64.le_antisymm (Int64.not_lt.1 ?_) (Int64.not_lt.1 ?_)
    · simpa using below.2
    · simpa using above.2
  rw [same]

/-- A shape is told of a place if there is a fact about it. -/
lemma Listing.shapeAt?_isSome {facts : List (Place × Shape)} {place : Place} :
    (shapeAt? facts place).isSome ↔ place ∈ facts.map (·.1) := by
  rw [shapeAt?, List.lookup_isSome_iff]
  simp only [List.mem_reverse, beq_iff_eq, List.mem_map]
  exact exists_congr fun fact => and_congr_right fun _ => eq_comm

/-- What is listed was analyzed in an arena of its own. -/
lemma Analysis.run_of_listing {memory : MemoryMap} {config : Config} {function : String} {t : Trace}
    {l : Listing} (listed : listing memory config function t = .ok l) :
    ∃ d, run memory config function t .empty = .ok l d := by
  rw [listing] at listed
  split at listed
  · rename_i d ran
    cases listed
    exact ⟨d, ran⟩
  · cases listed

namespace Program

/-- The entry of a place that some function tells of. -/
lemma find?_globals {observed : List (String × List (Place × Shape))} {place : Place} {name : String}
    {facts : List (Place × Shape)} (mem : (name, facts) ∈ observed)
    (told : place ∈ facts.map (·.1)) :
    ((globals observed).find? fun g => g.segment = place.segment && g.offset == place.offset) =
      some (globalEntry observed place) := by
  have listed : globalEntry observed place ∈ globals observed := by
    refine List.mem_map_of_mem ((Ascending.mem_ofList Place.lt_total).2 ?_)
    exact List.mem_flatMap.2 ⟨_, mem, told⟩
  cases first : (globals observed).find? fun g =>
      g.segment = place.segment && g.offset == place.offset with
  | none => simpa [globalEntry] using List.find?_eq_none.1 first _ listed
  | some entry =>
    obtain ⟨other, _, rfl⟩ := List.mem_map.1 (List.mem_of_find?_eq_some first)
    have matching := List.find?_some first
    simp only [globalEntry, Bool.and_eq_true, decide_eq_true_eq, beq_iff_eq] at matching
    have same : other = place := by
      obtain ⟨segment, offset⟩ := other
      obtain ⟨rfl, rfl⟩ := matching
      rfl
    rw [same]

/-- What a listing tells of a place is reported under the name of the function. -/
lemma reports_of_told {memory : MemoryMap} {config : Config} {functions : List FunctionTrace}
    {f : FunctionTrace} (mem : f ∈ functions) {l : Listing}
    (listed : Analysis.listing memory config f.name f.trace = .ok l) {place : Place}
    (told : place ∈ l.globalFacts.map (·.1)) :
    (analyze memory config functions).Reports place f.name := by
  obtain ⟨observed, known, joined⟩ : ∃ observed, (f.name, l.globalFacts) ∈ observed ∧
      (analyze memory config functions).globals = globals observed := by
    refine ⟨_, ?_, rfl⟩
    refine List.mem_filterMap.2 ⟨_, List.mem_map_of_mem mem, ?_⟩
    rw [listed]
    rfl
  refine ⟨globalEntry observed place, ?_, ?_⟩
  · rw [ProgramReport.global?, joined]
    exact find?_globals known told
  · obtain ⟨shape, seen⟩ := Option.isSome_iff_exists.1 (Listing.shapeAt?_isSome.2 told)
    refine List.mem_map.2 ⟨(f.name, shape), List.mem_filterMap.2 ⟨_, known, ?_⟩, rfl⟩
    show (Listing.shapeAt? l.globalFacts place).map (fun shape => (f.name, shape)) = _
    rw [seen]
    rfl

end Program

/-! ## Accesses -/

section
variable {memory : MemoryMap} {base : Operand} {offset : Int64} {address : UInt64}

/-- An access at a fixed address goes through the pointer to its segment. -/
lemma Operand.pointer_of_fixed (fixed : base.fixedAddress? offset = some address)
    (position slot : Nat) :
    base.pointer memory position slot offset = .segment (memory.place address).segment := by
  cases base <;> cases fixed
  rfl

/-- An access at a fixed address goes to the offset of its place. -/
lemma Operand.place_of_fixed (fixed : base.fixedAddress? offset = some address) :
    base.place memory offset = (memory.place address).offset := by
  cases base <;> cases fixed
  rfl

end

/-- An access at a fixed address is observed as an access to its segment. -/
lemma Action.observes_access {memory : MemoryMap} {action : Action} {address : UInt64}
    (fixed : action.fixedAddress? = some address) (position : Nat) :
    ∃ part k, .accesses (.segment (memory.place address).segment) part k ∈
        action.observations memory position ∧
      Part.offset part = (memory.place address).offset := by
  cases action with
  | load base offset width =>
    refine ⟨.field (base.place memory offset) width, .result position, ?_, base.place_of_fixed fixed⟩
    simp [observations, Operand.pointer_of_fixed fixed]
  | store base offset width value =>
    refine ⟨.field (base.place memory offset) width, value.value position 0, ?_,
      base.place_of_fixed fixed⟩
    simp [observations, Operand.pointer_of_fixed fixed]
  | index base subscript offset stride width =>
    refine ⟨.element (base.place memory offset) stride width, .result position, ?_,
      base.place_of_fixed fixed⟩
    simp [observations, Operand.pointer_of_fixed fixed]
  | literal | copy | advance | compare | bitwise | call => cases fixed

/-- A fixed address is out of range if it lies beyond the largest offset. -/
lemma Action.strays_of_fixed {memory : MemoryMap} {action : Action} {address : UInt64}
    (fixed : action.fixedAddress? = some address)
    (beyond : 2 ^ 63 ≤ (memory.locate address).offset.toNat) : action.Strays memory address := by
  have strays : ∀ {base : Operand} {offset : Int64}, base.fixedAddress? offset = some address →
      base.Strays memory offset address := by
    intro base offset fixed
    cases base <;> cases fixed
    exact ⟨_, rfl, rfl, beyond⟩
  cases action with
  | load | store | index => exact strays fixed
  | literal | copy | advance | compare | bitwise | call => cases fixed

/-- The offset of a place is that of its address, unless it is out of range. -/
lemma MemoryMap.toInt_place {memory : MemoryMap} {address : UInt64}
    (inside : ¬ 2 ^ 63 ≤ (memory.locate address).offset.toNat) :
    (memory.place address).offset.toInt = (memory.locate address).offset.toNat := by
  have bound : 2 * (memory.locate address).offset.toBitVec.toNat < 2 ^ 64 := by
    show 2 * (memory.locate address).offset.toNat < 2 ^ 64
    omega
  exact BitVec.toInt_eq_toNat_of_lt bound

namespace Program

/-- An access at a fixed address is reported at its place under the name of the function. Equal
fields that the analysis of the function collapsed to an array are the exception: they are reported
at the start of the array. -/
theorem access_reported {memory : MemoryMap} {config : Config} {functions : List FunctionTrace}
    {f : FunctionTrace} (mem : f ∈ functions) {records : List TraceRecord}
    (ingested : Trace.ingest records = .ok f.trace) {l : Listing}
    (listed : Analysis.listing memory config f.name f.trace = .ok l) {op : Operation}
    (performed : op ∈ f.trace.operations) {address : UInt64}
    (fixed : op.action.fixedAddress? = some address) :
    (memory.place address).offset.toInt = (memory.locate address).offset.toNat ∧
      (¬ l.Collapses config (memory.place address) →
        (analyze memory config functions).Reports (memory.place address) f.name) ∧
      (l.Collapses config (memory.place address) →
        memory.place address ∉ l.globalFacts.map (·.1) ∧
          (analyze memory config functions).Reports ⟨(memory.place address).segment, 0⟩ f.name) := by
  obtain ⟨d, ran⟩ := Analysis.run_of_listing listed
  obtain ⟨a, log, c, remarks, script, ν, lists, rfl, ga, ac, fits⟩ :=
    Analysis.observed_of_run ingested ran
  obtain ⟨part, k, observed, offset⟩ := op.action.observes_access fixed op.position
  obtain ⟨x, t, y, name, points, _, states⟩ := ac.confirms _
    (List.mem_flatMap.2 ⟨op, performed, List.mem_append_left _ observed⟩)
  -- no other value is joined with the pointer to a segment, so the contents tell of this access
  obtain ⟨u, contents, laid⟩ :=
    lists.contents_laysOut f.name ga ac Trace.segmentsApart_observations name points
  have here := laid part y states
  rw [offset] at here
  have told : ∀ {other : Int64}, other ∈ u.offsets → (⟨(memory.place address).segment, other⟩ :
      Place) ∈ (Listing.ofArena f.name d remarks).globalFacts.map (·.1) :=
    fun mem => (lists.mem_globalFacts_iff ga ac).2 ⟨u, contents, mem⟩
  refine ⟨MemoryMap.toInt_place fun beyond => ?_, fun whole => ?_, fun collapses => ⟨?_, ?_⟩⟩
  · exact fits op performed address (Action.strays_of_fixed fixed beyond)
  · rcases here with shown | collapses
    · exact reports_of_told mem listed (told shown)
    · exact (whole ⟨u, contents, collapses⟩).elim
  · obtain ⟨u', contents', collapses⟩ := collapses
    intro shown
    obtain ⟨u'', contents'', shown⟩ := (lists.mem_globalFacts_iff ga ac).1 shown
    cases contents'.symm.trans contents''
    exact collapses.not_mem_offsets shown
  · obtain ⟨u', contents', collapses⟩ := collapses
    cases contents.symm.trans contents'
    exact reports_of_told mem listed (told collapses.zero_mem_offsets)

/-- Two bytes in a row are loaded. -/
def bothRecords : List TraceRecord :=
  [{ kind := some .load, operands := [.address 0], width := some 1 },
    { kind := some .load, operands := [.address 1], width := some 1 }]

def both : FunctionTrace :=
  ⟨"both", ⟨[⟨0, 0, .load (.address 0) 0 1, none⟩, ⟨1, 0, .load (.address 1) 0 1, none⟩]⟩⟩

/-- The second one of these bytes is loaded alone. -/
def second : FunctionTrace :=
  ⟨"second", ⟨[⟨0, 0, .load (.address 1) 0 1, none⟩]⟩⟩

/-- The function that loads two bytes in a row is listed. -/
lemma both_listed : ∃ l, Analysis.listing .empty .lp64 both.name both.trace = .ok l := by
  have ingested : Trace.ingest bothRecords = .ok both.trace := rfl
  have fits : ∀ op ∈ both.trace.operations, ∀ address, ¬ op.action.Strays .empty address := by
    simp only [both, List.forall_mem_cons]
    refine ⟨?_, ?_, by simp⟩
    all_goals
      rintro address ⟨place, ⟨⟩, rfl, beyond⟩
      revert beyond
      decide
  obtain ⟨l, d, ran⟩ := Analysis.run_of_fits ingested fits .lp64 both.name .empty
  exact ⟨l, by rw [Analysis.listing, ran]⟩

/-- The two bytes are an array, so only the first of them is reported for the function that loads
both. -/
theorem access_reported_both : ∃ l, Analysis.listing .empty .lp64 both.name both.trace = .ok l ∧
    l.Collapses .lp64 (MemoryMap.empty.place 1) ∧
    MemoryMap.empty.place 1 ∉ l.globalFacts.map (·.1) ∧
    (analyze .empty .lp64 [both, second]).Reports ⟨"globals", 0⟩ both.name := by
  obtain ⟨l, listed⟩ := both_listed
  have ingested : Trace.ingest bothRecords = .ok both.trace := rfl
  have contents : (Analysis.listing .empty .lp64 both.name both.trace).toOption.bind
      (·.contents? "globals") = some (.array .byte (some 2)) := by decide +kernel
  rw [listed] at contents
  have collapses : l.Collapses .lp64 (MemoryMap.empty.place 1) :=
    ⟨_, contents, rfl, by decide, .byte, 2, 1, 1, rfl, rfl, by decide, by decide⟩
  exact ⟨l, listed, collapses, (access_reported List.mem_cons_self ingested listed
    (List.mem_cons_of_mem _ List.mem_cons_self) rfl).2.2 collapses⟩

/-- The entry for the second byte does not name the function that loads both. -/
theorem access_unreported : ∃ l op, Analysis.listing .empty .lp64 both.name both.trace = .ok l ∧
    op ∈ both.trace.operations ∧ op.action.fixedAddress? = some 1 ∧
    ¬ (analyze .empty .lp64 [both, second]).Reports (MemoryMap.empty.place 1) both.name := by
  obtain ⟨l, listed⟩ := both_listed
  refine ⟨l, _, listed, List.mem_cons_of_mem _ List.mem_cons_self, rfl, ?_⟩
  rintro ⟨entry, found, named⟩
  have known : (analyze .empty .lp64 [both, second]).global? "globals" 1 =
      some ⟨"globals", 1, .integer 1 .unknown, ["second"]⟩ := by decide +kernel
  have same : some entry = some ⟨"globals", 1, .integer 1 .unknown, ["second"]⟩ :=
    found.symm.trans known
  cases same
  revert named
  decide

end Program

end TypeRecovery
