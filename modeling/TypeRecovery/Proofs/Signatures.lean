import TypeRecovery.Proofs.DataType.Retention
import TypeRecovery.Proofs.Precedence
import TypeRecovery.Proofs.Resolution.Accesses
import TypeRecovery.Proofs.Unassigned

/-!
# Signatures

A class that is called is a function. If all calls pass equally many values, it takes at each position
a type that covers what the calls pass there, and otherwise it is untyped and remarked on. What it
gives covers the results that are used (`signature_covers_calls`). A join covers all that is joined,
and the values that calls pass are resolved before the function, as values contain nothing.
-/

namespace TypeRecovery

/-! ## Types that accept others -/

namespace DataType

variable {t param passed : DataType} {ts : List DataType}

/-- Every alternative of what is passed, other than `void`, is covered by one of the parameter. -/
def Accepts (param passed : DataType) : Prop :=
  ∀ x ∈ passed.alternatives, x ≠ .void → ∃ y ∈ param.alternatives, y.Covers x

/-- A join of types is in normal form. -/
lemma normal_joinAll (ts : List DataType) : (joinAll ts).Normal := by
  rw [joinAll_eq_collect]
  exact normal_iff.2 (domain.normal_collect ts)

/-- A join covers each alternative of each type that is joined. -/
lemma exists_covers_joinAll (mem : t ∈ ts) {x : DataType} (leaf : x ∈ t.leaves) :
    ∃ y ∈ (joinAll ts).leaves, y.Covers x := by
  rw [joinAll_eq_collect]
  exact exists_covers_collect mem leaf

/-- A join accepts each type that is joined. -/
lemma accepts_joinAll (mem : t ∈ ts) (normal : t.Normal) : (joinAll ts).Accepts t := by
  intro x inside known
  rw [normal.alternatives_eq] at inside
  split at inside
  · exact absurd (List.mem_singleton.1 inside) known
  · obtain ⟨y, found, covers⟩ := exists_covers_joinAll mem inside
    rw [(normal_joinAll ts).alternatives_eq, if_neg (List.ne_nil_of_mem found)]
    exact ⟨y, found, covers⟩

/-- A normal form without alternatives is `void`. -/
lemma Normal.eq_void (normal : t.Normal) (none : t.leaves = []) : t = .void :=
  (normal_iff.1 normal).eq_of_leaves .none none

/-- Only types of which nothing is known are joined to `void`. -/
lemma joinAll_eq_void (normal : ∀ t ∈ ts, t.Normal) : joinAll ts = .void ↔ ∀ t ∈ ts, t = .void := by
  refine ⟨fun void t mem => ?_, fun all => ?_⟩
  · apply (normal t mem).eq_void
    rw [List.eq_nil_iff_forall_not_mem]
    intro x leaf
    obtain ⟨y, found, _⟩ := exists_covers_joinAll mem leaf
    rw [void] at found
    cases found
  · rw [joinAll_eq_collect]
    apply Alternatives.Domain.Normal.none.collect_eq
    exact List.flatMap_eq_nil_iff.2 fun t mem => congrArg DataType.leaves (all t mem)

/-- A union of two types that do not fit each other is in normal form. -/
lemma normal_pair {a b : DataType} (plain : a ≠ .void ∧ a.isUnion = false)
    (plain' : b ≠ .void ∧ b.isUnion = false) (apart : ¬ Fits a b) : (union [a, b]).Normal := by
  refine ⟨Nat.le_refl 2, ?_, List.pairwise_pair.2 ?_⟩
  · rw [List.forall_mem_cons, List.forall_mem_singleton]
    exact ⟨plain, plain'⟩
  · rw [merge?_eq_none_iff, merge?_eq_none_iff]
    exact ⟨apart, fun fits => apart fits.symm⟩

/-- Renaming classes renames them in each alternative. -/
lemma alternatives_mapClasses (f : ClassId → ClassId) (t : DataType) :
    (t.mapClasses f).alternatives = t.alternatives.map (mapClasses f) := by
  cases t with
  | union ts => exact mapClassesList_eq f ts
  | _ => rfl

/-- Renaming classes keeps what a type accepts. -/
lemma Accepts.mapClasses (accepts : param.Accepts passed) (f : ClassId → ClassId) :
    (param.mapClasses f).Accepts (passed.mapClasses f) := by
  intro x mem known
  rw [alternatives_mapClasses] at mem ⊢
  obtain ⟨x, inside, rfl⟩ := List.mem_map.1 mem
  obtain ⟨y, found, covers⟩ := accepts x inside (mt mapClasses_eq_void.2 known)
  exact ⟨_, List.mem_map_of_mem found, covers.mapClasses f⟩

end DataType

/-! ## The verdict on a class that is called -/

namespace Inquiry

variable {typeOf : VarId → DataType} {classOf : VarId → ClassId} {c : ClassId}
  {sites : List CallSite}

/-- An inquiry that ends has its answer and its remarks as its outcome. -/
lemma Ends.outcome {α : Type} {x : Inquiry α} {remarks : List Remark} {r : α}
    (ends : x.Ends (fun v => some (typeOf v)) remarks r) :
    x.outcome typeOf classOf = (some r, remarks) := by
  induction ends with
  | answer => rfl
  | remark _ ih => rw [Inquiry.outcome, ih]
  | askType _ ih => exact ih

/-- What calls pass at a position. -/
def passed (typeOf : VarId → DataType) (sites : List CallSite) (index : Nat) : List DataType :=
  (sites.filterMap fun site => site.args[index]?).map typeOf

/-- The results of calls that are used. -/
def used (typeOf : VarId → DataType) (sites : List CallSite) : List DataType :=
  (sites.filterMap (·.result)).map typeOf

/-- The remark on a parameter that is a union which no call passes as such. -/
def conflict (typeOf : VarId → DataType) (c : ClassId) (sites : List CallSite) (index : Nat) :
    List Remark :=
  let param := DataType.joinAll (passed typeOf sites index)
  if param.isUnion && !(passed typeOf sites index).contains param then [.paramConflict c index]
  else []

/-- What becomes of a class that is called: the calls agree on their arity, or they diverge. -/
inductive Signs (typeOf : VarId → DataType) (c : ClassId) (sites : List CallSite) :
    List Remark → DataType → Prop
  | agreed {remarks : List Remark} {arity : Nat} : (∀ site ∈ sites, site.args.length = arity) →
    (∀ arities, .divergentArity c arities ∉ remarks) →
    Signs typeOf c sites remarks (.function
      ((List.range arity).map fun index => .joinAll (passed typeOf sites index))
      (.joinAll (used typeOf sites)) false)
  | diverged {remarks : List Remark} {x y : CallSite} {arities : List Nat} :
    x ∈ sites → y ∈ sites → x.args.length ≠ y.args.length → .divergentArity c arities ∈ remarks →
    Signs typeOf c sites remarks (.function [] (.joinAll (used typeOf sites)) true)

/-- The types of values that are passed are known, so asking for them leaves no remark. -/
lemma passedTypes_ends (typeOf : VarId → DataType) (vs : List VarId) :
    (vs.mapM passedType).Ends (fun v => some (typeOf v)) [] (vs.map typeOf) := by
  have each : ∀ v, (passedType v).Ends (fun v => some (typeOf v)) [] (typeOf v) :=
    fun v => .askType (.answer (typeOf v))
  have ends := Ends.mapM each vs
  rwa [List.flatMap_eq_nil_iff.2 fun _ _ => rfl] at ends

/-- The type of a parameter is the join of what the calls pass, with a remark if that is a conflict.
-/
lemma paramType_ends (typeOf : VarId → DataType) (c : ClassId) (sites : List CallSite)
    (index : Nat) :
    (paramType c sites index).Ends (fun v => some (typeOf v)) (conflict typeOf c sites index)
      (.joinAll (passed typeOf sites index)) := by
  show (paramType c sites index).Ends _ ([] ++ conflict typeOf c sites index) _
  apply (passedTypes_ends typeOf _).bind
  rw [conflict, passed]
  dsimp only
  split
  · exact .remark (.answer _)
  · exact .answer _

/-- A conflict of a parameter is no remark on the arity. -/
lemma divergentArity_not_mem_conflict {index : Nat} {arities : List Nat} :
    .divergentArity c arities ∉ conflict typeOf c sites index := by
  rw [conflict]
  split <;> simp

/-- The type of a class that is called, where the types of values are known. -/
lemma functionType_ends (typeOf : VarId → DataType) (c : ClassId) (sites : List CallSite) :
    ∃ remarks t, (functionType c sites).Ends (fun v => some (typeOf v)) remarks t ∧
      Signs typeOf c sites remarks t := by
  have results := passedTypes_ends typeOf (sites.filterMap (·.result))
  have lengths : ∀ {n}, n ∈ Ascending.distinct (sites.map fun site => site.args.length) ↔
      ∃ site ∈ sites, site.args.length = n := by
    intro n
    rw [Ascending.mem_distinct, List.mem_map]
  have nodup := Ascending.nodup_distinct (sites.map fun site => site.args.length)
  rw [functionType]
  -- the arities that occur are distinct, so the first two of them belong to calls that diverge
  cases distinct : Ascending.distinct (sites.map fun site => site.args.length) with
  | nil =>
    rw [distinct] at lengths
    refine ⟨_, _, results.bind (.answer _), @Signs.agreed typeOf c sites _ 0 ?_ (by simp)⟩
    intro site mem
    cases lengths.2 ⟨site, mem, rfl⟩
  | cons arity others =>
    rw [distinct] at lengths nodup
    cases others with
    | nil =>
      have params := Ends.mapM (paramType_ends typeOf c sites) (List.range arity)
      have whole := params.map fun params =>
        DataType.function params (.joinAll (used typeOf sites)) false
      refine ⟨_, _, results.bind whole, .agreed ?_ ?_⟩
      · intro site mem
        exact List.mem_singleton.1 (lengths.2 ⟨site, mem, rfl⟩)
      · intro arities mem
        obtain ⟨index, _, mem⟩ := List.mem_flatMap.1 mem
        exact divergentArity_not_mem_conflict mem
    | cons other others =>
      refine ⟨_, _, results.bind (.remark (.answer _)), ?_⟩
      obtain ⟨x, inside, rfl⟩ := lengths.1 List.mem_cons_self
      obtain ⟨y, inside', rfl⟩ := lengths.1 (List.mem_cons_of_mem _ List.mem_cons_self)
      have apart := (List.nodup_cons.1 nodup).1
      exact .diverged inside inside' (fun same => apart (same ▸ List.mem_cons_self))
        List.mem_cons_self

/-- That a class is accessed in parts as well is remarked on, and makes no other difference. -/
lemma verdict_ends (config : Config) (typeOf : VarId → DataType) (c : ClassId) {e : Evidence}
    (called : e.callSites ≠ []) :
    ∃ remarks t, (verdict config c e).Ends (fun v => some (typeOf v)) remarks t ∧
      Signs typeOf c e.callSites remarks t := by
  obtain ⟨remarks, t, ends, signs⟩ := functionType_ends typeOf c e.callSites
  have some : (!e.callSites.isEmpty) = true := by simpa using called
  rw [verdict, if_pos some]
  cases e.isAggregate with
  | false => exact ⟨remarks, t, ends, signs⟩
  | true =>
    refine ⟨.mixedCodeData c :: remarks, t, .remark ends, ?_⟩
    cases signs with
    | agreed same calm =>
      refine .agreed same fun arities mem => ?_
      rcases List.mem_cons.1 mem with same | mem
      · cases same
      · exact calm arities mem
    | diverged inside inside' apart left =>
      exact .diverged inside inside' apart (List.mem_cons_of_mem _ left)

end Inquiry

/-! ## The types of values -/

/-- The type of a value is in normal form. -/
lemma Inquiry.valueType_normal (config : Config) (e : Evidence) (target : ClassId) :
    (valueType config e target).Normal := by
  have apart : ¬ (integerType config e).Fits (.pointer target) := by
    intro fits
    cases fits
  have integer : integerType config e ≠ .void ∧ (integerType config e).isUnion = false :=
    ⟨DataType.noConfusion, rfl⟩
  have pointer : DataType.pointer target ≠ .void ∧ (DataType.pointer target).isUnion = false :=
    ⟨DataType.noConfusion, rfl⟩
  rw [valueType]
  split
  · rw [pointerVerdict]
    split
    · dsimp only
      split
      · exact DataType.normal_pair integer pointer apart
      · exact DataType.normal_pair pointer integer fun fits => apart fits.symm
    · exact DataType.normal_of_plain rfl
  · rw [scalarType]
    split
    · exact DataType.normal_of_plain rfl
    split
    · exact DataType.normal_of_plain rfl
    split
    · exact DataType.normal_of_plain rfl
    · exact DataType.normal_of_plain rfl

/-! ## Signatures that are listed -/

namespace ClassRecord

/-- The evidence of a class has a call. -/
def Calls (record : ClassRecord) (site : CallSite) : Prop :=
  Fact.callSite site ∈ record.constraints.map (·.fact)

/-- Two calls pass different numbers of arguments. -/
def Diverges (record : ClassRecord) : Prop :=
  ∃ x y, record.Calls x ∧ record.Calls y ∧ x.args.length ≠ y.args.length

/-- There is one parameter for each argument of a call, and it accepts the type of the argument. -/
def Takes (record : ClassRecord) (typeOf : VarId → Option DataType) (params : List DataType) :
    Prop :=
  ∀ site, record.Calls site → params.length = site.args.length ∧
    ∀ (i : Nat) (v : VarId), site.args[i]? = some v →
      ∃ param ∈ params[i]?, ∃ t ∈ typeOf v, param.Accepts t

/-- The type accepts those of the results that are used, and is `void` only if all of them are. -/
def Gives (record : ClassRecord) (typeOf : VarId → Option DataType) (result : DataType) : Prop :=
  (∀ site v, record.Calls site → site.result = some v → ∃ t ∈ typeOf v, result.Accepts t) ∧
  (result = .void ↔ ∀ site v, record.Calls site → site.result = some v → typeOf v = some .void)

/-- The calls of a class, in the order of the evidence. -/
def sites (record : ClassRecord) : List CallSite :=
  (Evidence.gather record.constraints).callSites

/-- The sites of a class are its calls. -/
lemma mem_sites {record : ClassRecord} {site : CallSite} :
    site ∈ record.sites ↔ record.Calls site :=
  Inquiry.mem_callSites

instance (record : ClassRecord) : Decidable record.Diverges :=
  decidable_of_iff (∃ x ∈ record.sites, ∃ y ∈ record.sites, x.args.length ≠ y.args.length) <| by
    simp only [mem_sites, Diverges, exists_and_left]

/-- What is used is the results of calls. -/
lemma mem_used {record : ClassRecord} {typeOf : VarId → DataType} {t : DataType} :
    t ∈ Inquiry.used typeOf record.sites ↔
      ∃ site v, record.Calls site ∧ site.result = some v ∧ typeOf v = t := by
  rw [Inquiry.used, List.mem_map]
  refine ⟨?_, ?_⟩
  · rintro ⟨v, mem, rfl⟩
    obtain ⟨site, inside, result⟩ := List.mem_filterMap.1 mem
    exact ⟨site, v, mem_sites.1 inside, result, rfl⟩
  · rintro ⟨site, v, calls, result, rfl⟩
    exact ⟨v, List.mem_filterMap.2 ⟨site, mem_sites.2 calls, result⟩, rfl⟩

end ClassRecord

namespace Analysis

namespace Lists

variable {config : Config} {function : String} {a c d : Arena} {log : List Constraint}
  {remarks : List Remark} {types : ClassId → DataType} {record : ClassRecord} {site : CallSite}
  {v : VarId}

/-- The verdict on a class that is called, by a solution. -/
lemma signs_of_solves (lists : Lists config a log c d remarks) (solves : c.Solves log config types)
    (live : record ∈ d.liveClasses) (called : record.sites ≠ []) :
    Inquiry.Signs (fun v => types (c.holder v)) record.id record.sites
      (c.remarksOn log config types record.id) (types record.id) := by
  have lives : record.id ∈ c.liveIds := by
    rw [← lists.retouches.liveIds lists.sorted.coherent]
    exact List.mem_map_of_mem live
  have judged := solves record.id lives
  rw [ClassRecord.sites, (lists.records live).2] at called ⊢
  obtain ⟨left, t, ends, signs⟩ :=
    Inquiry.verdict_ends config (fun v => types (c.holder v)) record.id called
  rw [Arena.remarksOn]
  rw [Arena.judgement, ends.outcome] at judged ⊢
  cases judged
  exact signs

/-- Calls pass and give values. -/
lemma value_of_calls (lists : Lists config a log c d remarks) (live : record ∈ d.liveClasses)
    (calls : record.Calls site) (mem : v ∈ site.args ++ site.result.toList) :
    c.isPointee? v = some false := by
  rw [ClassRecord.Calls, (lists.records live).2] at calls
  obtain ⟨constraint, inside, fact⟩ := List.mem_map.1 calls
  apply lists.sorted.mentions (Arena.mem_evidence.1 inside).1
  rw [fact]
  exact List.mem_map_of_mem mem

/-- Every variable has a class that is live in the end. -/
lemma exists_holder (lists : Lists config a log c d remarks) (lt : v.index < c.size) :
    ∃ record ∈ d.liveClasses, record.id = c.holder v := by
  rw [← lists.retouches.size] at lt
  obtain ⟨record, live, h⟩ := lists.coherent.leader_live lt
  rw [lists.leaderOf] at h
  exact ⟨record, live, h.id⟩

section
variable (lists : Lists config a log c d remarks)
  (typed : ∀ record ∈ d.liveClasses, record.dataType = some (types record.id))
include lists typed

/-- The type of a class of values is in normal form. -/
lemma normal_of_value (value : c.isPointee? v = some false) : (types (c.holder v)).Normal := by
  obtain ⟨record, live, held⟩ := lists.exists_holder (Arena.lt_of_isPointee? value)
  obtain ⟨t, verdict, entails⟩ := lists.entails record live
  cases verdict.symm.trans (typed record live)
  rw [held] at entails
  obtain ⟨target, type, _⟩ := lists.sorted.valueType_of_entails value entails
  rw [type]
  exact Inquiry.valueType_normal _ _ _

/-- The type of a value, as it is listed, is that of its class. -/
lemma typeOf?_of_value (value : c.isPointee? v = some false) :
    (Listing.ofArena function d remarks).typeOf? v =
      some ((types (c.holder v)).mapClasses (Listing.liveClass d)) := by
  have lt := Arena.lt_of_isPointee? value
  obtain ⟨record, live, held⟩ := lists.exists_holder lt
  rw [Arena.size, lists.store] at lt
  have leader : (⟨c.forest.leaderOf v.index⟩ : ClassId) = record.id := held.symm
  rw [Listing.typeOf?, lists.classOf?_eq lt, Option.bind_some, leader,
    Listing.class?_ofArena lists.coherent live, Option.map_some, Listing.classEntry,
    typed record live, Option.getD_some, held]

/-- A join accepts the type of each value that is joined, as it is listed. -/
lemma accepts_joinAll (value : c.isPointee? v = some false) {ts : List DataType}
    (mem : types (c.holder v) ∈ ts) : ∃ t ∈ (Listing.ofArena function d remarks).typeOf? v,
      ((DataType.joinAll ts).mapClasses (Listing.liveClass d)).Accepts t := by
  have accepts := DataType.accepts_joinAll mem (lists.normal_of_value typed value)
  exact ⟨_, lists.typeOf?_of_value typed value, accepts.mapClasses _⟩

/-- If the calls agree on their arity, the parameters take what they pass. -/
lemma takes_passed (live : record ∈ d.liveClasses) {arity : Nat}
    (agree : ∀ site ∈ record.sites, site.args.length = arity) :
    record.Takes (Listing.ofArena function d remarks).typeOf?
      (((List.range arity).map fun index =>
        .joinAll (Inquiry.passed (fun v => types (c.holder v)) record.sites index)).map
          (DataType.mapClasses (Listing.liveClass d))) := by
  intro site calls
  have inside := ClassRecord.mem_sites.2 calls
  refine ⟨by rw [List.length_map, List.length_map, List.length_range, agree site inside], ?_⟩
  intro i v passed
  have lt : i < arity := agree site inside ▸ (List.getElem?_eq_some_iff.1 passed).1
  have value := lists.value_of_calls live calls
    (List.mem_append_left _ (List.mem_of_getElem? passed))
  have mem : types (c.holder v) ∈ Inquiry.passed (fun v => types (c.holder v)) record.sites i :=
    List.mem_map_of_mem (List.mem_filterMap.2 ⟨site, inside, passed⟩)
  refine ⟨_, ?_, lists.accepts_joinAll typed value mem⟩
  rw [List.getElem?_map, List.getElem?_map, List.getElem?_range lt]
  rfl

/-- What a function gives is the join of the results that are used. -/
lemma gives_used (live : record ∈ d.liveClasses) :
    record.Gives (Listing.ofArena function d remarks).typeOf?
      ((DataType.joinAll (Inquiry.used (fun v => types (c.holder v)) record.sites)).mapClasses
        (Listing.liveClass d)) := by
  have value : ∀ {site v}, record.Calls site → site.result = some v →
      c.isPointee? v = some false := by
    intro site v calls result
    apply lists.value_of_calls live calls
    rw [result]
    exact List.mem_append_right _ (List.mem_singleton_self v)
  refine ⟨fun site v calls result => ?_, ?_⟩
  · apply lists.accepts_joinAll typed (value calls result)
    exact ClassRecord.mem_used.2 ⟨site, v, calls, result, rfl⟩
  · have normal : ∀ t ∈ Inquiry.used (fun v => types (c.holder v)) record.sites, t.Normal := by
      intro t mem
      obtain ⟨site, v, calls, result, rfl⟩ := ClassRecord.mem_used.1 mem
      exact lists.normal_of_value typed (value calls result)
    rw [DataType.mapClasses_eq_void, DataType.joinAll_eq_void normal]
    refine ⟨fun all site v calls result => ?_, fun all t mem => ?_⟩
    · have void := all _ (ClassRecord.mem_used.2 ⟨site, v, calls, result, rfl⟩)
      rw [lists.typeOf?_of_value typed (value calls result), void, DataType.mapClasses]
    · obtain ⟨site, v, calls, result, rfl⟩ := ClassRecord.mem_used.1 mem
      have void := all site v calls result
      rw [lists.typeOf?_of_value typed (value calls result)] at void
      exact DataType.mapClasses_eq_void.1 (Option.some.inj void)

end

end Lists

/-- A class that is called is a function. It is untyped and remarked on if its calls diverge, and
otherwise its parameters take what the calls pass. What it gives is what the calls use. -/
theorem signature_covers_calls {records : List TraceRecord} {t : Trace}
    (ingested : Trace.ingest records = .ok t) {memory : MemoryMap} {config : Config}
    {function : String} {start d : Arena} {l : Listing}
    (ran : run memory config function t start = .ok l d) {record : ClassRecord}
    (live : record ∈ d.liveClasses) (called : ∃ site, record.Calls site) :
    ∃ entry params result untyped, l.class? record.id = some entry ∧
      entry.dataType = .function params result untyped ∧
      (untyped = true ↔ record.Diverges) ∧
      ((∃ arities, .divergentArity record.id arities ∈ l.remarks) ↔ record.Diverges) ∧
      (¬ record.Diverges → record.Takes l.typeOf? params) ∧ record.Gives l.typeOf? result := by
  obtain ⟨s, a, log, c, remarks, script, ν, collected, lists, rfl, ga, ac, _⟩ :=
    collected_of_run ingested ran
  obtain ⟨types, solves, typed, noted⟩ :=
    lists.exists_solution fun holds => Trace.stride_ne_zero ingested ga ac holds
  have some : record.sites ≠ [] := by
    obtain ⟨site, calls⟩ := called
    exact List.ne_nil_of_mem (ClassRecord.mem_sites.2 calls)
  have remarked : ∀ arities, .divergentArity record.id arities ∈
      (Listing.ofArena function d remarks).remarks ↔
        .divergentArity record.id arities ∈ c.remarksOn log config types record.id := by
    intro arities
    rw [mem_remarks_ofArena, noted record live rfl rfl]
  have type : (Listing.classEntry d record).dataType =
      (types record.id).mapClasses (Listing.liveClass d) := by
    rw [Listing.classEntry, typed record live, Option.getD_some]
  have gives : record.Gives (Listing.ofArena function d remarks).typeOf? _ :=
    lists.gives_used typed live
  have signs := lists.signs_of_solves solves live some
  -- the verdict alone tells the two cases apart, whatever the solution is
  simp only [remarked]
  generalize c.remarksOn log config types record.id = left at signs
  generalize types record.id = t at signs type
  cases signs with
  | agreed agree calm =>
    have together : ¬ record.Diverges := by
      rintro ⟨x, y, calls, calls', apart⟩
      exact apart ((agree x (ClassRecord.mem_sites.2 calls)).trans
        (agree y (ClassRecord.mem_sites.2 calls')).symm)
    refine ⟨_, _, _, false, Listing.class?_ofArena lists.coherent live, type, ?_, ?_, ?_, gives⟩
    · simp [together]
    · simp [together, calm]
    · intro _
      rw [DataType.mapClassesList_eq]
      exact lists.takes_passed typed live agree
  | diverged inside inside' apart left =>
    have diverges : record.Diverges :=
      ⟨_, _, ClassRecord.mem_sites.1 inside, ClassRecord.mem_sites.1 inside', apart⟩
    refine ⟨_, _, _, true, Listing.class?_ofArena lists.coherent live, type, ?_, ?_, ?_, gives⟩
    · simp [diverges]
    · simp only [diverges, iff_true]
      exact ⟨_, left⟩
    · exact fun together => absurd diverges together

/-- A handler is passed a pointer and a byte, and then two numbers. One result is used. -/
def handlerCalls : List TraceRecord :=
  [{ kind := some .load, operands := [.storage "p"], width := some 4 },
    { kind := some .call, operands := [.storage "g", .storage "p", .literal 7 1],
      argCount := some 2, resultUsed := true },
    { kind := some .call, operands := [.storage "g", .literal 1 8, .literal 300 2],
      argCount := some 2 },
    { kind := some .bitwise, operands := [.result 1, .literal 1 4], bitOperator := some .or,
      width := some 4 }]

def handlerCallsTrace : Trace :=
  ⟨[⟨0, 0, .load (.storage "p") 0 4, none⟩,
    ⟨1, 0, .call (.storage "g") [.storage "p", .literal 7 1] true, none⟩,
    ⟨2, 0, .call (.storage "g") [.literal 1 8, .literal 300 2] false, none⟩,
    ⟨3, 0, .bitwise .or (.result 1) (.literal 1 4) 4, none⟩]⟩

/-- The calls of the handler agree on their arity, so it takes what they pass and gives what they
use. -/
theorem signature_covers_calls_handler :
    ∃ l d record, run .empty .lp64 "f" handlerCallsTrace .empty = .ok l d ∧
      record ∈ d.liveClasses ∧ ∃ entry params result, l.class? record.id = some entry ∧
        entry.dataType = .function params result false ∧ record.Takes l.typeOf? params ∧
        record.Gives l.typeOf? result := by
  have ingested : Trace.ingest handlerCalls = .ok handlerCallsTrace := rfl
  have success : succeeded (run .empty .lp64 "f" handlerCallsTrace .empty) = true := by
    decide +kernel
  have shown : ∃ record ∈ (finalState (run .empty .lp64 "f" handlerCallsTrace .empty)).liveClasses,
      record.sites ≠ [] ∧ ¬ record.Diverges := by decide +kernel
  obtain ⟨l, d, ran⟩ := exists_of_succeeded success
  rw [ran] at shown
  obtain ⟨record, live, called, together⟩ := shown
  obtain ⟨site, mem⟩ := List.exists_mem_of_ne_nil _ called
  obtain ⟨entry, params, result, untyped, listed, type, diverges, _, takes, gives⟩ :=
    signature_covers_calls ingested ran live ⟨site, ClassRecord.mem_sites.1 mem⟩
  have typed : untyped = false := Bool.eq_false_iff.2 fun same => together (diverges.1 same)
  exact ⟨l, d, record, ran, live, entry, params, result, listed, typed ▸ type, takes together, gives⟩

end Analysis

end TypeRecovery
