import TypeRecovery.Proofs.Account
import TypeRecovery.Proofs.Listing
import TypeRecovery.Proofs.Resolution.Agreement

/-!
# The types of named storage

What a listing says of named storage can be read off the observations that were collected: two names
share a class if the observations join them (`sharesClass_iff_joined`), and the type of a name is the
type of a value of which all is told that is told of the values it is joined with.
-/

namespace TypeRecovery

/-! ## Storage in listings -/

namespace Listing

/-- The class of named storage. -/
def storageClass? (l : Listing) (name : String) : Option ClassId :=
  (l.storage? name).bind l.classOf?

/-- The type of named storage. -/
def storageType? (l : Listing) (name : String) : Option DataType :=
  (l.storage? name).bind l.typeOf?

/-- Two names of storage have one class. -/
def SharesClass (l : Listing) (name other : String) : Prop :=
  ∃ c, l.storageClass? name = some c ∧ l.storageClass? other = some c

end Listing

/-! ## What is observed of a value -/

/-- A fact is told of a value or of one that it is joined with. -/
def Told (obs : List Observation) (v : Value) (fact : Fact) : Prop :=
  ∃ w, Joined obs v w ∧ .tells w fact ∈ obs

/-- A value, or one that it is joined with, is dereferenced. -/
def Dereferenced (obs : List Observation) (v : Value) : Prop :=
  ∃ w, Joined obs v w ∧ .dereferences w ∈ obs

/-! ## Names and sites -/

/-- The use of a variable stands under its number. -/
lemma Arena.getElem?_sites (a : Arena) (v : VarId) :
    a.sites[v.index]? = (a.var? v).map (·.site) := by
  simp [Arena.sites, Arena.var?, VariableStore.get?, VariableStore.toList]

section
variable {script : Script} {obs : List Observation} {ν : Naming}

/-- The variable of a value is the one with a use that only this value has. -/
lemma Script.Accounts.site_iff (ac : script.Accounts obs ν) {site : UseSite} {k : Value}
    (value : site.isPointee = false)
    (only : ∀ {l other}, Value.Has l other → (other = site ↔ l = k)) {v : VarId} :
    script.sites[v.index]? = some site ↔ ν k = some v := by
  constructor
  · intro here
    rcases ac.made here with ⟨l, named⟩ | ⟨pointee, _⟩
    · obtain ⟨_, other, here', has⟩ := ac.named named
      cases here.symm.trans here'
      cases (only has).1 rfl
      exact named
    · rw [value] at pointee
      cases pointee
  · intro named
    obtain ⟨_, other, here, has⟩ := ac.named named
    rw [here, (only has).2 rfl]

/-- The variable of a name is the one whose use is that name. -/
lemma Script.Accounts.storage_iff (ac : script.Accounts obs ν) {name : String} {v : VarId} :
    script.sites[v.index]? = some (.storage name) ↔ ν (.storage name) = some v :=
  ac.site_iff rfl fun has => has.storage name

/-- The variable of a segment is the one whose use is that segment. -/
lemma Script.Accounts.segment_iff (ac : script.Accounts obs ν) {name : String} {v : VarId} :
    script.sites[v.index]? = some (.segment name) ↔ ν (.segment name) = some v :=
  ac.site_iff rfl fun has => has.segment name

end

namespace Analysis.Lists

variable {config : Config} {function : String} {a c d : Arena} {log : List Constraint}
  {remarks : List Remark} {script : Script} {obs : List Observation} {ν : Naming}

/-- The listed uses are those of the script. -/
lemma sites (lists : Lists config a log c d remarks) (ga : script.Gathers a) :
    d.sites = script.sites := by
  rw [← ga.uses, Arena.sites, Arena.sites, lists.retouches.store, lists.store]

/-- The variable with a use, as it is listed. -/
lemma find?_eq (lists : Lists config a log c d remarks) (ga : script.Gathers a) {site : UseSite}
    {found? : Option VarId} (named : ∀ {v}, script.sites[v.index]? = some site ↔ found? = some v) :
    ((Listing.ofArena function d remarks).vars.find? fun v => v.site = site).map (·.id) =
      found? := by
  have bounded := lists.bounded.of_store lists.retouches.store
  have named : ∀ {v}, (d.var? v).map (·.site) = some site ↔ found? = some v := by
    intro v
    rw [← named, ← lists.sites ga, Arena.getElem?_sites]
  cases first : (Listing.ofArena function d remarks).vars.find? fun v => v.site = site with
  | some entry =>
    obtain ⟨v, found, here, rfl⟩ := Listing.mem_vars_ofArena (List.mem_of_find?_eq_some first)
    have matching := List.find?_some first
    have used : found.site = site := of_decide_eq_true matching
    have known : found? = some v := by
      rw [← named, here, ← used]
      rfl
    rw [known]
    exact congrArg some (bounded.id here)
  | none =>
    cases known : found? with
    | none => rfl
    | some v =>
      obtain ⟨found, here, used⟩ := Option.map_eq_some_iff.1 (named.2 known)
      have listed : Listing.variableEntry d found ∈ (Listing.ofArena function d remarks).vars :=
        List.mem_map_of_mem (Array.mem_toList_iff.2 (Array.mem_of_getElem? here))
      have none := List.find?_eq_none.1 first _ listed
      exact absurd (decide_eq_true used) none

/-- The variable of a name, as it is listed. -/
lemma storage?_eq (lists : Lists config a log c d remarks) (ga : script.Gathers a)
    (ac : script.Accounts obs ν) (name : String) :
    (Listing.ofArena function d remarks).storage? name = ν (.storage name) :=
  lists.find?_eq ga ac.storage_iff

/-- The class of a variable, as it is listed. -/
lemma classOf?_eq (lists : Lists config a log c d remarks) {v : VarId} (lt : v.index < a.size) :
    (Listing.ofArena function d remarks).classOf? v = some ⟨c.forest.leaderOf v.index⟩ := by
  have bounded := lists.bounded.of_store lists.retouches.store
  rw [← lists.size] at lt
  have here : d.var? v = some d.store.vars[v.index] := Array.getElem?_eq_getElem lt
  rw [Listing.classOf?, Listing.var?_ofArena, here]
  simp only [Option.map_some, Listing.variableEntry, bounded.id here]
  rw [Listing.liveClass_eq lists.coherent (c := ⟨v.index⟩) lt, lists.leaderOf]

/-- The entry of the class of a variable, with the type that its evidence calls for. -/
lemma class?_eq (lists : Lists config a log c d remarks) {v : VarId} (lt : v.index < a.size) :
    ∃ entry t, (Listing.ofArena function d remarks).class? ⟨c.forest.leaderOf v.index⟩ =
      some entry ∧ entry.dataType = t.mapClasses (Listing.liveClass d) ∧
      c.Entails log config ⟨c.forest.leaderOf v.index⟩ t := by
  obtain ⟨record, live, h⟩ := lists.coherent.leader_live (lists.size ▸ lt)
  rw [lists.leaderOf] at h
  obtain ⟨t, verdict, entails⟩ := lists.entails record live
  rw [h.id] at entails
  refine ⟨Listing.classEntry d record, t, ?_, ?_, entails⟩
  · rw [← h.id]
    exact Listing.class?_ofArena lists.coherent live
  · simp only [Listing.classEntry, verdict, Option.getD_some]

/-- The record of a live class, as it was before the resolution. -/
lemma records (lists : Lists config a log c d remarks) {record : ClassRecord}
    (live : record ∈ d.liveClasses) : c.forest.leaderOf record.id.index = record.id.index ∧
      record.constraints = c.evidence log record.id.index := by
  have leads := (lists.coherent.mem_liveClasses.1 live).2
  rw [lists.leaderOf] at leads
  exact ⟨leads, (lists.retouches.records_live lists.sorted.coherent live).constraints⟩

/-- The type of a class of values, as it is listed. A pointer points into the class of its first
target. -/
lemma classEntry_eq (lists : Lists config a log c d remarks) {record : ClassRecord}
    (live : record ∈ d.liveClasses) (value : c.isPointee? ⟨record.id.index⟩ = some false) :
    ∃ target, (Listing.classEntry d record).dataType =
        Inquiry.valueType config (.gather record.constraints) target ∧
      ∀ {seen u}, (Evidence.gather record.constraints).pointer = some (seen, u) →
        target = ⟨c.forest.leaderOf u.index⟩ := by
  obtain ⟨leads, constraints⟩ := lists.records live
  obtain ⟨t, verdict, entails⟩ := lists.entails record live
  have entails : c.Entails log config ⟨c.forest.leaderOf record.id.index⟩ t := by
    rw [leads]
    exact entails
  obtain ⟨target, rfl, points⟩ := lists.sorted.valueType_of_entails value entails
  rw [leads, ← constraints] at points verdict
  refine ⟨Listing.liveClass d target, ?_, fun {seen u} pointer => ?_⟩
  · simp only [Listing.classEntry, verdict, Option.getD_some]
    exact Inquiry.valueType_mapClasses _ _ _ _
  · -- the class of the target is live already
    have found := pointer
    rw [constraints] at found
    obtain ⟨constraint, mem, e⟩ := List.exists_of_findSome?_eq_some found
    obtain ⟨w, target, e⟩ := Option.map_eq_some_iff.1 e
    cases e
    have mention : (u, true) ∈ constraint.fact.mentions := by
      rw [Fact.target?_eq_some.1 target]
      exact List.mem_singleton_self _
    have inside := Arena.lt_of_isPointee?
      (lists.sorted.mentions (Arena.mem_evidence.1 mem).1 mention)
    have co := lists.sorted.coherent
    rw [points pointer, Listing.liveClass_eq lists.coherent, lists.leaderOf,
      co.forest.leaderOf_leaderOf]
    rw [lists.retouches.size]
    exact co.leaderOf_lt inside

/-- The type of a value, as it is listed. -/
lemma typeOf?_eq (lists : Lists config a log c d remarks) {v : VarId} (lt : v.index < a.size)
    (value : c.isPointee? v = some false) :
    ∃ target, (Listing.ofArena function d remarks).typeOf? v =
        some (Inquiry.valueType config
          (.gather (c.evidence log (c.forest.leaderOf v.index))) target) ∧
      ∀ {seen u}, (Evidence.gather (c.evidence log (c.forest.leaderOf v.index))).pointer =
        some (seen, u) → target = ⟨c.forest.leaderOf u.index⟩ := by
  obtain ⟨record, live, h⟩ := lists.coherent.leader_live (lists.size ▸ lt)
  rw [lists.leaderOf] at h
  have kind := lists.sorted.leaderOf (Arena.lt_of_isPointee? value)
  rw [value] at kind
  have constraints := (lists.records live).2
  obtain ⟨target, type, points⟩ := lists.classEntry_eq live (h.id ▸ kind)
  rw [constraints, h.id] at type points
  refine ⟨target, ?_, points⟩
  rw [Listing.typeOf?, lists.classOf?_eq lt, Option.bind_some, ← h.id,
    Listing.class?_ofArena lists.coherent live, Option.map_some, type]

/-! ## What is told of a value -/

/-- The evidence on the class of a variable is what the script states of the variables that are forced
together with it. -/
lemma evidence_iff (lists : Lists config a log c d remarks) (ga : script.Gathers a) {v : VarId}
    (lt : v.index < a.size) {fact : Fact} :
    (∃ constraint ∈ c.evidence log (c.forest.leaderOf v.index), constraint.fact = fact) ↔
      ∃ x, a.Congruent v x ∧ script.States x fact := by
  have co := lists.sorted.coherent
  have size : c.size = a.size := by simp only [Arena.size, lists.store]
  constructor
  · rintro ⟨constraint, mem, rfl⟩
    obtain ⟨logged, leads⟩ := Arena.mem_evidence.1 mem
    refine ⟨constraint.subject, (lists.congruent _ _).1 ?_, ?_⟩
    · exact co.sameClass_iff.2 ⟨size ▸ lt, co.subject_lt logged, leads.symm⟩
    · exact ga.holds_iff.1 (lists.collected.holds_iff.2 ⟨constraint, logged, rfl, rfl⟩)
  · rintro ⟨x, cong, states⟩
    obtain ⟨constraint, logged, rfl, rfl⟩ := lists.collected.holds_iff.1 (ga.holds_iff.2 states)
    obtain ⟨_, _, leads⟩ := co.sameClass_iff.1 ((lists.congruent _ _).2 cong)
    exact ⟨constraint, Arena.mem_evidence.2 ⟨logged, leads.symm⟩, rfl⟩

section
variable (lists : Lists config a log c d remarks) (ga : script.Gathers a)
  (ac : script.Accounts obs ν) {k : Value} {v : VarId}

include lists ga ac

/-- The variable of a value is no pointee. -/
lemma isPointee?_eq (name : ν k = some v) : c.isPointee? v = some false := by
  obtain ⟨_, site, here, has⟩ := ac.named name
  rw [← ga.uses, Arena.getElem?_sites] at here
  obtain ⟨found, var, rfl⟩ := Option.map_eq_some_iff.1 here
  rw [Arena.isPointee?_congr lists.store, Arena.isPointee?, var, Option.map_some, has.value]

/-- The evidence on the class of a value is what is told of it, but for targets of pointers. -/
lemma told_iff (name : ν k = some v) {fact : Fact} (plain : fact.target? = none) :
    (∃ constraint ∈ c.evidence log (c.forest.leaderOf v.index), constraint.fact = fact) ↔
      Told obs k fact := by
  have lt := ac.lt_of_named ga name
  constructor
  · rintro ⟨constraint, mem, rfl⟩
    have about := lists.sorted.isAboutPointee_eq_false (lists.isPointee?_eq ga ac name) mem
    obtain ⟨x, cong, states⟩ := (lists.evidence_iff ga lt).1 ⟨constraint, mem, rfl⟩
    obtain ⟨l, name', told⟩ := (ac.explains states).told about plain
    exact ⟨l, (ac.congruent_iff ga name name').1 cong, told⟩
  · rintro ⟨l, joined, told⟩
    obtain ⟨x, name', states⟩ := ac.confirms _ told
    exact (lists.evidence_iff ga lt).2
      ⟨x, (ac.congruent_iff ga name name').2 joined, states⟩

/-- There is evidence of a target on the class of a value if the value is dereferenced. -/
lemma dereferenced_iff (name : ν k = some v) :
    (∃ constraint ∈ c.evidence log (c.forest.leaderOf v.index),
      constraint.fact.target?.isSome) ↔ Dereferenced obs k := by
  have lt := ac.lt_of_named ga name
  constructor
  · rintro ⟨constraint, mem, points⟩
    obtain ⟨t, target⟩ := Option.isSome_iff_exists.1 points
    obtain ⟨x, cong, states⟩ := (lists.evidence_iff ga lt).1 ⟨constraint, mem, rfl⟩
    obtain ⟨⟨l, name', seen⟩, _⟩ := (ac.explains states).pointer (Fact.target?_eq_some.1 target)
    exact ⟨l, (ac.congruent_iff ga name name').1 cong, seen⟩
  · rintro ⟨l, joined, seen⟩
    obtain ⟨x, t, name', states⟩ := ac.confirms _ seen
    obtain ⟨constraint, mem, e⟩ := (lists.evidence_iff ga lt).2
      ⟨x, (ac.congruent_iff ga name name').2 joined, states⟩
    exact ⟨constraint, mem, by rw [e]; rfl⟩

/-- Two names share a class in the listing if what was observed joins them. -/
lemma sharesClass_iff {name other : String} :
    (Listing.ofArena function d remarks).SharesClass name other ↔
      Joined obs (.storage name) (.storage other) := by
  have co := lists.sorted.coherent
  rw [Listing.SharesClass, Listing.storageClass?, Listing.storageClass?,
    lists.storage?_eq ga ac, lists.storage?_eq ga ac]
  constructor
  · rintro ⟨e, here, there⟩
    obtain ⟨x, name, here⟩ := Option.bind_eq_some_iff.1 here
    obtain ⟨y, name', there⟩ := Option.bind_eq_some_iff.1 there
    have ltx := ac.lt_of_named ga name
    have lty := ac.lt_of_named ga name'
    rw [lists.classOf?_eq ltx] at here
    rw [lists.classOf?_eq lty] at there
    have leads := here.trans there.symm
    simp only [Option.some.injEq, ClassId.mk.injEq] at leads
    refine (ac.congruent_iff ga name name').1 ((lists.congruent _ _).1 ?_)
    refine co.sameClass_iff.2 ⟨?_, ?_, leads⟩
    · exact Arena.lt_of_isPointee? (lists.isPointee?_eq ga ac name)
    · exact Arena.lt_of_isPointee? (lists.isPointee?_eq ga ac name')
  · intro joined
    obtain ⟨x, y, name, name', cong⟩ := ac.congruent_of_joined ga joined
    have ltx := ac.lt_of_named ga name
    have lty := ac.lt_of_named ga name'
    obtain ⟨_, _, leads⟩ := co.sameClass_iff.1 ((lists.congruent _ _).2 cong)
    refine ⟨⟨c.forest.leaderOf x.index⟩, ?_, ?_⟩
    · rw [name, Option.bind_some, lists.classOf?_eq ltx]
    · rw [name', Option.bind_some, lists.classOf?_eq lty, leads]

end

end Analysis.Lists

end TypeRecovery
