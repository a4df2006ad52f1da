import TypeRecovery.Proofs.Arena.Partition
import TypeRecovery.Proofs.Listing

/-!
# Classes that nothing is known of

A class is listed as `void` if it has no constraint at all, and a remark names the classes of this
kind that have no name (`void_iff_unconstrained`). The verdict, the test for evidence that decides on
the remark, and the constraints themselves are three views of this. They agree because the size of the
whole is the only fact that says nothing of a type, and it never comes without an access.
-/

namespace TypeRecovery

/-- Renaming classes makes no type `void`, and leaves `void` as it is. -/
lemma DataType.mapClasses_eq_void {g : ClassId → ClassId} {t : DataType} :
    t.mapClasses g = .void ↔ t = .void := by
  cases t <;> simp [mapClasses]

/-! ## Three views of evidence -/

/-- A fact that is no evidence for any type. -/
def Fact.Silent (fact : Fact) : Prop :=
  fact.callSite? = none ∧ fact.field? = none ∧ fact.element? = none ∧ fact.target? = none ∧
    fact.scalarWidth? = none ∧ fact ≠ .boolean ∧ fact ≠ .counter ∧ fact.step? = none ∧
    fact.votesSigned = false ∧ fact.votesUnsigned = false

/-- The size of the whole is the only fact of this kind. -/
lemma Fact.silent_iff {fact : Fact} : fact.Silent ↔ fact.extent?.isSome = true := by
  cases fact with
  | ordered signed => cases signed <;> simp [Silent, extent?, votesSigned, votesUnsigned]
  | _ =>
    simp [Silent, callSite?, field?, element?, target?, scalarWidth?, step?, votesSigned,
      votesUnsigned, extent?]

/-- The evidence is empty if every fact is silent. -/
lemma Evidence.isEmpty_gather {constraints : List Constraint} :
    (gather constraints).isEmpty = true ↔ ∀ c ∈ constraints, c.fact.Silent := by
  simp only [Fact.Silent, forall_and, isEmpty, isAggregate, gather, Bool.and_eq_true,
    Bool.not_eq_true', Bool.or_eq_false_iff, Bool.not_eq_false', Bool.not_eq_true, List.isEmpty_iff,
    List.filterMap_eq_nil_iff, List.findSome?_eq_none_iff, List.max?_eq_none_iff, List.any_eq_false,
    List.contains_eq_mem, List.mem_map, Option.isNone_iff_eq_none, Option.map_eq_none_iff,
    decide_eq_false_iff_not, not_exists, not_and, forall_exists_index, and_imp,
    forall_apply_eq_imp_iff₂, and_assoc, ne_eq]

namespace Inquiry

/-- The type of a scalar is `void` if there is no width, no boolean and no counting. -/
lemma scalarType_eq_void {config : Config} {e : Evidence} :
    scalarType config e = .void ↔ e.width = none ∧ e.boolean = false ∧
      (e.counter || !e.steps.isEmpty || e.signed || e.unsigned) = false := by
  rw [scalarType]
  split
  · rename_i width
    refine iff_of_false (fun same => by cases same) fun empty => ?_
    rw [empty.1] at width
    cases width
  · rename_i width
    split
    · rename_i boolean
      refine iff_of_false (fun same => by cases same) fun empty => ?_
      rw [empty.2.1] at boolean
      cases boolean
    · rename_i plain
      split
      · rename_i used
        refine iff_of_false (fun same => by cases same) fun empty => ?_
        rw [empty.2.2] at used
        cases used
      · rename_i unused
        exact iff_of_true rfl ⟨Option.not_isSome_iff_eq_none.1 width,
          Bool.eq_false_of_not_eq_true plain, Bool.eq_false_of_not_eq_true unused⟩

/-- The type of a value is `void` if there is no evidence. -/
lemma valueType_eq_void {config : Config} {e : Evidence} {target : ClassId}
    (uncalled : e.callSites = []) (whole : e.isAggregate = false) :
    valueType config e target = .void ↔ e.isEmpty = true := by
  rw [valueType, Evidence.isEmpty, uncalled, whole]
  cases e.pointer with
  | some pointer =>
    refine iff_of_false ?_ (by simp)
    cases strong : e.strongScalar <;> simp [pointerVerdict, strong]
  | none =>
    simp only [scalarType_eq_void]
    simp [and_assoc]

/-- A verdict is `void` if there is no evidence. -/
lemma Follows.eq_void_iff {inside : ClassId → Prop} {classOf : VarId → ClassId} {config : Config}
    {constraints : List Constraint} {t : DataType}
    (follows : Follows inside classOf config constraints t) :
    t = .void ↔ (Evidence.gather constraints).isEmpty = true := by
  by_cases some : ∃ constraint ∈ constraints, constraint.fact.isAccess = true
  · refine iff_of_false (follows.known some) fun empty => ?_
    obtain ⟨constraint, mem, access⟩ := some
    have extent := Fact.silent_iff.1 (Evidence.isEmpty_gather.1 empty constraint mem)
    cases fact : constraint.fact <;> rw [fact] at access extent
    case extent => cases access
    all_goals cases extent
  · have none : ∀ constraint ∈ constraints, constraint.fact.isAccess = false := by
      intro constraint mem
      by_contra access
      exact some ⟨constraint, mem, Bool.eq_true_of_not_eq_false access⟩
    obtain ⟨target, rfl, _⟩ := follows.value none
    obtain ⟨uncalled, whole⟩ := isAccess_eq_false_iff.1 none
    exact valueType_eq_void uncalled whole

end Inquiry

/-- Where every pointee is accessed, constraints are evidence. -/
lemma Arena.Sorted.isEmpty_iff {a : Arena} {log} (so : a.Sorted log []) {record : ClassRecord}
    (live : record ∈ a.liveClasses) :
    (Evidence.gather record.constraints).isEmpty = true ↔ record.constraints = [] := by
  rw [Evidence.isEmpty_gather]
  constructor
  · intro silent
    rw [List.eq_nil_iff_forall_not_mem]
    intro constraint mem
    have onlyExtents : ∀ c ∈ record.constraints, c.fact.isAboutPointee = true ∧
        c.fact.isAccess = false := by
      intro c inside
      have extent := Fact.silent_iff.1 (silent c inside)
      cases fact : c.fact <;> rw [fact] at extent
      case extent => exact ⟨rfl, rfl⟩
      all_goals cases extent
    -- sizes are told of pointees, and those are accessed
    have pointees := so.separated.facts record live constraint mem
    rw [if_pos (onlyExtents constraint mem).1] at pointees
    obtain ⟨c, inside, access⟩ := so.separated.accessed record live pointees
    rw [(onlyExtents c inside).2] at access
    cases access
  · intro none
    rw [none]
    exact List.forall_mem_nil _

/-! ## Remarks on a lack of evidence -/

namespace Analysis

section
variable {a : Arena} {log : List Constraint} {record : ClassRecord} {v : VarId}

/-- A class is nameless if no member of it is a named storage location. -/
lemma isNameless_iff (co : a.Coherent log) (live : record ∈ a.liveClasses) :
    isNameless a record = true ↔
      ∀ u ∈ record.members, ∀ name, (a.var? u).map (·.site) ≠ some (.storage name) := by
  rw [isNameless, List.all_eq_true]
  refine forall₂_congr fun u member => ?_
  rw [(co.records_live live).members, Arena.mem_followers] at member
  obtain ⟨found, here⟩ : ∃ found, a.var? u = some found := ⟨_, Array.getElem?_eq_getElem member.1⟩
  simp only [here, Option.map_some]
  cases found.site <;> simp [UseSite.isStorage]

/-- The first member is the lowest one. -/
lemma head?_members (co : a.Coherent log) (live : record ∈ a.liveClasses) :
    record.members.head? = some v ↔ v ∈ record.members ∧ ∀ u ∈ record.members, v.index ≤ u.index := by
  have ascending := co.members_ascending live
  constructor
  · intro first
    obtain ⟨others, e⟩ := List.head?_eq_some_iff.1 first
    rw [e] at ascending ⊢
    refine ⟨List.mem_cons_self, List.forall_mem_cons.2 ⟨Nat.le_refl _, fun u mem => ?_⟩⟩
    exact Nat.le_of_lt (List.rel_of_pairwise_cons ascending mem)
  · rintro ⟨mem, lowest⟩
    have first := co.members_head live
    have own := co.own_mem_members live
    obtain ⟨others, e⟩ := List.head?_eq_some_iff.1 first
    rw [e] at ascending mem
    rcases List.mem_cons.1 mem with rfl | later
    · exact first
    · have below := List.rel_of_pairwise_cons ascending later
      have above := lowest _ own
      omega

/-- The remark on a lack of evidence is left for nameless classes without evidence, and names the
first member. -/
lemma mem_unassigned (co : a.Coherent log) {c : ClassId} :
    .unassigned v c ∈ unassigned a ↔ ∃ record ∈ a.liveClasses, record.id = c ∧
      (Evidence.gather record.constraints).isEmpty = true ∧ isNameless a record = true ∧
      record.members.head? = some v := by
  rw [unassigned, List.mem_filterMap]
  refine exists_congr fun record => and_congr_right fun live => ?_
  have found := (co.mem_liveClasses.1 live).1
  simp only [Arena.hasNoEvidence, found, Option.ite_none_right_eq_some, Bool.and_eq_true,
    Option.map_eq_some_iff, Remark.unassigned.injEq]
  constructor
  · rintro ⟨⟨empty, nameless⟩, u, first, rfl, rfl⟩
    exact ⟨rfl, empty, nameless, first⟩
  · rintro ⟨rfl, empty, nameless, first⟩
    exact ⟨⟨empty, nameless⟩, v, first, rfl, rfl⟩

end

section
variable {config : Config} {function : String} {a c d : Arena} {log : List Constraint}
  {remarks : List Remark}

/-- What a listing remarks on a lack of evidence can be read off the arena that is listed. -/
lemma Lists.mem_remarks_unassigned (lists : Lists config a log c d remarks) {v : VarId}
    {e : ClassId} : .unassigned v e ∈ remarks ↔ .unassigned v e ∈ unassigned d := by
  have co := lists.coherent
  obtain ⟨notes, b, resolved, rt, rfl, rfl, known⟩ := lists.resolution
  have silent : .unassigned v e ∉ notes := fun mem => by cases known _ mem
  rw [List.mem_append, or_iff_right silent, mem_unassigned co,
    mem_unassigned (rt.coherent lists.sorted.coherent)]
  -- freezing a class keeps its members and its constraints
  constructor
  · rintro ⟨old, live, found⟩
    exact ⟨old.finalize, Arena.mem_liveClasses_finalizeAll.2 ⟨old, live, rfl⟩, found⟩
  · rintro ⟨record, live, found⟩
    obtain ⟨old, was, rfl⟩ := Arena.mem_liveClasses_finalizeAll.1 live
    exact ⟨old, was, found⟩

/-- The type of a class is listed as `void` if the class has no constraint. -/
lemma Lists.classEntry_eq_void (lists : Lists config a log c d remarks) {record : ClassRecord}
    (live : record ∈ d.liveClasses) :
    (Listing.classEntry d record).dataType = .void ↔ record.constraints = [] := by
  obtain ⟨t, verdict, entails⟩ := lists.entails record live
  have constraints := (lists.retouches.records_live lists.sorted.coherent live).constraints
  have sorted := lists.sorted.retouches lists.retouches
  simp only [Listing.classEntry, verdict, Option.getD_some]
  rw [DataType.mapClasses_eq_void, entails.eq_void_iff, ← constraints, sorted.isEmpty_iff live]

end

/-- A class is listed as `void` if it has no constraint. A remark on a lack of evidence is left for
exactly those of these classes that have no named storage among their members, and names the lowest
member, which has the number of the class. -/
theorem void_iff_unconstrained {memory : MemoryMap} {config : Config} {function : String} {t : Trace}
    {start d : Arena} {l : Listing} (ran : run memory config function t start = .ok l d) :
    (∀ entry ∈ l.classes, ∃ record ∈ d.liveClasses, record.id = entry.id ∧
      (entry.dataType = .void ↔ record.constraints = [])) ∧
    (∀ v c, .unassigned v c ∈ l.remarks ↔ ∃ entry ∈ l.classes, entry.id = c ∧
      entry.dataType = .void ∧
      (∀ u ∈ entry.members, ∀ name, (l.var? u).map (·.site) ≠ some (.storage name)) ∧
      v ∈ entry.members ∧ ∀ u ∈ entry.members, v.index ≤ u.index) ∧
    ∀ v c, .unassigned v c ∈ l.remarks → v.index = c.index := by
  obtain ⟨s, a, log, c, remarks, _, lists, rfl⟩ := lists_of_run ran
  have co := lists.coherent
  have sorted := lists.sorted.retouches lists.retouches
  have noted : ∀ v e, .unassigned v e ∈ (Listing.ofArena function d remarks).remarks ↔
      ∃ record ∈ d.liveClasses, record.id = e ∧
        (Evidence.gather record.constraints).isEmpty = true ∧ isNameless d record = true ∧
        record.members.head? = some v := by
    intro v e
    rw [mem_remarks_ofArena, lists.mem_remarks_unassigned, mem_unassigned co]
  have sites : ∀ u, ((Listing.ofArena function d remarks).var? u).map (·.site) =
      (d.var? u).map (·.site) := by
    intro u
    rw [Listing.var?_ofArena, Option.map_map]
    rfl
  refine ⟨?_, ?_, ?_⟩
  · intro entry mem
    obtain ⟨record, live, rfl⟩ := List.mem_map.1 mem
    exact ⟨record, live, rfl, lists.classEntry_eq_void live⟩
  · intro v e
    rw [noted]
    simp only [sites]
    constructor
    · rintro ⟨record, live, rfl, empty, nameless, first⟩
      refine ⟨Listing.classEntry d record, List.mem_map_of_mem live, rfl, ?_,
        (isNameless_iff co live).1 nameless, (head?_members co live).1 first⟩
      rw [lists.classEntry_eq_void live, ← sorted.isEmpty_iff live]
      exact empty
    · rintro ⟨entry, mem, rfl, void, nameless, lowest⟩
      obtain ⟨record, live, rfl⟩ := List.mem_map.1 mem
      rw [lists.classEntry_eq_void live, ← sorted.isEmpty_iff live] at void
      exact ⟨record, live, rfl, void, (isNameless_iff co live).2 nameless,
        (head?_members co live).2 lowest⟩
  · intro v e mem
    obtain ⟨record, live, rfl, _, _, first⟩ := (noted v e).1 mem
    rw [co.members_head live] at first
    cases first
    rfl

/-- Nothing is known of what a function returns that is called once; a pointer has a type. -/
theorem void_iff_unconstrained_fieldCall :
    ∃ l d, run .empty .lp64 "f" fieldCall .empty = .ok l d ∧
      (∀ entry ∈ l.classes, ∃ record ∈ d.liveClasses, record.id = entry.id ∧
        (entry.dataType = .void ↔ record.constraints = [])) ∧
      (∀ v c, .unassigned v c ∈ l.remarks ↔ ∃ entry ∈ l.classes, entry.id = c ∧
        entry.dataType = .void ∧
        (∀ u ∈ entry.members, ∀ name, (l.var? u).map (·.site) ≠ some (.storage name)) ∧
        v ∈ entry.members ∧ ∀ u ∈ entry.members, v.index ≤ u.index) ∧
      ∀ v c, .unassigned v c ∈ l.remarks → v.index = c.index := by
  have success : succeeded (run .empty .lp64 "f" fieldCall .empty) = true := by decide +kernel
  obtain ⟨l, d, ran⟩ := exists_of_succeeded success
  exact ⟨l, d, ran, void_iff_unconstrained ran⟩

end Analysis

end TypeRecovery
