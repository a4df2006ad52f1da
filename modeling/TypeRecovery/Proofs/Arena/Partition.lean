import Mathlib.Order.Bounds.Basic
import TypeRecovery.Proofs.Arena.Calls

/-!
# The partition of the variables

The classes of an arena are a partition of its variables, and the forest, the leaders and the
records agree on it. `partitioned_afterAll` is the main statement: that is so after every sequence
of calls, failed calls among them.
-/

namespace TypeRecovery.Arena

/-- Forest, leaders and records describe one partition of the variables. -/
structure Partitioned (a : Arena) : Prop where
  /-- There is a node for every variable. -/
  nodes : a.forest.size = a.size
  /-- There is a record for every variable, in order. -/
  ids : a.classes.toList.map (fun record => record.id.index) = List.range a.size
  parent_lt : ∀ {i}, i < a.size → a.forest.parent i < a.size
  /-- Following parents reaches a root, and neither the climb to it nor the compression of the path
  is ever cut short by the bound on its steps. -/
  climbs : ∀ {i}, i < a.size → ∃ k r, r < a.size ∧ a.forest.Path k i r ∧ a.forest.root i = r ∧
    ∀ steps, k ≤ steps → a.forest.climb steps i = r ∧
      Forest.hangPath r steps i a.forest = a.forest.compress i
  /-- The leader at a root is the lowest number of its tree. -/
  leader : ∀ {r}, r < a.size → a.forest.parent r = r →
    IsLeast {i | i < a.size ∧ a.forest.root i = r} (a.forest.leader r)
  live_iff : ∀ {c record}, a.class? c = some record →
    (record.isLive = true ↔ ∃ r < a.size, a.forest.parent r = r ∧ a.forest.leader r = c.index)
  /-- The members of a live class are the variables that it holds. -/
  mem_members : ∀ {record}, record ∈ a.liveClasses → ∀ v,
    v ∈ record.members ↔ a.classOf? v = some record.id
  members_ascending : ∀ {record}, record ∈ a.liveClasses →
    record.members.Pairwise fun v w => v.index < w.index
  members_head : ∀ {record}, record ∈ a.liveClasses →
    record.members.head? = some ⟨record.id.index⟩
  /-- Every variable is a member of one live class, once. -/
  cover : (a.liveClasses.flatMap (·.members)).Perm ((List.range a.size).map VarId.mk)

/-- A root stores the lowest number of its tree. -/
lemma Coherent.isLeast_leader {a : Arena} {log} (co : a.Coherent log) {r : Nat} (lt : r < a.size)
    (e : a.forest.parent r = r) :
    IsLeast {i | i < a.size ∧ a.forest.root i = r} (a.forest.leader r) := by
  have wf := co.forest
  rw [wf.leader_of_isRoot e]
  refine ⟨⟨co.leaderOf_lt lt, ?_⟩, ?_⟩
  · rw [wf.root_leaderOf, wf.root_of_isRoot e]
  · rintro i ⟨_, in_tree⟩
    have same : a.forest.leaderOf i = a.forest.leaderOf r := by
      rw [wf.leaderOf_eq_iff, in_tree, wf.root_of_isRoot e]
    exact same ▸ wf.leaderOf_le i

/-- The live classes are the leaders of the roots. -/
lemma Coherent.isLive_iff {a : Arena} {log} (co : a.Coherent log) {c : ClassId} {record}
    (found : a.class? c = some record) :
    record.isLive = true ↔
      ∃ r < a.size, a.forest.parent r = r ∧ a.forest.leader r = c.index := by
  have wf := co.forest
  rw [(co.records found).isLive, decide_eq_true_eq]
  constructor
  · intro leads
    have lt := co.lt_of_record found
    refine ⟨a.forest.root c.index, ?_, wf.isRoot_root _, leads⟩
    have h := wf.root_lt (co.forest_size ▸ lt)
    exact co.forest_size ▸ h
  · rintro ⟨r, _, e, leads⟩
    rw [← leads, wf.leader_of_isRoot e, wf.leaderOf_leaderOf]

/-- The members of a live class are the variables that it holds. -/
lemma Coherent.mem_members {a : Arena} {log} (co : a.Coherent log) {record : ClassRecord}
    (mem : record ∈ a.liveClasses) (v : VarId) :
    v ∈ record.members ↔ a.classOf? v = some record.id := by
  rw [(co.records_live mem).members, mem_followers, co.classOf?_eq_some]

/-- The members of a live class ascend. -/
lemma Coherent.members_ascending {a : Arena} {log} (co : a.Coherent log) {record : ClassRecord}
    (mem : record ∈ a.liveClasses) : record.members.Pairwise fun v w => v.index < w.index := by
  rw [(co.records_live mem).members]
  exact a.vars_ascending.filter _

/-- The first member of a live class has the number of the class. -/
lemma Coherent.members_head {a : Arena} {log} (co : a.Coherent log) {record : ClassRecord}
    (mem : record ∈ a.liveClasses) : record.members.head? = some ⟨record.id.index⟩ := by
  have own := co.own_mem_members mem
  have asc := co.members_ascending mem
  cases h : record.members with
  | nil => rw [h] at own; simp at own
  | cons first others =>
    rw [h] at own asc
    rcases List.mem_cons.1 own with e | later
    · rw [List.head?_cons, e]
    · -- the first member would be lower than its leader
      have lt : first.index < record.id.index := (List.pairwise_cons.1 asc).1 _ later
      have in_class : first ∈ record.members := h ▸ List.mem_cons_self
      rw [(co.records_live mem).members, mem_followers] at in_class
      have le := co.forest.leaderOf_le first.index
      omega

/-- What the live classes hold of a list, each of them the part whose holders it leads, is the whole
list. -/
lemma Coherent.parts_perm {α : Type} {a : Arena} {log} (co : a.Coherent log)
    (holder : α → Nat) {l : List α} {part : ClassRecord → List α} (nodup : l.Nodup)
    (lt : ∀ x ∈ l, holder x < a.size)
    (parts : ∀ record ∈ a.liveClasses,
      part record = l.filter fun x => a.forest.leaderOf (holder x) = record.id.index) :
    (a.liveClasses.flatMap part).Perm l := by
  have mem_part : ∀ {record}, record ∈ a.liveClasses → ∀ {x}, x ∈ part record ↔
      x ∈ l ∧ a.forest.leaderOf (holder x) = record.id.index := by
    intro record mem x
    rw [parts record mem, List.mem_filter, decide_eq_true_eq]
  refine (List.perm_ext_iff_of_nodup ?_ nodup).2 fun x => ?_
  · refine List.nodup_flatMap.2 ⟨fun record mem => ?_, ?_⟩
    · rw [parts record mem]
      exact nodup.filter _
    · refine co.liveClasses_ascending.imp_of_mem ?_
      intro c d memc memd lt x inc ind
      rw [mem_part memc] at inc
      rw [mem_part memd] at ind
      exact lt.ne (inc.2.symm.trans ind.2)
  · rw [List.mem_flatMap]
    constructor
    · rintro ⟨record, mem, inside⟩
      exact ((mem_part mem).1 inside).1
    · intro inside
      obtain ⟨record, mem, h⟩ := co.leader_live (lt x inside)
      exact ⟨record, mem, (mem_part mem).2 ⟨inside, by rw [h.id]⟩⟩

/-- The member lists of the live classes hold every variable once. -/
lemma Coherent.members_perm {a : Arena} {log} (co : a.Coherent log) :
    (a.liveClasses.flatMap (·.members)).Perm a.vars := by
  refine co.parts_perm VarId.index ?_ (fun v mem => mem_vars.1 mem)
    fun record mem => (co.records_live mem).members
  refine a.vars_ascending.imp fun lt => ?_
  rintro rfl
  exact lt.ne rfl

/-- The records of a coherent arena describe the partition that its forest describes. -/
lemma Coherent.partitioned {a : Arena} {log} (co : a.Coherent log) : a.Partitioned where
  nodes := co.forest_size
  ids := co.ids
  parent_lt lt := by
    have h := co.forest.parent_lt (co.forest_size ▸ lt)
    exact co.forest_size ▸ h
  climbs := by
    intro i lt
    obtain ⟨k, le, p⟩ := co.forest.path_root i
    have root_lt := co.forest.root_lt (co.forest_size ▸ lt)
    refine ⟨k, a.forest.root i, co.forest_size ▸ root_lt, p, rfl, fun steps enough => ?_⟩
    have rk := co.forest.toRanked
    exact ⟨p.climb enough, (p.hangPath rk enough).2.trans (p.hangPath rk le).2.symm⟩
  leader := co.isLeast_leader
  live_iff := co.isLive_iff
  mem_members := co.mem_members
  members_ascending := co.members_ascending
  members_head := co.members_head
  cover := co.members_perm

/-- Whatever is called on an empty arena, in whatever order, its variables stay partitioned. -/
theorem partitioned_afterAll (calls : List Call) : (Arena.empty.afterAll calls).Partitioned := by
  obtain ⟨log, co⟩ := empty_coherent.afterAll calls
  exact co.partitioned

end TypeRecovery.Arena
