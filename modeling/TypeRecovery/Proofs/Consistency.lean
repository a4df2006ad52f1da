import TypeRecovery.Proofs.Arena.Partition
import TypeRecovery.Proofs.Listing

/-!
# Listings agree with themselves

A listing tells three times which variables belong together: by the members of its classes, by the
holders of its variables, and by what a lookup of a type finds. The three are written from different
parts of the arena: records, forest, and a table that is searched by halving it. `run_consistent`
says that they agree in every listing, and that the other parts of a listing are in order.
-/

namespace TypeRecovery

/-- A type that has parts, or that points somewhere. -/
inductive DataType.Composite : DataType → Prop
  | pointer (target) : Composite (.pointer target)
  | array (element length) : Composite (.array element length)
  | struct (size fields) : Composite (.struct size fields)
  | union (alternatives) : Composite (.union alternatives)
  | function (params result untyped) : Composite (.function params result untyped)

namespace Listing

/-- Declared types are the composite ones. -/
lemma isDeclared_iff {t : DataType} : isDeclared t = true ↔ t.Composite := by
  constructor
  · intro declared
    cases t with
    | void | boolean | integer => cases declared
    | pointer target => exact .pointer target
    | array element length => exact .array element length
    | struct size fields => exact .struct size fields
    | union alternatives => exact .union alternatives
    | function params result untyped => exact .function params result untyped
  · intro composite
    cases composite <;> rfl

/-- The parts of a listing agree. -/
structure Consistent (l : Listing) : Prop where
  /-- Variables stand under their numbers. -/
  numbered : ∀ {i entry}, l.vars[i]? = some entry → VariableEntry.id entry = ⟨i⟩
  ascending : l.classes.Pairwise fun c d => c.id.index < d.id.index
  /-- A lookup finds the classes that are listed, and nothing else. -/
  lookup : ∀ c entry, l.class? c = some entry ↔ entry ∈ l.classes ∧ entry.id = c
  frozen : ∀ entry ∈ l.classes, entry.state = .finalized
  /-- The class that holds a variable is the one that has it as a member, and its type is what a
  lookup finds. -/
  holder : ∀ v ∈ l.vars, ∃ c ∈ l.classes, c.id = v.holder ∧
    (∀ d ∈ l.classes, v.id ∈ d.members ↔ d = c) ∧ l.typeOf? v.id = some c.dataType
  /-- Every variable is a member once, and nothing else is. -/
  cover : (l.classes.flatMap (·.members)).Perm (l.vars.map (·.id))
  declared : ∀ d, d ∈ l.declarations ↔
    ∃ c ∈ l.classes, c.dataType.Composite ∧ d = ⟨c.id, c.dataType⟩
  declared_ascending : l.declarations.Pairwise fun d e => d.subject.index < e.subject.index

section
variable {function : String} {a : Arena} {log : List Constraint} {remarks : List Remark}

/-- Classes are listed by ascending numbers. -/
lemma ascending_ofArena (co : a.Coherent log) :
    (ofArena function a remarks).classes.Pairwise fun c d => c.id.index < d.id.index :=
  List.pairwise_map.2 co.liveClasses_ascending

/-- Variables are listed by their numbers. -/
lemma ids_ofArena (bd : a.Bounded) :
    (ofArena function a remarks).vars.map (·.id) = a.vars := by
  apply List.ext_getElem?
  intro i
  have entry : (ofArena function a remarks).vars[i]? = (a.var? ⟨i⟩).map (variableEntry a) :=
    var?_ofArena (v := ⟨i⟩)
  rw [List.getElem?_map, entry, Arena.vars, List.getElem?_map]
  rcases Nat.lt_or_ge i a.size with lt | ge
  · have found : a.var? ⟨i⟩ = some a.store.vars[i] := Array.getElem?_eq_getElem lt
    rw [found, List.getElem?_range lt]
    exact congrArg some (bd.id found)
  · have missing : a.var? ⟨i⟩ = none := Array.getElem?_eq_none ge
    rw [missing, List.getElem?_eq_none (by simpa using ge)]
    rfl

/-- The entry of a variable names the class whose record has the variable as a member. -/
lemma holder_ofArena (co : a.Coherent log) (bd : a.Bounded) {entry : VariableEntry}
    (mem : entry ∈ (ofArena function a remarks).vars) :
    ∃ record ∈ a.liveClasses, record.id = entry.holder ∧
      (ofArena function a remarks).var? entry.id = some entry ∧
      ∀ other ∈ a.liveClasses, entry.id ∈ other.members ↔ other = record := by
  obtain ⟨v, found, here, rfl⟩ := mem_vars_ofArena mem
  have id : found.id = v := bd.id here
  have lt : v.index < a.size := (Array.getElem?_eq_some_iff.1 here).1
  obtain ⟨record, live, h⟩ := co.leader_live lt
  have holder : (variableEntry a found).holder = ⟨a.forest.leaderOf v.index⟩ := by
    simp only [variableEntry, id]
    exact liveClass_eq co (c := ⟨v.index⟩) lt
  have self : (variableEntry a found).id = v := id
  refine ⟨record, live, h.id.trans holder.symm, ?_, ?_⟩
  · rw [self, var?_ofArena, here]
    rfl
  · intro other live'
    rw [self, co.mem_members live', co.classOf?_eq lt, ← h.id, Option.some.injEq]
    exact ⟨fun same => co.eq_of_id live' live same.symm, fun same => same ▸ rfl⟩

/-- The listing of an arena in which everything is finalized agrees with itself. -/
lemma consistent_ofArena (co : a.Coherent log) (bd : a.Bounded)
    (frozen : ∀ record ∈ a.liveClasses, record.state = .finalized) :
    (ofArena function a remarks).Consistent := by
  have ascending : (ofArena function a remarks).classes.Pairwise _ := ascending_ofArena co
  constructor
  case numbered =>
    intro i entry here
    have id : a.vars[i]? = some entry.id := by
      rw [← ids_ofArena bd, List.getElem?_map, here]
      rfl
    rw [Arena.vars, List.getElem?_map] at id
    obtain ⟨j, inside, e⟩ := Option.map_eq_some_iff.1 id
    obtain ⟨_, rfl⟩ := List.getElem?_eq_some_iff.1 inside
    rw [← e, List.getElem_range]
  case ascending => exact ascending
  case lookup =>
    intro c entry
    rw [class?, Ascending.bisect_eq_some ascending]
    refine and_congr_right fun _ => ?_
    exact ⟨congrArg ClassId.mk, congrArg ClassId.index⟩
  case frozen =>
    intro entry mem
    obtain ⟨record, live, rfl⟩ := List.mem_map.1 mem
    exact frozen record live
  case holder =>
    intro v mem
    obtain ⟨record, live, id, here, members⟩ := holder_ofArena co bd mem
    refine ⟨classEntry a record, List.mem_map_of_mem live, id, ?_, ?_⟩
    · intro d inside
      obtain ⟨other, live', rfl⟩ := List.mem_map.1 inside
      refine (members other live').trans ⟨congrArg (classEntry a), fun same => ?_⟩
      exact co.eq_of_id live' live (congrArg ClassEntry.id same)
    · simp only [typeOf?, classOf?, here, Option.map_some, Option.bind_some, ← id,
        class?_ofArena co live]
  case cover =>
    rw [ids_ofArena bd]
    have members : (ofArena function a remarks).classes.flatMap (·.members) =
        a.liveClasses.flatMap (·.members) := List.flatMap_map ..
    rw [members]
    exact co.members_perm
  case declared =>
    intro d
    simp only [ofArena, List.mem_map, List.mem_filter, isDeclared_iff]
    constructor
    · rintro ⟨entry, ⟨mem, composite⟩, rfl⟩
      exact ⟨entry, mem, composite, rfl⟩
    · rintro ⟨entry, mem, composite, rfl⟩
      exact ⟨entry, ⟨mem, composite⟩, rfl⟩
  case declared_ascending => exact List.pairwise_map.2 (ascending.filter _)

end

end Listing

namespace Analysis

/-- The listing of an analysis agrees with itself. -/
theorem run_consistent {memory : MemoryMap} {config : Config} {function : String} {t : Trace}
    {start d : Arena} {l : Listing} (ran : run memory config function t start = .ok l d) :
    l.Consistent := by
  obtain ⟨s, a, log, c, remarks, _, lists, rfl⟩ := lists_of_run ran
  have rt := lists.retouches
  have co := rt.coherent lists.sorted.coherent
  exact Listing.consistent_ofArena co (lists.bounded.of_store rt.store) lists.frozen

/-- The classes of two pointers and of what they point into are merged, so that classes and variables
are numbered apart. -/
theorem run_consistent_laterMerged :
    ∃ l d, run .empty .lp64 "f" laterMergedTrace .empty = .ok l d ∧ l.Consistent := by
  obtain ⟨l, d, ran⟩ := exists_run_laterMergedTrace
  exact ⟨l, d, ran, run_consistent ran⟩

end Analysis

end TypeRecovery
