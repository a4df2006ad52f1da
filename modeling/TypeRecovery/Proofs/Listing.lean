import TypeRecovery.Proofs.Ascending
import TypeRecovery.Proofs.Separation
import TypeRecovery.Proofs.Totality

/-!
# Listings name what they list

Types name classes that may have been merged since, and remarks name the classes that they were left
on. `Closed` says that every class that a listing names has an entry in it, however deep in a type it
is named, and that every variable that it names has one too. The main statement is `run_closed`: all
listings are closed. Types are brought up to date when they are listed, and nothing is merged any
more once remarks are left.
-/

namespace TypeRecovery

namespace Listing

/-- A class has an entry. -/
def HasClass (l : Listing) (c : ClassId) : Prop :=
  ∃ entry ∈ l.classes, entry.id = c

/-- A variable has an entry, which stands under its number. -/
def HasVar (l : Listing) (v : VarId) : Prop :=
  ∃ entry, l.var? v = some entry ∧ entry.id = v

/-- Everything that a listing names has an entry in it. -/
structure Closed (l : Listing) : Prop where
  types : ∀ entry ∈ l.classes, entry.dataType.Names l.HasClass
  firstTypes : ∀ entry ∈ l.vars, ∀ t ∈ entry.firstType, t.Names l.HasClass
  declarations : ∀ d ∈ l.declarations, l.HasClass d.subject ∧ d.dataType.Names l.HasClass
  holders : ∀ entry ∈ l.vars, l.HasClass entry.holder
  remarks : ∀ n ∈ l.remarks, l.HasClass n.subject
  members : ∀ entry ∈ l.classes, ∀ v ∈ entry.members, l.HasVar v
  pointers : ∀ entry ∈ l.vars, ∀ {p}, entry.site = .pointee p → l.HasVar p
  unassigned : ∀ {v c}, Remark.unassigned v c ∈ l.remarks → l.HasVar v

section
variable {function : String} {a : Arena} {log : List Constraint} {remarks : List Remark}

/-- A listing has an entry for each live class, and for no other. -/
lemma hasClass_ofArena {c : ClassId} :
    (ofArena function a remarks).HasClass c ↔ c ∈ a.liveIds := by
  constructor
  · rintro ⟨entry, mem, rfl⟩
    obtain ⟨record, live, rfl⟩ := List.mem_map.1 mem
    exact List.mem_map_of_mem live
  · intro live
    obtain ⟨record, mem, rfl⟩ := List.mem_map.1 live
    exact ⟨classEntry a record, List.mem_map_of_mem mem, rfl⟩

/-- The entry of a live class is found under its number. -/
lemma class?_ofArena (co : a.Coherent log) {record : ClassRecord}
    (mem : record ∈ a.liveClasses) :
    (ofArena function a remarks).class? record.id = some (classEntry a record) := by
  have ascending : (ofArena function a remarks).classes.Pairwise
      fun x y => x.id.index < y.id.index :=
    List.pairwise_map.2 co.liveClasses_ascending
  exact Ascending.bisect_of_mem ascending (List.mem_map_of_mem mem)

/-- The entry of a variable is found under its number. -/
lemma var?_ofArena {v : VarId} :
    (ofArena function a remarks).var? v = (a.var? v).map (variableEntry a) := by
  simp [var?, ofArena, Arena.var?, VariableStore.get?, VariableStore.toList]

/-- Every variable that was made has an entry. -/
lemma hasVar_ofArena (bd : a.Bounded) {v : VarId} (lt : v.index < a.size) :
    (ofArena function a remarks).HasVar v := by
  have found : a.var? v = some a.store.vars[v.index] := Array.getElem?_eq_getElem lt
  exact ⟨variableEntry a _, by rw [var?_ofArena, found]; rfl, bd.id found⟩

/-- Every entry is that of a variable. -/
lemma mem_vars_ofArena {entry : VariableEntry} (mem : entry ∈ (ofArena function a remarks).vars) :
    ∃ v found, a.var? v = some found ∧ entry = variableEntry a found := by
  obtain ⟨found, inside, rfl⟩ := List.mem_map.1 mem
  obtain ⟨i, here⟩ := List.mem_iff_getElem?.1 inside
  exact ⟨⟨i⟩, found, by simpa [Arena.var?, VariableStore.get?, VariableStore.toList] using here, rfl⟩

/-- The live class that stands for a class is its leader. -/
lemma liveClass_eq (co : a.Coherent log) {c : ClassId} (lt : c.index < a.size) :
    liveClass a c = ⟨a.forest.leaderOf c.index⟩ := by
  simp [liveClass, Arena.representative?, co.forest_size, lt]

/-- The class that stands for a class is live. -/
lemma liveClass_mem (co : a.Coherent log) {c : ClassId} (lt : c.index < a.size) :
    liveClass a c ∈ a.liveIds := by
  obtain ⟨record, mem, h⟩ := co.leader_live lt
  rw [liveClass_eq co lt, ← h.id]
  exact List.mem_map_of_mem mem

/-- A type that names classes that were made is brought up to date. -/
lemma names_mapClasses_liveClass (co : a.Coherent log) {t : DataType}
    (named : t.Names (·.index < a.size)) :
    (t.mapClasses (liveClass a)).Names (ofArena function a remarks).HasClass := by
  intro c mem
  rw [DataType.classIds_mapClasses] at mem
  obtain ⟨d, inside, rfl⟩ := List.mem_map.1 mem
  exact hasClass_ofArena.2 (liveClass_mem co (named d inside))

/-- The listing of an arena is closed, if types name classes that were made and remarks are about
live ones. -/
lemma closed_ofArena (co : a.Coherent log) (bd : a.Bounded)
    (judged : ∀ record ∈ a.liveClasses, ∃ t, record.dataType = some t ∧
      t.Names (·.index < a.size))
    (notes : ∀ n ∈ remarks, a.Notes n) : (ofArena function a remarks).Closed := by
  have types : ∀ entry ∈ (ofArena function a remarks).classes,
      entry.dataType.Names (ofArena function a remarks).HasClass := by
    intro entry mem
    obtain ⟨record, live, rfl⟩ := List.mem_map.1 mem
    obtain ⟨t, verdict, named⟩ := judged record live
    simp only [classEntry, verdict]
    exact names_mapClasses_liveClass co named
  constructor
  case types => exact types
  case firstTypes =>
    intro entry mem t first
    obtain ⟨v, found, here, rfl⟩ := mem_vars_ofArena mem
    obtain ⟨u, implied, rfl⟩ := Option.map_eq_some_iff.1 first
    exact names_mapClasses_liveClass co (bd.firstType here u implied)
  case declarations =>
    intro d mem
    obtain ⟨entry, inside, rfl⟩ := List.mem_map.1 mem
    have inside := List.mem_of_mem_filter inside
    exact ⟨⟨entry, inside, rfl⟩, types entry inside⟩
  case holders =>
    intro entry mem
    obtain ⟨v, found, here, rfl⟩ := mem_vars_ofArena mem
    have lt : found.id.index < a.size := by
      rw [bd.id here]
      exact (Array.getElem?_eq_some_iff.1 here).1
    exact hasClass_ofArena.2 (liveClass_mem co (c := ⟨found.id.index⟩) lt)
  case remarks =>
    intro n mem
    exact hasClass_ofArena.2 (notes n (Analysis.mem_remarks_ofArena.1 mem)).subject
  case members =>
    intro entry mem v member
    obtain ⟨record, live, rfl⟩ := List.mem_map.1 mem
    have member : v ∈ record.members := member
    rw [(co.records_live live).members, Arena.mem_followers] at member
    exact hasVar_ofArena bd member.1
  case pointers =>
    intro entry mem p site
    obtain ⟨v, found, here, rfl⟩ := mem_vars_ofArena mem
    exact hasVar_ofArena bd (bd.pointer here site)
  case unassigned =>
    intro v c mem
    exact hasVar_ofArena bd ((notes _ (Analysis.mem_remarks_ofArena.1 mem)).unknown v rfl)

end

end Listing

namespace Analysis

/-- Every class and every variable that the listing of an analysis names, at any place and at any
depth, has an entry in it. -/
theorem run_closed {memory : MemoryMap} {config : Config} {function : String} {t : Trace}
    {start d : Arena} {l : Listing} (ran : run memory config function t start = .ok l d) :
    l.Closed := by
  obtain ⟨s, a, log, c, remarks, _, lists, rfl⟩ := lists_of_run ran
  have rt := lists.retouches
  have co := lists.sorted.coherent
  refine Listing.closed_ofArena (rt.coherent co) (lists.bounded.of_store rt.store) ?_ ?_
  · intro record live
    obtain ⟨u, verdict, entails⟩ := lists.entails record live
    exact ⟨u, verdict, rt.size ▸ entails.names⟩
  · intro n mem
    have noted := lists.notes n mem
    exact ⟨rt.liveIds co ▸ noted.subject, noted.calm, rt.size ▸ noted.unknown⟩

/-- Two pointers are dereferenced, and only then they turn out to be one. -/
def laterMerged : List TraceRecord :=
  [{ kind := some .load, operands := [.storage "p"], width := some 4 },
    { kind := some .load, operands := [.storage "q"], width := some 4 },
    { kind := some .copy, operands := [.storage "p"], destination := some (.storage "q") }]

def laterMergedTrace : Trace :=
  ⟨[⟨0, 0, .load (.storage "p") 0 4, none⟩, ⟨1, 0, .load (.storage "q") 0 4, none⟩,
    ⟨2, 0, .copy (.storage "p"), some "q"⟩]⟩

/-- No operation of the trace leaves the address space, so the analysis succeeds. -/
lemma exists_run_laterMergedTrace :
    ∃ l d, run .empty .lp64 "f" laterMergedTrace .empty = .ok l d := by
  have ingested : Trace.ingest laterMerged = .ok laterMergedTrace := rfl
  have fits : ∀ op ∈ laterMergedTrace.operations, ∀ address,
      ¬ op.action.Strays .empty address := by
    simp [laterMergedTrace, Action.Strays, Operand.Strays]
  exact run_of_fits ingested fits .lp64 "f" .empty

/-- What `q` pointed into at first was merged later; its first type names the class that is left. -/
theorem run_closed_laterMerged :
    ∃ l d, run .empty .lp64 "f" laterMergedTrace .empty = .ok l d ∧ l.Closed := by
  obtain ⟨l, d, ran⟩ := exists_run_laterMergedTrace
  exact ⟨l, d, ran, run_closed ran⟩

end Analysis

end TypeRecovery
