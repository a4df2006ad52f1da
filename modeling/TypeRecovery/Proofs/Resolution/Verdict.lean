import TypeRecovery.Proofs.Arena.Kinds
import TypeRecovery.Proofs.Resolution.Coverage
import TypeRecovery.Resolution.Verdict

/-!
# What a verdict asks for and says

`Meets T post` says that an inquiry keeps to the terms `T` as long as its questions are answered,
and that its answer is in `post`. The verdict on a class asks for the types of the values that its
accesses see and its calls pass, and for the classes that it points into; it names no other classes
than those that it was told. Where nothing is accessed or called, it is the type of a value, and where
nothing is called, it tells of every access (`verdict_meets`).
-/

namespace TypeRecovery

/-- The offset of an access. -/
def Fact.offset? : Fact → Option Int64
  | .field access => some access.offset
  | .element access => some access.offset
  | _ => none

/-- Parts of a class were accessed at an offset. -/
def Evidence.Accesses (e : Evidence) (offset : Int64) : Prop :=
  (∃ access ∈ e.fields, access.offset = offset) ∨ ∃ access ∈ e.elements, access.offset = offset

namespace Inquiry

/-- What an inquiry may do. -/
structure Terms where
  /-- The class that remarks are about. -/
  about : ClassId
  /-- The variables whose types it may ask for. -/
  asked : VarId → Prop
  /-- The variables whose classes it may ask for. -/
  targeted : VarId → Prop
  /-- The classes that answers consist of. -/
  inside : ClassId → Prop
  /-- The classes of variables. -/
  classOf : VarId → ClassId
  /-- Whether it may fail. -/
  fails : Prop

/-- An inquiry keeps to its terms as long as its questions are answered. -/
inductive Meets (T : Terms) {α : Type} (post : α → Prop) : Inquiry α → Prop
  | answer {r} : post r → Meets T post (.answer r)
  | failure {e} : T.fails → Meets T post (.failure e)
  | remark {n next} : n.Settles T.about → Meets T post next → Meets T post (.remark n next)
  | askType {v next} : T.asked v →
    (∀ t, t.Names T.inside → t.Grounded → Meets T post (next (some t))) →
    Meets T post (.askType v next)
  | askClass {v next} : T.targeted v →
    (T.inside (T.classOf v) → Meets T post (next (T.classOf v))) → Meets T post (.askClass v next)

section
variable {T : Terms} {α β : Type}

/-- Two inquiries in a row keep to their terms if each of them does. -/
lemma Meets.bind {x : Inquiry α} {f : α → Inquiry β} {Q : α → Prop} {post : β → Prop}
    (meets : x.Meets T Q) (next : ∀ r, Q r → (f r).Meets T post) :
    (x >>= f).Meets T post := by
  induction meets with
  | answer holds => exact next _ holds
  | failure fails => exact .failure fails
  | remark settles _ ih => exact .remark settles ih
  | askType asked _ ih => exact .askType asked ih
  | askClass targeted _ ih => exact .askClass targeted ih

/-- An inquiry that keeps to its terms has a weaker answer, too. -/
lemma Meets.mono {x : Inquiry α} {Q post : α → Prop} (meets : x.Meets T Q)
    (weaker : ∀ r, Q r → post r) : x.Meets T post := by
  induction meets with
  | answer holds => exact .answer (weaker _ holds)
  | failure fails => exact .failure fails
  | remark settles _ ih => exact .remark settles ih
  | askType asked _ ih => exact .askType asked ih
  | askClass targeted _ ih => exact .askClass targeted ih

/-- A list of inquiries has a list of answers, one for each. -/
lemma Meets.mapM {f : α → Inquiry β} {l : List α} {post : α → β → Prop}
    (each : ∀ x ∈ l, (f x).Meets T (post x)) : (l.mapM f).Meets T (List.Forall₂ post l) := by
  -- the answers so far are generalized, as the loop carries them along
  suffices h : ∀ done, (List.mapM.loop f l done).Meets T
      fun rs => ∃ rest, rs = done.reverse ++ rest ∧ List.Forall₂ post l rest by
    refine (h []).mono fun rs => ?_
    rintro ⟨rest, rfl, answers⟩
    exact answers
  induction l with
  | nil => exact fun done => .answer ⟨[], by simp, .nil⟩
  | cons x l ih =>
    intro done
    refine (each x List.mem_cons_self).bind fun r here => ?_
    refine (ih (fun y mem => each y (List.mem_cons_of_mem _ mem)) (r :: done)).mono fun rs => ?_
    rintro ⟨rest, rfl, answers⟩
    exact ⟨r :: rest, by simp, .cons here answers⟩

/-- Each member of a list has a related member in a related list. -/
lemma exists_of_forall₂ {R : α → β → Prop} {l : List α} {rs : List β} (rel : List.Forall₂ R l rs)
    {x : α} (mem : x ∈ l) : ∃ r ∈ rs, R x r := by
  induction rel with
  | nil => cases mem
  | cons here _ ih =>
    rcases List.mem_cons.1 mem with rfl | mem
    · exact ⟨_, List.mem_cons_self, here⟩
    · obtain ⟨r, inside, there⟩ := ih mem
      exact ⟨r, List.mem_cons_of_mem _ inside, there⟩

/-- What holds of every answer holds of all members of a list of answers. -/
lemma Meets.forall_mapM {f : α → Inquiry β} {l : List α} {post : β → Prop}
    (each : ∀ x ∈ l, (f x).Meets T post) : (l.mapM f).Meets T fun rs => ∀ r ∈ rs, post r := by
  have all : (l.mapM f).Meets T (List.Forall₂ (fun _ => post) l) := .mapM each
  refine all.mono fun rs answers r mem => ?_
  obtain ⟨_, _, holds⟩ := exists_of_forall₂ answers.flip mem
  exact holds

/-- Leaving remarks keeps to the terms if they settle conflicts of the class. -/
lemma meets_leaveAll {remarks : List Remark} (settle : ∀ n ∈ remarks, n.Settles T.about) :
    (leaveAll remarks).Meets T fun _ => True := by
  induction remarks with
  | nil => exact .answer trivial
  | cons n remarks ih =>
    have first : (leave n).Meets T fun _ => True :=
      .remark (settle n List.mem_cons_self) (.answer trivial)
    refine first.bind fun _ _ => ?_
    exact ih fun m mem => settle m (List.mem_cons_of_mem _ mem)

/-! ## Aggregates -/

/-- The type of an access: it names classes that were told, tells of its start, and something is
known of it. -/
structure Terms.Admits (T : Terms) (t : DataType) : Prop where
  names : t.Names T.inside
  start : 0 ∈ t.offsets
  known : t ≠ .void
  definite : t.Definite

/-- The type of an accessed value is admitted. -/
lemma accessedType_meets {offset : Int64} {width : UInt8} {v : VarId} (asked : T.asked v) :
    (accessedType T.about offset width v).Meets T T.Admits := by
  -- an open question would be remarked on as recursion, but `Meets` assumes an answer
  refine .askType asked fun t named grounded => ?_
  cases t with
  | void =>
    exact .answer ⟨DataType.names_of_classIds_eq_nil rfl, List.mem_singleton_self 0, nofun,
      DataType.definite_of_single rfl rfl⟩
  | _ => exact .answer ⟨named, grounded.start nofun, nofun, grounded.definite⟩

/-- A first access is an access. -/
lemma mem_of_mem_firstAccesses {κ : Type} [DecidableEq κ] {key : α → κ} {l : List α} {x : α}
    (mem : x ∈ firstAccesses key l) : x ∈ l := by
  induction l with
  | nil => simp [firstAccesses] at mem
  | cons y l ih =>
    rcases List.mem_cons.1 mem with rfl | mem
    · exact List.mem_cons_self
    · exact List.mem_cons_of_mem _ (ih (List.mem_of_mem_filter mem))

/-- Every part that is accessed has a first access. -/
lemma exists_firstAccess {κ : Type} [DecidableEq κ] (key : α → κ) {l : List α} {x : α}
    (mem : x ∈ l) : ∃ first ∈ firstAccesses key l, key first = key x := by
  induction l with
  | nil => cases mem
  | cons y l ih =>
    by_cases same : key y = key x
    · exact ⟨y, List.mem_cons_self, same⟩
    · rcases List.mem_cons.1 mem with rfl | mem
      · exact absurd rfl same
      · obtain ⟨first, inside, e⟩ := ih mem
        refine ⟨first, List.mem_cons_of_mem _ (List.mem_filter.2 ⟨inside, ?_⟩), e⟩
        simpa [e] using Ne.symm same

/-- All parts that are accessed are typed, by their first accesses. -/
lemma firstAccesses_meets {κ : Type} [DecidableEq κ] (key : α → κ) {f : α → Inquiry β} {l : List α}
    {post : α → β → Prop} (each : ∀ x ∈ l, (f x).Meets T (post x)) :
    ((firstAccesses key l).mapM f).Meets T fun rs => (∀ r ∈ rs, ∃ x ∈ l, post x r) ∧
      ∀ x ∈ l, ∃ r ∈ rs, ∃ first, key first = key x ∧ post first r := by
  have firsts : ((firstAccesses key l).mapM f).Meets T (List.Forall₂ post (firstAccesses key l)) :=
    .mapM fun x mem => each x (mem_of_mem_firstAccesses mem)
  refine firsts.mono fun rs answers => ⟨fun r mem => ?_, fun x mem => ?_⟩
  · obtain ⟨x, inside, holds⟩ := exists_of_forall₂ answers.flip mem
    exact ⟨x, mem_of_mem_firstAccesses inside, holds⟩
  · obtain ⟨first, inside, same⟩ := exists_firstAccess key mem
    obtain ⟨r, answered, holds⟩ := exists_of_forall₂ answers inside
    exact ⟨r, answered, first, same, holds⟩

/-- The slots hold the types of the accesses. -/
lemma alternatives_ofAccesses {P : DataType → Prop} {typed : List TypedAccess}
    (each : ∀ access ∈ typed, P access.type) :
    ∀ slot ∈ Slot.ofAccesses typed, ∀ t ∈ slot.alternatives, P t := by
  intro slot mem t inside
  obtain ⟨offset, _, rfl⟩ := List.mem_map.1 mem
  obtain ⟨access, here, rfl⟩ := List.mem_map.1 (Ascending.mem_of_mem_distinct inside)
  exact each access (List.mem_of_mem_filter here)

/-- A slot holds at least the type of the access that it was made for. -/
lemma alternatives_ne_nil {typed : List TypedAccess} {slot : Slot}
    (mem : slot ∈ Slot.ofAccesses typed) : slot.alternatives ≠ [] := by
  obtain ⟨offset, inside, rfl⟩ := List.mem_map.1 mem
  obtain ⟨access, made, here⟩ :=
    List.mem_map.1 ((Ascending.mem_ofList Layout.offset_total).1 inside)
  have held : access.type ∈ (typed.filter fun access => access.offset = offset).map (·.type) :=
    List.mem_map_of_mem (List.mem_filter.2 ⟨made, decide_eq_true here⟩)
  exact List.ne_nil_of_mem (Ascending.mem_distinct.2 held)

/-- There is a slot wherever something is accessed. -/
lemma exists_slot {typed : List TypedAccess} {access : TypedAccess} (mem : access ∈ typed) :
    ∃ slot ∈ Slot.ofAccesses typed, slot.offset = access.offset := by
  refine ⟨_, List.mem_map_of_mem ?_, rfl⟩
  exact (Ascending.mem_ofList Layout.offset_total).2 (List.mem_map_of_mem mem)

/-- The type of an element is admitted if that of its value is. -/
lemma elementType_admits {stride : UInt32} {width : UInt8} {t : DataType} (admitted : T.Admits t) :
    T.Admits (Row.elementType stride width t) := by
  rw [Row.elementType]
  split
  · refine ⟨DataType.names_struct.2 ?_, List.mem_singleton_self 0, nofun, fun u mem => ?_⟩
    · simpa [DataType.observed] using ⟨admitted.names, DataType.names_of_classIds_eq_nil rfl⟩
    · cases List.mem_singleton.1 mem
      exact admitted.definite.leaves_ne_nil admitted.known
  · exact admitted

/-- A row that is laid out. A stride of zero is a reason to fail. -/
lemma elementType_meets {access : ElementAccess} (asked : T.asked access.value)
    (zero : access.stride = 0 → T.fails) :
    (elementType T.about access).Meets T fun row =>
      T.Admits row.element ∧ row.offset = access.offset ∧ (row.stride = 0 → T.fails) :=
  (accessedType_meets asked).bind fun _ told => .answer ⟨elementType_admits told, rfl, zero⟩

/-- The type of a field is admitted. -/
lemma fieldType_meets {access : FieldAccess} (asked : T.asked access.value) :
    (fieldType T.about access).Meets T fun typed =>
      T.Admits typed.type ∧ typed.offset = access.offset :=
  (accessedType_meets asked).bind fun _ told => .answer ⟨told, rfl⟩

/-- The type of an aggregate tells of every access, and something is known of all its parts. -/
lemma aggregateType_meets {config : Config} {evidence : Evidence}
    (fields : ∀ access ∈ evidence.fields, T.asked access.value)
    (elements : ∀ access ∈ evidence.elements, T.asked access.value)
    (zero : ∀ access ∈ evidence.elements, access.stride = 0 → T.fails) :
    (aggregateType config T.about evidence).Meets T fun t => t.Names T.inside ∧ t.Definite ∧
      ∀ {offset}, evidence.Accesses offset → t.LaysOut config offset := by
  have typed := firstAccesses_meets FieldAccess.key fun access mem =>
    fieldType_meets (fields access mem)
  refine typed.bind fun typed answers => ?_
  have rows := firstAccesses_meets ElementAccess.key fun access mem =>
    elementType_meets (elements access mem) (zero access mem)
  refine rows.bind fun rows answers' => ?_
  have slots : ∀ slot ∈ Slot.ofAccesses typed, ∀ t ∈ slot.alternatives, T.Admits t := by
    apply alternatives_ofAccesses
    intro access mem
    obtain ⟨_, _, admitted, _⟩ := answers.1 access mem
    exact admitted
  have admits : ∀ row ∈ rows, T.Admits row.element ∧ (row.stride = 0 → T.fails) := by
    intro row mem
    obtain ⟨_, _, admitted, _, zero⟩ := answers'.1 row mem
    exact ⟨admitted, zero⟩
  dsimp only
  split
  · rename_i divides
    obtain ⟨row, mem, stride⟩ := Layout.exists_zero_of_dividesByZero divides
    exact .failure ((admits row mem).2 stride)
  · have named : Aggregate.Names T.inside ⟨Slot.ofAccesses typed, rows, evidence.extent⟩ :=
      ⟨fun slot mem t inside => (slots slot mem t inside).names,
        fun row mem => (admits row mem).1.names⟩
    have grounded : Aggregate.Grounded ⟨Slot.ofAccesses typed, rows, evidence.extent⟩ :=
      ⟨fun slot mem t inside => (slots slot mem t inside).start,
        fun row mem => (admits row mem).1.start⟩
    have definite : Aggregate.Definite ⟨Slot.ofAccesses typed, rows, evidence.extent⟩ := by
      refine ⟨fun slot mem => ⟨alternatives_ne_nil mem, fun t inside => ?_⟩,
        fun row mem => (admits row mem).1.definite⟩
      have admitted := slots slot mem t inside
      exact ⟨admitted.known, admitted.definite⟩
    have synthesis : (Layout.synthesize config T.about _).Names T.inside T.about :=
      Layout.synthesize_names named
    refine (meets_leaveAll synthesis.remarks).bind fun _ _ =>
      .answer ⟨synthesis.type, Layout.synthesize_definite definite, ?_⟩
    -- of each access the first one to the same part is laid out, which has the same offset
    rintro offset (⟨access, mem, rfl⟩ | ⟨access, mem, rfl⟩)
    · obtain ⟨typedAccess, mem', first, key, _, place⟩ := answers.2 access mem
      obtain ⟨slot, here, there⟩ := exists_slot mem'
      refine Layout.synthesize_laysOut grounded (.inl ⟨slot, here, ?_⟩)
      exact there.trans (place.trans (congrArg Prod.fst key))
    · obtain ⟨row, mem', first, key, _, place, _⟩ := answers'.2 access mem
      refine Layout.synthesize_laysOut grounded (.inr ⟨row, mem', ?_⟩)
      exact place.trans (congrArg Prod.fst key)

/-! ## Functions -/

/-- The type of a passed value names classes that were told. -/
lemma passedType_meets {v : VarId} (asked : T.asked v) :
    (passedType v).Meets T (·.Names T.inside) :=
  .askType asked fun _ named _ => .answer named

/-- The type of a parameter names classes that were told. -/
lemma paramType_meets {sites : List CallSite} {index : Nat}
    (args : ∀ site ∈ sites, ∀ v ∈ site.args, T.asked v) :
    (paramType T.about sites index).Meets T (·.Names T.inside) := by
  refine Meets.bind (Q := fun ts => ∀ t ∈ ts, t.Names T.inside) (.forall_mapM fun v mem => ?_)
    fun passed named => ?_
  · obtain ⟨site, mem, found⟩ := List.mem_filterMap.1 mem
    exact passedType_meets (args site mem v (List.mem_of_getElem? found))
  · have param := DataType.names_joinAll named
    dsimp only
    split
    · exact .remark ⟨rfl, rfl, rfl⟩ (.answer param)
    · exact .answer param

/-- The type of a function names classes that were told, and is known. -/
lemma functionType_meets {sites : List CallSite}
    (args : ∀ site ∈ sites, ∀ v ∈ site.args, T.asked v)
    (results : ∀ site ∈ sites, ∀ v ∈ site.result, T.asked v) :
    (functionType T.about sites).Meets T fun t =>
      t.Names T.inside ∧ t.Definite ∧ t ≠ .void := by
  refine Meets.bind (Q := fun ts => ∀ t ∈ ts, t.Names T.inside) (.forall_mapM fun v mem => ?_)
    fun passed named => ?_
  · obtain ⟨site, mem, found⟩ := List.mem_filterMap.1 mem
    exact passedType_meets (results site mem v found)
  · have result := DataType.names_joinAll named
    have typed : ∀ params untyped, (∀ t ∈ params, t.Names T.inside) →
        (DataType.function params (DataType.joinAll passed) untyped).Names T.inside ∧
        (DataType.function params (DataType.joinAll passed) untyped).Definite ∧
        DataType.function params (DataType.joinAll passed) untyped ≠ .void :=
      fun _ _ each => ⟨DataType.names_function.2 ⟨each, result⟩,
        DataType.definite_of_single rfl rfl, nofun⟩
    dsimp only
    split
    · exact .answer (typed [] false (by simp))
    · refine Meets.bind (Q := fun ts => ∀ t ∈ ts, t.Names T.inside)
        (.forall_mapM fun _ _ => paramType_meets args) fun params each => ?_
      exact .answer (typed params false each)
    · exact .remark ⟨rfl, rfl, rfl⟩ (.answer (typed [] true (by simp)))

/-! ## Values -/

/-- The type of a class that is dereferenced, given the class that it points into. -/
def pointerVerdict (config : Config) (evidence : Evidence) (seen : Sighting) (target : ClassId) :
    DataType :=
  match evidence.strongScalar with
  | some scalar =>
    let integer := integerType config evidence
    .union (if scalar.seq < seen.seq then [integer, .pointer target] else [.pointer target, integer])
  | none => .pointer target

/-- The type of a class of values, given the class that it would point into. -/
def valueType (config : Config) (evidence : Evidence) (target : ClassId) : DataType :=
  match evidence.pointer with
  | some (seen, _) => pointerVerdict config evidence seen target
  | none => scalarType config evidence

/-- The type of a pointer names no class but its target. -/
lemma pointerVerdict_names {P : ClassId → Prop} {config : Config} {evidence : Evidence}
    {seen : Sighting} {target : ClassId} (inside : P target) :
    (pointerVerdict config evidence seen target).Names P := by
  have pointer : (DataType.pointer target).Names P := DataType.names_pointer.2 inside
  have integer : (integerType config evidence).Names P := DataType.names_of_classIds_eq_nil rfl
  rw [pointerVerdict]
  split
  · refine DataType.names_union.2 ?_
    split
    · simpa using ⟨integer, pointer⟩
    · simpa using ⟨pointer, integer⟩
  · exact pointer

/-- The type of a scalar names no class. -/
lemma scalarType_names {P : ClassId → Prop} {config : Config} {evidence : Evidence} :
    (scalarType config evidence).Names P := by
  apply DataType.names_of_classIds_eq_nil
  rw [scalarType]
  split
  · rfl
  · split
    · rfl
    · split <;> rfl

/-- The type of a scalar tells of its start, unless nothing is known. -/
lemma scalarType_grounded {config : Config} {evidence : Evidence} :
    (scalarType config evidence).Grounded := by
  rw [scalarType]
  split
  · exact ⟨fun _ => List.mem_singleton_self 0, DataType.definite_of_single rfl rfl⟩
  · split
    · exact ⟨fun _ => List.mem_singleton_self 0, DataType.definite_of_single rfl rfl⟩
    · split
      · exact ⟨fun _ => List.mem_singleton_self 0, DataType.definite_of_single rfl rfl⟩
      · exact ⟨fun known => absurd rfl known, nofun⟩

/-- The type of a pointer tells of its start. -/
lemma pointerVerdict_grounded {config : Config} {evidence : Evidence} {seen : Sighting}
    {target : ClassId} : (pointerVerdict config evidence seen target).Grounded := by
  rw [pointerVerdict]
  split
  · refine ⟨fun _ => List.mem_singleton_self 0, ?_⟩
    have pointer : (DataType.pointer target).leaves ≠ [] := List.cons_ne_nil _ _
    split
    · exact DataType.definite_union (List.mem_cons_of_mem _ (List.mem_singleton_self _)) pointer
    · exact DataType.definite_union List.mem_cons_self pointer
  · exact ⟨fun _ => List.mem_singleton_self 0, DataType.definite_of_single rfl rfl⟩

/-- The type of a value tells of its start. -/
lemma valueType_grounded {config : Config} {evidence : Evidence} {target : ClassId} :
    (valueType config evidence target).Grounded := by
  rw [valueType]
  split
  · exact pointerVerdict_grounded
  · exact scalarType_grounded

/-- The type of a pointer points into the class of its target. -/
lemma pointerType_meets {config : Config} {evidence : Evidence} {seen : Sighting} {target : VarId}
    (targeted : T.targeted target) :
    (pointerType config T.about evidence seen target).Meets T fun t =>
      T.inside (T.classOf target) ∧ t = pointerVerdict config evidence seen (T.classOf target) := by
  refine .askClass targeted fun inside => ?_
  generalize T.classOf target = c at inside
  have verdict : Meets T (fun t => T.inside c ∧ t = pointerVerdict config evidence seen c)
      (match evidence.strongScalar with
        | some scalar => do
          leave (.kindConflict T.about scalar.position seen.position)
          let integer := integerType config evidence
          return .union (if scalar.seq < seen.seq then [integer, DataType.pointer c]
            else [DataType.pointer c, integer])
        | none => return DataType.pointer c) := by
    cases strong : evidence.strongScalar with
    | some scalar =>
      exact .remark ⟨rfl, rfl, rfl⟩ (.answer ⟨inside, by rw [pointerVerdict, strong]⟩)
    | none => exact .answer ⟨inside, by rw [pointerVerdict, strong]⟩
  simp only [Inquiry.bind]
  split
  · exact .remark ⟨rfl, rfl, rfl⟩ verdict
  · exact verdict

/-! ## All classes -/

/-- The gathered calls are those among the constraints. -/
lemma mem_callSites {constraints : List Constraint} {site : CallSite} :
    site ∈ (Evidence.gather constraints).callSites ↔
      Fact.callSite site ∈ constraints.map (·.fact) := by
  simp only [Evidence.gather, List.mem_filterMap]
  constructor
  · rintro ⟨fact, mem, e⟩
    cases fact <;> simp only [Fact.callSite?, Option.some.injEq, reduceCtorEq] at e
    exact e ▸ mem
  · exact fun mem => ⟨_, mem, rfl⟩

/-- The gathered fields are those among the constraints. -/
lemma mem_fields {constraints : List Constraint} {access : FieldAccess} :
    access ∈ (Evidence.gather constraints).fields ↔
      Fact.field access ∈ constraints.map (·.fact) := by
  simp [Evidence.gather, Fact.field?_eq_some]

/-- The gathered elements are those among the constraints. -/
lemma mem_elements {constraints : List Constraint} {access : ElementAccess} :
    access ∈ (Evidence.gather constraints).elements ↔
      Fact.element access ∈ constraints.map (·.fact) := by
  simp [Evidence.gather, Fact.element?_eq_some]

/-- A verdict on constraints: it names the classes that it was told; something is known of all its
parts, and of the whole where something is accessed or called; otherwise it is the type of a value, and
points into the class of the first target; and it tells of every access where nothing is called. -/
structure Follows (inside : ClassId → Prop) (classOf : VarId → ClassId) (config : Config)
    (constraints : List Constraint) (t : DataType) : Prop where
  names : t.Names inside
  definite : t.Definite
  known : (∃ constraint ∈ constraints, constraint.fact.isAccess = true) → t ≠ .void
  value : (∀ constraint ∈ constraints, constraint.fact.isAccess = false) →
    ∃ target, t = valueType config (.gather constraints) target ∧
      ∀ {seen v}, (Evidence.gather constraints).pointer = some (seen, v) → target = classOf v
  parts : (∀ constraint ∈ constraints, constraint.fact.callSite? = none) →
    ∀ constraint ∈ constraints, ∀ {offset}, constraint.fact.offset? = some offset →
      t.LaysOut config offset

section
variable {config : Config} {constraints : List Constraint} {t : DataType}

/-- A constraint on an access is gathered as one. -/
lemma accesses_of_offset? {constraint : Constraint} (mem : constraint ∈ constraints)
    {offset : Int64} (accessed : constraint.fact.offset? = some offset) :
    (Evidence.gather constraints).Accesses offset := by
  cases fact : constraint.fact with
  | field access =>
    rw [fact] at accessed
    exact .inl ⟨access, mem_fields.2 (List.mem_map.2 ⟨_, mem, fact⟩), Option.some.inj accessed⟩
  | element access =>
    rw [fact] at accessed
    exact .inr ⟨access, mem_elements.2 (List.mem_map.2 ⟨_, mem, fact⟩), Option.some.inj accessed⟩
  | _ =>
    rw [fact] at accessed
    cases accessed

/-- Where something is called, nothing else matters. -/
lemma follows_of_call {site : CallSite} (called : .callSite site ∈ constraints.map (·.fact))
    (named : t.Names T.inside) (definite : t.Definite) (known : t ≠ .void) :
    Follows T.inside T.classOf config constraints t := by
  obtain ⟨constraint, mem, call⟩ := List.mem_map.1 called
  refine ⟨named, definite, fun _ => known, fun none => ?_, fun none => ?_⟩
  all_goals
    have here := none constraint mem
    rw [call] at here
    cases here

/-- Where something is accessed in parts, a type that tells of every access follows. -/
lemma follows_of_parts (accessed : (Evidence.gather constraints).isAggregate = true)
    (named : t.Names T.inside) (definite : t.Definite)
    (laid : ∀ {offset}, (Evidence.gather constraints).Accesses offset → t.LaysOut config offset) :
    Follows T.inside T.classOf config constraints t := by
  have parted : ∃ constraint ∈ constraints, constraint.fact.isAccess = true ∧
      ∃ offset, constraint.fact.offset? = some offset := by
    simp only [Evidence.isAggregate, Bool.or_eq_true, Bool.not_eq_true',
      List.isEmpty_eq_false_iff_exists_mem] at accessed
    rcases accessed with ⟨access, mem⟩ | ⟨access, mem⟩
    · obtain ⟨constraint, inside, e⟩ := List.mem_map.1 (mem_fields.1 mem)
      exact ⟨constraint, inside, by rw [e]; rfl, access.offset, by rw [e]; rfl⟩
    · obtain ⟨constraint, inside, e⟩ := List.mem_map.1 (mem_elements.1 mem)
      exact ⟨constraint, inside, by rw [e]; rfl, access.offset, by rw [e]; rfl⟩
  obtain ⟨constraint, inside, access, offset, here⟩ := parted
  refine ⟨named, definite, fun _ => (laid (accesses_of_offset? inside here)).ne_void,
    fun none => ?_, fun _ _ mem _ accessed => laid (accesses_of_offset? mem accessed)⟩
  rw [none constraint inside] at access
  cases access

/-- Nothing is accessed if there are neither calls nor parts. -/
lemma isAccess_eq_false_iff : (∀ constraint ∈ constraints, constraint.fact.isAccess = false) ↔
    (Evidence.gather constraints).callSites = [] ∧
      (Evidence.gather constraints).isAggregate = false := by
  simp only [Evidence.isAggregate, Bool.or_eq_false_iff, Bool.not_eq_false', List.isEmpty_iff,
    List.eq_nil_iff_forall_not_mem, mem_callSites, mem_fields, mem_elements, List.mem_map, not_exists,
    not_and]
  constructor
  · intro none
    refine ⟨fun site c mem fact => ?_, fun access c mem fact => ?_, fun access c mem fact => ?_⟩
    all_goals
      have here := none c mem
      rw [fact] at here
      cases here
  · rintro ⟨calls, fields, elements⟩ c mem
    cases fact : c.fact with
    | callSite site => exact absurd fact (calls site c mem)
    | field access => exact absurd fact (fields access c mem)
    | element access => exact absurd fact (elements access c mem)
    | _ => rfl

/-- Where nothing is accessed, the type of a value follows. -/
lemma follows_of_value (uncalled : (Evidence.gather constraints).callSites = [])
    (whole : (Evidence.gather constraints).isAggregate = false) (named : t.Names T.inside)
    (target : ClassId)
    (value : t = valueType config (.gather constraints) target)
    (points : ∀ {seen v}, (Evidence.gather constraints).pointer = some (seen, v) →
      target = T.classOf v) : Follows T.inside T.classOf config constraints t := by
  have none := isAccess_eq_false_iff.2 ⟨uncalled, whole⟩
  refine ⟨named, value ▸ valueType_grounded.definite, fun some => ?_,
    fun _ => ⟨target, value, points⟩, fun _ constraint mem offset accessed => ?_⟩
  · obtain ⟨constraint, mem, access⟩ := some
    rw [none constraint mem] at access
    cases access
  · have access := none constraint mem
    cases fact : constraint.fact <;> rw [fact] at access accessed
    case field => cases access
    case element => cases access
    all_goals cases accessed

end

/-- A verdict asks for the types of the values and the classes of the pointees that its facts
mention, and fails for elements with a stride of zero only. -/
lemma verdict_meets {config : Config} {constraints : List Constraint}
    (values : ∀ constraint ∈ constraints, ∀ v, (v, false) ∈ constraint.fact.mentions → T.asked v)
    (targets : ∀ constraint ∈ constraints, ∀ v, (v, true) ∈ constraint.fact.mentions →
      T.targeted v)
    (zero : ∀ constraint ∈ constraints, ∀ access, constraint.fact = .element access →
      access.stride = 0 → T.fails) :
    (verdict config T.about (.gather constraints)).Meets T
      (Follows T.inside T.classOf config constraints) := by
  have asked : ∀ {fact : Fact} {v}, fact ∈ constraints.map (·.fact) →
      (v, false) ∈ fact.mentions → T.asked v := by
    intro fact v mem mention
    obtain ⟨constraint, inside, rfl⟩ := List.mem_map.1 mem
    exact values constraint inside v mention
  -- the cases are those of the verdict: calls come before accesses, and accesses before all
  -- evidence on values
  rw [verdict]
  split
  · rename_i called
    obtain ⟨site, mem⟩ := List.exists_mem_of_ne_nil _ (by simpa using called)
    have function : (functionType T.about (Evidence.gather constraints).callSites).Meets T
        fun t => t.Names T.inside ∧ t.Definite ∧ t ≠ .void := by
      refine functionType_meets (fun site mem v inside => ?_) fun site mem v inside => ?_
      · exact asked (mem_callSites.1 mem) (List.mem_map_of_mem (List.mem_append_left _ inside))
      · exact asked (mem_callSites.1 mem)
          (List.mem_map_of_mem (List.mem_append_right _ (Option.mem_toList.2 inside)))
    have function : (functionType T.about _).Meets T
        (Follows T.inside T.classOf config constraints) :=
      function.mono fun t told => follows_of_call (mem_callSites.1 mem) told.1 told.2.1 told.2.2
    dsimp only
    split
    · exact .remark ⟨rfl, rfl, rfl⟩ function
    · exact function
  · rename_i called
    have uncalled : (Evidence.gather constraints).callSites = [] := by simpa using called
    split
    · rename_i accessed
      refine (aggregateType_meets ?_ ?_ ?_).mono fun t => ?_
      · exact fun access mem => asked (mem_fields.1 mem) (List.mem_singleton_self _)
      · exact fun access mem => asked (mem_elements.1 mem) (List.mem_singleton_self _)
      · intro access mem stride
        obtain ⟨constraint, inside, e⟩ := List.mem_map.1 (mem_elements.1 mem)
        exact zero constraint inside access e stride
      · rintro ⟨named, definite, laid⟩
        exact follows_of_parts accessed named definite laid
    · rename_i whole
      have whole := Bool.eq_false_of_not_eq_true whole
      split
      · rename_i seen target pointer
        obtain ⟨constraint, inside, e⟩ := List.exists_of_findSome?_eq_some pointer
        obtain ⟨v, points, e⟩ := Option.map_eq_some_iff.1 e
        cases e
        have targeted : T.targeted target := by
          refine targets constraint inside target ?_
          rw [Fact.target?_eq_some.1 points]
          exact List.mem_singleton_self _
        refine (pointerType_meets targeted).mono fun t => ?_
        rintro ⟨told, rfl⟩
        apply follows_of_value uncalled whole (pointerVerdict_names told) (T.classOf target)
        · rw [valueType, pointer]
        · intro seen' v pointer'
          rw [pointer] at pointer'
          cases pointer'
          rfl
      · rename_i pointer
        refine .answer (follows_of_value uncalled whole scalarType_names ⟨0⟩ ?_ ?_)
        · rw [valueType, pointer]
        · intro seen v pointer'
          rw [pointer] at pointer'
          cases pointer'

end

end Inquiry

end TypeRecovery
