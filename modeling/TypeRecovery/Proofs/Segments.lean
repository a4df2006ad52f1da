import TypeRecovery.Program
import TypeRecovery.Proofs.StorageTypes

/-!
# What is listed of a segment

The pointer to a memory segment is never made equal to another value, so what the segment holds is
accessed through that pointer only, and it is never called. Its type therefore tells of every access,
unless equal fields were collapsed to an array (`contents_laysOut`), and the places that a listing
tells of are the offsets of these types (`mem_globalFacts_iff`).
-/

namespace TypeRecovery

/-! ## Segments are left alone -/

/-- The values that an observation may join with others. -/
def Observation.joins : Observation → List Value
  | .equates v w => [v, w]
  | .accesses _ _ v => [v]
  | _ => []

/-- No pointer to a segment is joined with another value. -/
def SegmentsApart (obs : List Observation) : Prop :=
  ∀ o ∈ obs, ∀ v ∈ o.joins, v.isSegment = false

section
variable {memory : MemoryMap} {position slot : Nat}

/-- Named storage is no segment. -/
@[simp] lemma Value.isSegment_storage {name : String} : (storage name).isSegment = false := rfl

/-- A result is no segment. -/
@[simp] lemma Value.isSegment_result : (result position).isSegment = false := rfl

/-- Where nothing is observed, segments are apart. -/
@[simp] lemma segmentsApart_nil : SegmentsApart [] := by
  simp [SegmentsApart]

/-- Segments are apart if no observation joins one. -/
@[simp] lemma segmentsApart_cons {o : Observation} {obs : List Observation} :
    SegmentsApart (o :: obs) ↔ (∀ v ∈ o.joins, v.isSegment = false) ∧ SegmentsApart obs :=
  List.forall_mem_cons

/-- Segments are apart in two lists of observations if they are so in each. -/
@[simp] lemma segmentsApart_append {obs more : List Observation} :
    SegmentsApart (obs ++ more) ↔ SegmentsApart obs ∧ SegmentsApart more :=
  List.forall_mem_append

/-- What is told of a value joins nothing. -/
@[simp] lemma segmentsApart_tells {v : Value} {facts : List Fact} :
    SegmentsApart (facts.map (.tells v)) := by
  intro o mem w join
  obtain ⟨fact, _, rfl⟩ := List.mem_map.1 mem
  cases join

/-- Reading an operand joins no segment. -/
@[simp] lemma Operand.segmentsApart_observations {operand : Operand} :
    SegmentsApart (operand.observations position slot) := by
  cases operand <;> simp [observations, Observation.joins]

/-- Reading operands joins no segment. -/
@[simp] lemma Operand.segmentsApart_observationsFrom {operands : List Operand} :
    SegmentsApart (observationsFrom position slot operands) := by
  induction operands generalizing slot with
  | nil => simp [observationsFrom]
  | cons operand operands ih => simp [observationsFrom, ih]

/-- An access through a base joins no segment before it gets to its part. -/
@[simp] lemma Operand.segmentsApart_baseObservations {base : Operand} {offset : Int64} :
    SegmentsApart (base.baseObservations memory position slot offset) := by
  cases base <;> simp [baseObservations, Observation.joins]

/-- An action joins no segment. -/
lemma Action.segmentsApart_observations {action : Action} :
    SegmentsApart (action.observations memory position) := by
  cases action with
  | bitwise operator lhs rhs width =>
    cases left : lhs.isLiteral <;> cases right : rhs.isLiteral <;>
      simp [observations, left, right, Observation.joins]
  | _ => simp [observations, Observation.joins]

/-- A trace joins no segment. -/
lemma Trace.segmentsApart_observations {t : Trace} : SegmentsApart (t.observations memory) := by
  intro o mem
  obtain ⟨op, _, mem⟩ := List.mem_flatMap.1 mem
  rcases List.mem_append.1 mem with mem | mem
  · exact Action.segmentsApart_observations o mem
  · split at mem
    · rename_i name _ _
      have stored : SegmentsApart
          [.uses (.storage name), .equates (.storage name) (.result op.position)] := by
        simp [Observation.joins]
      exact stored o mem
    · cases mem

end

/-- What is joined with a segment is the segment itself. -/
lemma Joined.eq_or_not_segment {obs : List Observation} (apart : SegmentsApart obs) {v w : Value}
    (jo : Joined obs v w) : v = w ∨ v.isSegment = false ∧ w.isSegment = false := by
  induction jo with
  | used mem => exact .inl rfl
  | symm _ ih => exact ih.imp Eq.symm And.symm
  | trans _ _ ih ih' =>
    rcases ih with rfl | apart
    · exact ih'
    · rcases ih' with rfl | apart'
      · exact .inr apart
      · exact .inr ⟨apart.1, apart'.2⟩
  | equal mem =>
    refine .inr ⟨apart _ mem _ ?_, apart _ mem _ ?_⟩ <;> simp [Observation.joins]
  | part _ here there _ =>
    refine .inr ⟨apart _ here _ ?_, apart _ there _ ?_⟩ <;> simp [Observation.joins]

/-! ## Places in listings -/

/-- The offset of a part. -/
def Part.offset : Part → Int64
  | .field offset _ => offset
  | .element offset _ _ => offset

namespace Listing

/-- The type of what a pointer points into. -/
def contentsOf? (l : Listing) (v : VariableEntry) : Option DataType :=
  let contents := do
    let pointer ← l.class? v.holder
    let target ← pointer.dataType.pointerTarget?
    l.class? target
  contents.map (·.dataType)

/-- The type of what a segment holds. -/
def contents? (l : Listing) (segment : String) : Option DataType :=
  (l.vars.find? fun v => v.site = .segment segment).bind l.contentsOf?

/-- The places that are told of a segment are the offsets of its type. -/
lemma map_placesIn (segment : String) (t : DataType) :
    (placesIn segment t).map (·.1) = t.offsets.map (Place.mk segment) := by
  cases t with
  | struct size fields => simp [placesIn, DataType.offsets]
  | _ => rfl

/-- A variable tells of a place if it is the segment of the place and its contents have a part
there. -/
lemma mem_globalFactsOf {l : Listing} {v : VariableEntry} {place : Place} :
    place ∈ (l.globalFactsOf v).map (·.1) ↔ v.site = .segment place.segment ∧
      ∃ t, l.contentsOf? v = some t ∧ place.offset ∈ t.offsets := by
  obtain ⟨segment, offset⟩ := place
  cases site : v.site with
  | segment name =>
    simp only [globalFactsOf, site, contentsOf?]
    generalize (do
      let pointer ← l.class? v.holder
      let target ← pointer.dataType.pointerTarget?
      l.class? target : Option ClassEntry) = contents
    cases contents with
    | none => simp
    | some entry => simp [map_placesIn, and_comm]
  | _ => simp [globalFactsOf, site]

/-- A listing tells of a place if one of its variables does. -/
lemma mem_globalFacts {l : Listing} {place : Place} :
    place ∈ l.globalFacts.map (·.1) ↔ ∃ v ∈ l.vars, v.site = .segment place.segment ∧
      ∃ t, l.contentsOf? v = some t ∧ place.offset ∈ t.offsets := by
  rw [globalFacts, List.map_flatMap, List.mem_flatMap]
  simp only [mem_globalFactsOf]

end Listing

namespace Analysis.Lists

variable {config : Config} {function segment : String} {a c d : Arena} {log : List Constraint}
  {remarks : List Remark} {script : Script} {obs : List Observation} {ν : Naming}

/-- A segment has one variable, so it is found wherever it is listed. -/
lemma find?_segment (lists : Lists config a log c d remarks) (ga : script.Gathers a)
    (ac : script.Accounts obs ν) {entry : VariableEntry}
    (mem : entry ∈ (Listing.ofArena function d remarks).vars) (site : entry.site = .segment segment) :
    ((Listing.ofArena function d remarks).vars.find? fun v => v.site = .segment segment) =
      some entry := by
  have unique : ∀ {v found}, d.var? v = some found → found.site = .segment segment →
      ν (.segment segment) = some v := by
    intro v found here site
    rw [← ac.segment_iff, ← lists.sites ga, Arena.getElem?_sites, here, Option.map_some, site]
  cases first : (Listing.ofArena function d remarks).vars.find? fun v =>
      v.site = .segment segment with
  | none => exact absurd (decide_eq_true site) (List.find?_eq_none.1 first _ mem)
  | some other =>
    obtain ⟨v, found, here, rfl⟩ := Listing.mem_vars_ofArena mem
    obtain ⟨w, found', here', rfl⟩ := Listing.mem_vars_ofArena (List.mem_of_find?_eq_some first)
    have matching := List.find?_some first
    have site' : found'.site = .segment segment := of_decide_eq_true matching
    cases (unique here site).symm.trans (unique here' site')
    cases here.symm.trans here'
    rfl

/-- The places that a listing tells of are the offsets of the contents of segments. -/
lemma mem_globalFacts_iff (lists : Lists config a log c d remarks) (ga : script.Gathers a)
    (ac : script.Accounts obs ν) {place : Place} :
    place ∈ (Listing.ofArena function d remarks).globalFacts.map (·.1) ↔
      ∃ t, (Listing.ofArena function d remarks).contents? place.segment = some t ∧
        place.offset ∈ t.offsets := by
  rw [Listing.mem_globalFacts, Listing.contents?]
  constructor
  · rintro ⟨v, mem, site, told⟩
    rw [lists.find?_segment ga ac mem site]
    exact told
  · rintro ⟨t, found, mem⟩
    obtain ⟨v, first, contents⟩ := Option.bind_eq_some_iff.1 found
    have matching := List.find?_some first
    exact ⟨v, List.mem_of_find?_eq_some first, of_decide_eq_true matching, t, contents, mem⟩

end Analysis.Lists

/-! ## Contents of segments -/

/-- A type of pointers leads into the class that it points to. -/
lemma Inquiry.pointerTarget?_valueType {config : Config} {evidence : Evidence} {target : ClassId}
    {seen : Sighting} {v : VarId} (pointer : evidence.pointer = some (seen, v)) :
    (valueType config evidence target).pointerTarget? = some target := by
  rw [valueType, pointer]
  simp only [pointerVerdict]
  split
  · split <;> rfl
  · rfl

namespace Analysis.Lists

variable {config : Config} {function segment : String} {a c d : Arena} {log : List Constraint}
  {remarks : List Remark} {script : Script} {obs : List Observation} {ν : Naming}

section
variable (lists : Lists config a log c d remarks) (ga : script.Gathers a)
  (ac : script.Accounts obs ν) {k : Value} {x t : VarId}

include lists ga ac

/-- What a segment holds is not called. -/
lemma uncalled (apart : SegmentsApart obs) (name : ν (.segment segment) = some x)
    (points : script.States x (.pointsTo t)) :
    ∀ constraint ∈ c.evidence log (c.forest.leaderOf t.index), constraint.fact.callSite? = none := by
  intro constraint mem
  cases called : constraint.fact.callSite? with
  | none => rfl
  | some site =>
    have call : constraint.fact = .callSite site := by
      cases fact : constraint.fact <;> rw [fact] at called <;> cases called
      rfl
    obtain ⟨y, cong, states⟩ := (lists.evidence_iff ga (ac.lt_of_pointsTo ga points)).1
      ⟨constraint, mem, call⟩
    -- the pointer that the call goes through would be joined with the segment
    obtain ⟨p, q, name', points', code⟩ := (ac.explains states).called rfl
    obtain ⟨b, k, l, st, st', joined⟩ := ac.joined_of_congruent ga cong
    have left := (ac.stands_unique (.pointee name points) st).2
    have right := (ac.stands_unique st' (.pointee name' points')).2
    rcases (left.trans (joined.trans right)).eq_or_not_segment apart with rfl | ⟨other, _⟩
    · cases code
    · cases other

/-- The first target of a pointer is in the class of all of its targets. -/
lemma pointer_eq (name : ν k = some x) (points : script.States x (.pointsTo t)) :
    ∃ seen u, (Evidence.gather (c.evidence log (c.forest.leaderOf x.index))).pointer =
      some (seen, u) ∧ c.forest.leaderOf u.index = c.forest.leaderOf t.index := by
  have lt := ac.lt_of_named ga name
  have co := lists.sorted.coherent
  have some : (Evidence.gather (c.evidence log (c.forest.leaderOf x.index))).pointer.isSome := by
    obtain ⟨constraint, mem, e⟩ := (lists.evidence_iff ga lt).2
      ⟨x, .same (ga.sameClass_iff.2 ⟨lt, lt, .refl x⟩), points⟩
    rw [Evidence.gather, List.findSome?_isSome_iff]
    exact ⟨constraint, mem, by rw [e]; rfl⟩
  obtain ⟨⟨seen, u⟩, first⟩ := Option.isSome_iff_exists.1 some
  refine ⟨seen, u, first, ?_⟩
  obtain ⟨constraint, mem, e⟩ := List.exists_of_findSome?_eq_some first
  obtain ⟨w, target, e⟩ := Option.map_eq_some_iff.1 e
  cases e
  obtain ⟨y, cong, states⟩ := (lists.evidence_iff ga lt).1
    ⟨constraint, mem, Fact.target?_eq_some.1 target⟩
  have forced : a.Congruent t u :=
    .force cong (ga.holds_iff.2 points) (ga.holds_iff.2 states) .targets
  obtain ⟨_, _, leads⟩ := co.sameClass_iff.1 ((lists.congruent _ _).2 forced)
  exact leads.symm

variable (function)

omit ac in
/-- The type of a class tells of every access to its variables, if it is not called. -/
lemma class?_laysOut (lt : t.index < a.size)
    (data : ∀ constraint ∈ c.evidence log (c.forest.leaderOf t.index),
      constraint.fact.callSite? = none) :
    ∃ entry, (Listing.ofArena function d remarks).class? ⟨c.forest.leaderOf t.index⟩ =
      some entry ∧ ∀ part y, script.States t (Part.fact part y) →
        entry.dataType.LaysOut config part.offset := by
  obtain ⟨entry, u, listed, type, entails⟩ := lists.class?_eq lt
  refine ⟨entry, listed, fun part y states => ?_⟩
  obtain ⟨constraint, mem, e⟩ := (lists.evidence_iff ga lt).2
    ⟨t, .same (ga.sameClass_iff.2 ⟨lt, lt, .refl t⟩), states⟩
  have accessed : constraint.fact.offset? = some part.offset := by
    rw [e]
    cases part <;> rfl
  rw [type]
  exact (entails.parts data constraint mem accessed).mapClasses _

/-- The entry of a segment's variable names the class of that variable. -/
lemma exists_segment (name : ν (.segment segment) = some x) :
    ∃ entry, ((Listing.ofArena function d remarks).vars.find? fun v =>
      v.site = .segment segment) = some entry ∧ entry.holder = ⟨c.forest.leaderOf x.index⟩ := by
  have used := ac.segment_iff.2 name
  rw [← lists.sites ga, Arena.getElem?_sites] at used
  obtain ⟨found, here, site⟩ := Option.map_eq_some_iff.1 used
  have listed : Listing.variableEntry d found ∈ (Listing.ofArena function d remarks).vars :=
    List.mem_map_of_mem (Array.mem_toList_iff.2 (Array.mem_of_getElem? here))
  refine ⟨_, lists.find?_segment ga ac listed site, ?_⟩
  have lt : x.index < d.size := (Array.getElem?_eq_some_iff.1 here).1
  have id := (lists.bounded.of_store lists.retouches.store).id here
  rw [Listing.variableEntry, id, Listing.liveClass_eq lists.coherent (c := ⟨x.index⟩) lt,
    lists.leaderOf]

/-- The type of what a segment holds tells of every access, unless equal fields were collapsed. -/
lemma contents_laysOut (apart : SegmentsApart obs) (name : ν (.segment segment) = some x)
    (points : script.States x (.pointsTo t)) :
    ∃ u, (Listing.ofArena function d remarks).contents? segment = some u ∧
      ∀ part y, script.States t (Part.fact part y) → u.LaysOut config part.offset := by
  have lt := ac.lt_of_named ga name
  -- from the segment to the class of its pointer, and on to the class that it points into
  obtain ⟨entry, first, holder⟩ := lists.exists_segment function ga ac name
  obtain ⟨target, type, into⟩ := lists.typeOf?_eq lt (lists.isPointee?_eq ga ac name)
  obtain ⟨seen, u, pointer, leads⟩ := lists.pointer_eq ga ac name points
  rw [Listing.typeOf?, lists.classOf?_eq lt, Option.bind_some] at type
  obtain ⟨pointerEntry, listed, type⟩ := Option.map_eq_some_iff.1 type
  obtain ⟨contents, listed', laid⟩ := lists.class?_laysOut function ga (ac.lt_of_pointsTo ga points)
    (lists.uncalled ga ac apart name points)
  refine ⟨contents.dataType, ?_, laid⟩
  have pointed : pointerEntry.dataType.pointerTarget? = some ⟨c.forest.leaderOf t.index⟩ := by
    rw [type, Inquiry.pointerTarget?_valueType pointer, into pointer, leads]
  rw [Listing.contents?, first, Option.bind_some, Listing.contentsOf?, holder, listed]
  simp [pointed, listed']

end

end Analysis.Lists

end TypeRecovery
