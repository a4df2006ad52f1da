import Mathlib.Order.Bounds.Defs
import TypeRecovery.Proofs.Chronology
import TypeRecovery.Proofs.Resolution.Order
import TypeRecovery.Proofs.StorageTypes

/-!
# The precedence of evidence

The type of a class of values is read off a table (`Tabulated`), in which pointers come before
widths, widths before booleans, and booleans before counting. A verdict looks only at the first
evidence of each kind. As the evidence of a class is in the order of the trace, this is the earliest
one, and as the arena is closed, all targets of a pointer are in the class of the first one. The
remarks on conflicts and on strides are left by the same verdict, once (`value_precedence`).
-/

namespace TypeRecovery

/-! ## Kinds of facts -/

namespace Fact

/-- Whether the subject points somewhere. -/
def isPointer (fact : Fact) : Bool :=
  fact.target?.isSome

/-- Whether the fact tells the width of a scalar. -/
def hasWidth (fact : Fact) : Bool :=
  fact.scalarWidth?.isSome

/-- Whether the subject is a truth value. -/
def isBoolean (fact : Fact) : Bool :=
  fact = .boolean

/-- Whether the subject is counted with or put in order. -/
def isCount : Fact → Bool
  | .counter | .step _ | .ordered _ => true
  | _ => false

/-- Whether the subject is advanced by more than one byte at a time. -/
def isStride : Fact → Bool
  | .step n => decide (1 < n.toInt.natAbs)
  | _ => false

/-- A stride is a step by more than one byte. -/
lemma isStride_iff {fact : Fact} :
    fact.isStride = true ↔ ∃ n, fact.step? = some n ∧ decide (1 < n.toInt.natAbs) = true := by
  cases fact <;> simp [isStride, step?]

/-- Strong evidence for a scalar tells a width. -/
lemma hasWidth_of_isStrongScalar {fact : Fact} (strong : fact.isStrongScalar = true) :
    fact.hasWidth = true := by
  cases fact <;> cases strong <;> rfl

/-- Strong evidence for a scalar tells of no pointer. -/
lemma isPointer_of_isStrongScalar {fact : Fact} (strong : fact.isStrongScalar = true) :
    fact.isPointer = false := by
  cases fact <;> cases strong <;> rfl

/-- The sign that the fact takes its subject to have. -/
def vote? : Fact → Option Signedness
  | .ordered true => some .signed
  | .ordered false => some .unsigned
  | .bitwise _ => some .unsigned
  | _ => none

end Fact

/-! ## The table -/

namespace Precedence

section
variable (constraints : List Constraint)

/-- There is evidence of the kind. -/
def Shows (kind : Fact → Bool) : Prop :=
  ∃ c ∈ constraints, kind c.fact = true

instance (kind : Fact → Bool) : Decidable (Shows constraints kind) :=
  inferInstanceAs (Decidable (∃ c ∈ constraints, kind c.fact = true))

/-- Evidence of the first kind came before all evidence of the other kind. -/
def Leads (first other : Fact → Bool) : Prop :=
  ∃ c ∈ constraints, first c.fact = true ∧ ∀ d ∈ constraints, other d.fact = true → c.seq < d.seq

/-- The positions of the evidence of a kind. -/
def positions (kind : Fact → Bool) : Set Nat :=
  {p | ∃ c ∈ constraints, kind c.fact = true ∧ c.position = p}

/-- Pointers point into the class, all of them. -/
def PointsInto (classOf : VarId → Option ClassId) (t : ClassId) : Prop :=
  Shows constraints Fact.isPointer ∧
    ∀ c ∈ constraints, ∀ v, c.fact = .pointsTo v → classOf v = some t

/-- The greatest width. -/
def Widest (w : UInt8) : Prop :=
  (∃ c ∈ constraints, c.fact.scalarWidth? = some w) ∧
    ∀ c ∈ constraints, ∀ u, c.fact.scalarWidth? = some u → u ≤ w

/-- There are votes for the sign, and none for another one. -/
def Unanimous (s : Signedness) : Prop :=
  (∃ c ∈ constraints, c.fact.vote? = some s) ∧
    ∀ c ∈ constraints, ∀ side, c.fact.vote? = some side → side = s

/-- The sign that all votes are for, or the unknown one. -/
def Signs (s : Signedness) : Prop :=
  (s = .signed ↔ Unanimous constraints .signed) ∧ (s = .unsigned ↔ Unanimous constraints .unsigned)

end

/-- The type of a value, by the evidence on it. -/
inductive Tabulated (config : Config) (classOf : VarId → Option ClassId)
    (constraints : List Constraint) : DataType → Prop
  | pointer {t} : PointsInto constraints classOf t → ¬ Shows constraints Fact.isStrongScalar →
    Tabulated config classOf constraints (.pointer t)
  | scalarFirst {t w s} : PointsInto constraints classOf t →
    Leads constraints Fact.isStrongScalar Fact.isPointer → Widest constraints w →
    Signs constraints s →
    Tabulated config classOf constraints (.union [.integer w s, .pointer t])
  | pointerFirst {t w s} : PointsInto constraints classOf t →
    Shows constraints Fact.isStrongScalar →
    Leads constraints Fact.isPointer Fact.isStrongScalar → Widest constraints w →
    Signs constraints s →
    Tabulated config classOf constraints (.union [.pointer t, .integer w s])
  | integer {w s} : ¬ Shows constraints Fact.isPointer → Widest constraints w →
    Signs constraints s → Tabulated config classOf constraints (.integer w s)
  | boolean : ¬ Shows constraints Fact.isPointer → ¬ Shows constraints Fact.hasWidth →
    Shows constraints Fact.isBoolean → Tabulated config classOf constraints .boolean
  | word {s} : ¬ Shows constraints Fact.isPointer → ¬ Shows constraints Fact.hasWidth →
    ¬ Shows constraints Fact.isBoolean → Shows constraints Fact.isCount → Signs constraints s →
    Tabulated config classOf constraints (.integer config.wordWidth s)
  | void : ¬ Shows constraints Fact.isPointer → ¬ Shows constraints Fact.hasWidth →
    ¬ Shows constraints Fact.isBoolean → ¬ Shows constraints Fact.isCount →
    Tabulated config classOf constraints .void

/-! ## What the evidence says of each kind -/

section
variable {constraints : List Constraint}

/-- What is gathered from the evidence is told by one of its facts. -/
lemma mem_gathered {α : Type} {f : Fact → Option α} {x : α} :
    x ∈ (constraints.map (·.fact)).filterMap f ↔ ∃ c ∈ constraints, f c.fact = some x := by
  simp

/-- The gathered width is the greatest one. -/
lemma widest_of_width {w : UInt8} (width : (Evidence.gather constraints).width = some w) :
    Widest constraints w := by
  obtain ⟨mem, greatest⟩ := List.max?_eq_some_iff.1 width
  refine ⟨mem_gathered.1 mem, fun c inside u here => ?_⟩
  exact greatest u (mem_gathered.2 ⟨c, inside, here⟩)

/-- No width is gathered if no evidence tells one. -/
lemma width_eq_none :
    (Evidence.gather constraints).width = none ↔ ¬ Shows constraints Fact.hasWidth := by
  simp [Evidence.gather, Shows, Fact.hasWidth, List.max?_eq_none_iff]

/-- A boolean is gathered if some evidence tells of one. -/
lemma boolean_iff :
    (Evidence.gather constraints).boolean = true ↔ Shows constraints Fact.isBoolean := by
  simp [Evidence.gather, Shows, Fact.isBoolean]

/-- A signed use is gathered if there is a vote for one. -/
lemma signed_iff : (Evidence.gather constraints).signed = true ↔
    ∃ c ∈ constraints, c.fact.vote? = some .signed := by
  have vote : ∀ fact : Fact, fact.votesSigned = true ↔ fact.vote? = some .signed := by
    intro fact
    cases fact with
    | ordered signed => cases signed <;> simp [Fact.votesSigned, Fact.vote?]
    | _ => simp [Fact.votesSigned, Fact.vote?]
  simp [Evidence.gather, vote]

/-- An unsigned use is gathered if there is a vote for one. -/
lemma unsigned_iff : (Evidence.gather constraints).unsigned = true ↔
    ∃ c ∈ constraints, c.fact.vote? = some .unsigned := by
  have vote : ∀ fact : Fact, fact.votesUnsigned = true ↔ fact.vote? = some .unsigned := by
    intro fact
    cases fact with
    | ordered signed => cases signed <;> simp [Fact.votesUnsigned, Fact.vote?]
    | _ => simp [Fact.votesUnsigned, Fact.vote?]
  simp [Evidence.gather, vote]

/-- Votes are for one of two signs. -/
lemma vote_cases {fact : Fact} {s : Signedness} (vote : fact.vote? = some s) :
    s = .signed ∨ s = .unsigned := by
  cases fact with
  | ordered signed => cases signed <;> cases vote <;> simp
  | bitwise => cases vote; exact .inr rfl
  | _ => cases vote

/-- Votes are unanimous if there are some for the one sign and none for the other. -/
lemma unanimous_iff {s other : Signedness} (apart : s ≠ other)
    (sides : ∀ {side}, side = .signed ∨ side = .unsigned → side = s ∨ side = other) :
    Unanimous constraints s ↔ (∃ c ∈ constraints, c.fact.vote? = some s) ∧
      ¬ ∃ c ∈ constraints, c.fact.vote? = some other := by
  refine and_congr_right fun _ => ?_
  constructor
  · rintro all ⟨c, mem, vote⟩
    exact apart (all c mem other vote).symm
  · intro none c mem side vote
    rcases sides (vote_cases vote) with rfl | rfl
    · rfl
    · exact absurd ⟨c, mem, vote⟩ none

/-- The gathered sign is the one that all votes are for. -/
lemma signs_sign : Signs constraints (Evidence.gather constraints).sign := by
  have apart : Signedness.signed ≠ .unsigned := by decide
  rw [Signs, unanimous_iff apart id, unanimous_iff apart.symm Or.symm, ← signed_iff,
    ← unsigned_iff, Evidence.sign]
  cases (Evidence.gather constraints).signed <;> cases (Evidence.gather constraints).unsigned <;>
    simp

/-- Without widths, votes are about order. -/
lemma count_iff (plain : ¬ Shows constraints Fact.hasWidth) :
    ((Evidence.gather constraints).counter || !(Evidence.gather constraints).steps.isEmpty ||
      (Evidence.gather constraints).signed || (Evidence.gather constraints).unsigned) = true ↔
    Shows constraints Fact.isCount := by
  have counter : (Evidence.gather constraints).counter = true ↔
      ∃ c ∈ constraints, c.fact = .counter := by
    simp [Evidence.gather]
  have steps : (!(Evidence.gather constraints).steps.isEmpty) = true ↔
      ∃ c ∈ constraints, c.fact.step?.isSome = true := by
    simp [Evidence.gather, Option.isSome_iff_ne_none]
  simp only [Bool.or_eq_true, counter, steps, signed_iff, unsigned_iff, ← exists_or, ← and_or_left]
  refine exists_congr fun c => and_congr_right fun mem => ?_
  have narrow : c.fact.hasWidth = false := by
    rw [← Bool.not_eq_true]
    exact fun width => plain ⟨c, mem, width⟩
  cases fact : c.fact with
  | ordered signed => cases signed <;> simp [Fact.vote?, Fact.isCount]
  | bitwise w =>
    rw [fact] at narrow
    cases narrow
  | _ => simp [Fact.step?, Fact.vote?, Fact.isCount]

/-- A step is found to be a stride if there is evidence of one. -/
lemma exists_stride_iff :
    (∃ step, ((Evidence.gather constraints).steps.find? fun step =>
      decide (1 < step.toInt.natAbs)) = some step) ↔ Shows constraints Fact.isStride := by
  rw [← Option.isSome_iff_exists, List.find?_isSome]
  constructor
  · rintro ⟨n, mem, large⟩
    obtain ⟨c, inside, step⟩ := mem_gathered.1 mem
    exact ⟨c, inside, Fact.isStride_iff.2 ⟨n, step, large⟩⟩
  · rintro ⟨c, inside, stride⟩
    obtain ⟨n, step, large⟩ := Fact.isStride_iff.1 stride
    exact ⟨n, mem_gathered.2 ⟨c, inside, step⟩, large⟩

/-! ## First evidence -/

/-- The first match in a list that is in order. -/
lemma find?_first {α : Type} {R : α → α → Prop} {l : List α} {p : α → Bool} {x : α}
    (sorted : l.Pairwise R) (found : l.find? p = some x) :
    x ∈ l ∧ p x = true ∧ ∀ y ∈ l, p y = true → y = x ∨ R x y := by
  obtain ⟨holds, before, after, rfl, none⟩ := List.find?_eq_some_iff_append.1 found
  rw [List.pairwise_append, List.pairwise_cons] at sorted
  refine ⟨by simp, holds, fun y mem here => ?_⟩
  rcases List.mem_append.1 mem with mem | mem
  · simpa [here] using none y mem
  · rcases List.mem_cons.1 mem with rfl | mem
    · exact .inl rfl
    · exact .inr (sorted.2.1.1 y mem)

/-- No evidence of a kind is found if there is none. -/
lemma find?_eq_none {kind : Fact → Bool} :
    (constraints.find? fun c => kind c.fact) = none ↔ ¬ Shows constraints kind := by
  simp [Shows]

/-- The first evidence of a kind is at the lowest position. -/
lemma isLeast_iff (ordered : Chronological constraints) {kind : Fact → Bool} {p : Nat} :
    IsLeast (positions constraints kind) p ↔
      ∃ first, (constraints.find? fun c => kind c.fact) = some first ∧ first.position = p := by
  constructor
  · rintro ⟨⟨c, mem, holds, rfl⟩, least⟩
    cases found : constraints.find? fun c => kind c.fact with
    | none => exact absurd ⟨c, mem, holds⟩ (find?_eq_none.1 found)
    | some first =>
      obtain ⟨inside, here, earliest⟩ := find?_first ordered found
      refine ⟨first, rfl, Nat.le_antisymm ?_ (least ⟨first, inside, here, rfl⟩)⟩
      rcases earliest c mem holds with rfl | le
      · exact Nat.le_refl _
      · exact le
  · rintro ⟨first, found, rfl⟩
    obtain ⟨inside, here, earliest⟩ := find?_first ordered found
    refine ⟨⟨first, inside, here, rfl⟩, ?_⟩
    rintro _ ⟨c, mem, holds, rfl⟩
    rcases earliest c mem holds with rfl | le
    · exact Nat.le_refl _
    · exact le

/-- There is a lowest position of a kind of evidence if there is such evidence. -/
lemma exists_isLeast_iff (ordered : Chronological constraints) {kind : Fact → Bool} :
    (∃ p, IsLeast (positions constraints kind) p) ↔ Shows constraints kind := by
  simp only [isLeast_iff ordered]
  cases found : constraints.find? fun c => kind c.fact with
  | none => simp [find?_eq_none.1 found]
  | some first =>
    obtain ⟨inside, here, _⟩ := find?_first ordered found
    exact iff_of_true ⟨_, first, rfl, rfl⟩ ⟨first, inside, here⟩

/-- The gathered pointer is the first one. -/
lemma pointer_gather : (Evidence.gather constraints).pointer =
    (constraints.find? fun c => c.fact.isPointer).bind fun c =>
      c.fact.target?.map fun target => (c.sighting, target) := by
  show constraints.findSome? _ = _
  induction constraints with
  | nil => rfl
  | cons c constraints ih =>
    rw [List.findSome?_cons, List.find?_cons, ih]
    cases target : c.fact.target? <;> simp [Fact.isPointer, target]

/-- The first pointer, with its target. -/
lemma pointer_of_find? {first : Constraint}
    (found : (constraints.find? fun c => c.fact.isPointer) = some first) :
    ∃ v, first.fact = .pointsTo v ∧
      (Evidence.gather constraints).pointer = some (first.sighting, v) := by
  have points := List.find?_some found
  obtain ⟨v, target⟩ := Option.isSome_iff_exists.1 points
  refine ⟨v, Fact.target?_eq_some.1 target, ?_⟩
  rw [pointer_gather, found, Option.bind_some, target, Option.map_some]

/-- The gathered evidence for a scalar is the first one that is strong. -/
lemma strongScalar_gather : (Evidence.gather constraints).strongScalar =
    (constraints.find? fun c => c.fact.isStrongScalar).map Constraint.sighting :=
  rfl

/-! ## Types -/

section
variable {config : Config} {classOf : VarId → Option ClassId} {target : ClassId}

/-- The type of a class without pointers is the one that the table has for it. -/
lemma scalarType_tabulated (plain : ¬ Shows constraints Fact.isPointer) :
    Tabulated config classOf constraints (Inquiry.scalarType config (.gather constraints)) := by
  rw [Inquiry.scalarType, Inquiry.integerType]
  cases width : (Evidence.gather constraints).width with
  | some w => exact .integer plain (widest_of_width width) signs_sign
  | none =>
    have narrow := width_eq_none.1 width
    rw [if_neg (by simp)]
    split
    · rename_i boolean
      exact .boolean plain narrow (boolean_iff.1 boolean)
    · rename_i other
      rw [boolean_iff] at other
      split
      · rename_i count
        exact .word plain narrow other ((count_iff narrow).1 count) signs_sign
      · rename_i idle
        rw [count_iff narrow] at idle
        exact .void plain narrow other idle

/-- The type of a class with pointers is the one that the table has for it. -/
lemma pointerVerdict_tabulated (ordered : constraints.Pairwise fun x y => x.seq < y.seq)
    (into : PointsInto constraints classOf target) {first : Constraint}
    (found : (constraints.find? fun c => c.fact.isPointer) = some first) :
    Tabulated config classOf constraints
      (Inquiry.pointerVerdict config (.gather constraints) first.sighting target) := by
  obtain ⟨inside, points, earliest⟩ := find?_first ordered found
  rw [Inquiry.pointerVerdict, strongScalar_gather]
  cases strong : constraints.find? fun c => c.fact.isStrongScalar with
  | none => exact .pointer into (find?_eq_none.1 strong)
  | some scalar =>
    obtain ⟨mem, rules, foremost⟩ := find?_first ordered strong
    have shows : Shows constraints Fact.isStrongScalar := ⟨scalar, mem, rules⟩
    obtain ⟨w, width⟩ : ∃ w, (Evidence.gather constraints).width = some w := by
      rw [← Option.ne_none_iff_exists', Ne, width_eq_none, not_not]
      exact ⟨scalar, mem, Fact.hasWidth_of_isStrongScalar rules⟩
    have widest := widest_of_width width
    simp only [Option.map_some, Inquiry.integerType, width, Option.getD_some]
    split
    · rename_i lt
      refine .scalarFirst into ⟨scalar, mem, rules, fun d listed pointer => ?_⟩ widest signs_sign
      rcases earliest d listed pointer with rfl | later
      · exact lt
      · exact Nat.lt_trans lt later
    · rename_i ge
      -- no constraint is of both kinds, so the first pointer comes strictly first
      have nodup : (constraints.map (·.seq)).Nodup := List.pairwise_map.2 (ordered.imp Nat.ne_of_lt)
      have apart : first.seq ≠ scalar.seq := by
        intro same
        rw [List.inj_on_of_nodup_map nodup inside mem same,
          Fact.isPointer_of_isStrongScalar rules] at points
        cases points
      have lt : first.seq < scalar.seq := Nat.lt_of_le_of_ne (Nat.not_lt.1 ge) apart
      refine .pointerFirst into shows ⟨first, inside, points, fun d listed other => ?_⟩ widest
        signs_sign
      rcases foremost d listed other with rfl | later
      · exact lt
      · exact Nat.lt_trans lt later

/-- The type of a value is the one that the table has for its evidence. -/
lemma valueType_tabulated (ordered : constraints.Pairwise fun x y => x.seq < y.seq)
    (points : ∀ c ∈ constraints, ∀ v, c.fact = .pointsTo v → classOf v = some target) :
    Tabulated config classOf constraints
      (Inquiry.valueType config (.gather constraints) target) := by
  cases found : constraints.find? fun c => c.fact.isPointer with
  | none =>
    rw [Inquiry.valueType, pointer_gather, found]
    exact scalarType_tabulated (find?_eq_none.1 found)
  | some first =>
    obtain ⟨v, _, pointer⟩ := pointer_of_find? found
    rw [Inquiry.valueType, pointer]
    obtain ⟨inside, here, _⟩ := find?_first ordered found
    exact pointerVerdict_tabulated ordered ⟨⟨first, inside, here⟩, points⟩ found

end

/-! ## Remarks -/

/-- What the verdict on a value remarks. -/
def remarks (c : ClassId) (e : Evidence) : List Remark :=
  match e.pointer with
  | none => []
  | some (seen, _) =>
    ((e.steps.find? fun step => decide (1 < step.toInt.natAbs)).map (.stridedPointer c)).toList ++
      (e.strongScalar.map fun scalar => .kindConflict c scalar.position seen.position).toList

/-- The verdict on a class of values that is never called leaves exactly these remarks. -/
lemma remarks_verdict {config : Config} {c : ClassId} {e : Evidence} (uncalled : e.callSites = [])
    (whole : e.isAggregate = false) {typeOf : VarId → DataType} {classOf : VarId → ClassId} :
    ((Inquiry.verdict config c e).outcome typeOf classOf).2 = remarks c e := by
  rw [Inquiry.verdict, uncalled, whole, remarks]
  cases e.pointer with
  | none => rfl
  | some pointer =>
    obtain ⟨seen, target⟩ := pointer
    show ((Inquiry.pointerType config c e seen target).outcome typeOf classOf).2 = _
    rw [Inquiry.pointerType]
    cases e.steps.find? fun step => decide (1 < step.toInt.natAbs) <;> cases e.strongScalar <;> rfl

variable {c : ClassId}

/-- A conflict is remarked on with the lowest positions of both kinds of evidence. -/
lemma kindConflict_mem_remarks (ordered : Chronological constraints) {x y : Nat} :
    .kindConflict c x y ∈ remarks c (.gather constraints) ↔
      IsLeast (positions constraints Fact.isStrongScalar) x ∧
      IsLeast (positions constraints Fact.isPointer) y := by
  rw [isLeast_iff ordered, isLeast_iff ordered, remarks, strongScalar_gather]
  cases found : constraints.find? fun c => c.fact.isPointer with
  | none =>
    rw [pointer_gather, found]
    simp
  | some first =>
    obtain ⟨v, _, pointer⟩ := pointer_of_find? found
    rw [pointer]
    simp [Constraint.sighting, ← and_assoc]

/-- A stride is remarked on if there is evidence of a pointer and of a stride. -/
lemma stridedPointer_mem_remarks :
    (∃ step, .stridedPointer c step ∈ remarks c (.gather constraints)) ↔
      Shows constraints Fact.isPointer ∧ Shows constraints Fact.isStride := by
  rw [← exists_stride_iff, remarks]
  cases found : constraints.find? fun c => c.fact.isPointer with
  | none =>
    rw [pointer_gather, found]
    simp [find?_eq_none.1 found]
  | some first =>
    obtain ⟨v, _, pointer⟩ := pointer_of_find? found
    have points := List.find?_some found
    have shows : Shows constraints Fact.isPointer :=
      ⟨first, List.mem_of_find?_eq_some found, points⟩
    rw [pointer]
    simp [shows]

end

end Precedence

/-! ## Values in a sorted arena -/

namespace Arena

variable {a : Arena} {log : List Constraint} {idle : List VarId}

/-- Pointees contain values, and values contain nothing. -/
lemma Sorted.acyclic (so : a.Sorted log idle) (c : ClassId) :
    ¬ Relation.TransGen a.Contains c c := by
  have kinds : ∀ {c d}, a.Contains c d →
      a.isPointee? ⟨c.index⟩ = some true ∧ a.isPointee? ⟨d.index⟩ = some false := by
    rintro c d ⟨record, mem, rfl, constraint, inside, ⟨v, _⟩, mentioned, rfl, held⟩
    obtain ⟨logged, leads⟩ := (so.coherent.mem_constraints mem).1 inside
    obtain ⟨lt, leader⟩ := so.coherent.classOf?_eq_some.1 held
    rw [← leads, ← leader, so.leaderOf (so.coherent.subject_lt logged), so.leaderOf lt,
      so.subject logged, Fact.isAboutPointee_of_mentions mentioned]
    exact ⟨rfl, so.mentions logged mentioned⟩
  intro cycle
  obtain ⟨_, first, _⟩ := Relation.TransGen.head'_iff.1 cycle
  obtain ⟨_, _, last⟩ := Relation.TransGen.tail'_iff.1 cycle
  cases (kinds first).1.symm.trans (kinds last).2

/-- A sorted arena without finalized classes and without strides of zero can be resolved. -/
lemma Sorted.resolvable (so : a.Sorted log idle) (uf : a.Unfrozen)
    (strides : ∀ {v access}, a.Holds v (.element access) → access.stride ≠ 0) : a.Resolvable where
  mentions _ mem _ inside _ mentioned :=
    lt_of_isPointee? (so.mentions ((so.coherent.mem_constraints mem).1 inside).1 mentioned)
  strides record mem constraint inside _ element :=
    strides ⟨record, mem, constraint, inside, rfl, Fact.element?_eq_some.1 element⟩
  finalized record mem frozen := absurd frozen (uf record mem)

/-- Where no class has a verdict, none is resolved or finalized. -/
lemma Unjudged.fresh (uj : a.Unjudged) : a.Fresh := by
  intro record mem
  rw [(uj record mem).2]
  split <;> simp

end Arena

namespace Analysis

/-- A remark on a lack of evidence names the variable. -/
lemma unknown?_of_mem_unassigned {a : Arena} {n : Remark} (mem : n ∈ unassigned a) :
    n.unknown? ≠ none := by
  obtain ⟨record, _, e⟩ := List.mem_filterMap.1 mem
  split at e
  · obtain ⟨v, _, rfl⟩ := Option.map_eq_some_iff.1 e
    exact Option.some_ne_none v
  · cases e

namespace Lists

variable {config : Config} {a c d : Arena} {log : List Constraint} {remarks : List Remark}
  {record : ClassRecord}

/-- A class without pointees holds values. -/
lemma isPointee?_eq_false (lists : Lists config a log c d remarks) (live : record ∈ d.liveClasses)
    (values : ∀ v ∈ record.members, d.isPointee? v ≠ some true) :
    c.isPointee? ⟨record.id.index⟩ = some false := by
  have own := lists.coherent.own_mem_members live
  have kinds := (lists.sorted.retouches lists.retouches).separated.kinds
  have kind : d.isPointee? ⟨record.id.index⟩ = some false := by
    rcases kinds record live with pointees | plain
    · exact absurd (pointees _ own) (values _ own)
    · exact plain _ own
  rwa [Arena.isPointee?, Arena.var?, lists.retouches.store] at kind

/-- The types of the classes are a solution. The remarks on a class are those of its verdict, but for
a remark on a lack of evidence. -/
lemma exists_solution (lists : Lists config a log c d remarks)
    (strides : ∀ {v access}, a.Holds v (.element access) → access.stride ≠ 0) :
    ∃ types, c.Solves log config types ∧
      (∀ record ∈ d.liveClasses, record.dataType = some (types record.id)) ∧
      ∀ record ∈ d.liveClasses, ∀ {n : Remark}, n.subject = record.id → n.unknown? = none →
        (n ∈ remarks ↔ n ∈ c.remarksOn log config types record.id) := by
  have co := lists.sorted.coherent
  have res : c.Resolvable := lists.sorted.resolvable lists.unjudged.unfrozen fun holds =>
    strides (lists.collected.holds_iff.2 (co.holds_iff.1 holds))
  have acyclic := lists.sorted.acyclic
  have fresh := lists.unjudged.fresh
  obtain ⟨types, solves⟩ : ∃ types, c.Solves log config types :=
    ⟨_, Arena.solution_solves co res (Arena.wellFounded_contains co acyclic)⟩
  have lives : ∀ record ∈ d.liveClasses, record.id ∈ c.liveIds := by
    intro record live
    rw [← lists.retouches.liveIds co]
    exact List.mem_map_of_mem live
  obtain ⟨notes, b, ran, retouches, rfl, rfl, _⟩ := lists.resolution
  refine ⟨types, solves, fun record live => ?_, fun record live n about known => ?_⟩
  · obtain ⟨z, ranAll, runs⟩ :=
      ResolveM.resolveEach_runs (s := ⟨c, #[]⟩) config co res (fun c live => live) (.refl co)
    -- the resolution that was listed is the run that agrees with the solution
    cases ran.symm.trans (ArenaM.resolveAll_of_ok ranAll)
    have start : ResolveM.Agrees c types ⟨c, #[]⟩ := ResolveM.agrees_start co fresh
    obtain ⟨agrees, _⟩ := runs.agrees co res acyclic solves (fun c live => live) start
    obtain ⟨t, settled⟩ := runs.settled co record.id (lives record live)
    have type := agrees.types record.id (lives record live) settled
    obtain ⟨old, inside, rfl⟩ := Arena.mem_liveClasses_finalizeAll.1 live
    obtain ⟨found, here, judged⟩ := settled
    cases here.symm.trans ((retouches.coherent co).mem_liveClasses.1 inside).1
    rw [← type, ← ResolveM.dataType_of_settled? judged]
    rfl
  · have assigned : n ∉ unassigned b := fun mem => unknown?_of_mem_unassigned mem known
    rw [List.mem_append, or_iff_left assigned,
      (co.remarks_perm res fresh acyclic solves ran).mem_iff, List.mem_flatMap]
    refine ⟨fun ⟨e, live, left⟩ => ?_, fun left => ⟨record.id, lives record live, left⟩⟩
    cases (co.subject_of_remarksOn res live left).symm.trans about
    exact left

/-- The remarks on a class of values are those of its verdict. -/
lemma mem_remarks_value (lists : Lists config a log c d remarks)
    (strides : ∀ {v access}, a.Holds v (.element access) → access.stride ≠ 0)
    (live : record ∈ d.liveClasses) (value : c.isPointee? ⟨record.id.index⟩ = some false)
    {n : Remark} (about : n.subject = record.id) (known : n.unknown? = none) :
    n ∈ remarks ↔ n ∈ Precedence.remarks record.id (.gather record.constraints) := by
  obtain ⟨types, _, _, noted⟩ := lists.exists_solution strides
  obtain ⟨leads, constraints⟩ := lists.records live
  have plain := lists.sorted.isAccess_eq_false value
  rw [leads] at plain
  obtain ⟨uncalled, whole⟩ := Inquiry.isAccess_eq_false_iff.1 plain
  rw [noted record live about known, constraints, ← Precedence.remarks_verdict uncalled whole]
  rfl

/-- Targets of one class are in one class, as the arena is closed. -/
lemma leaderOf_target (lists : Lists config a log c d remarks) {x y : Constraint} {v w : VarId}
    {e : Nat} (memx : x ∈ c.evidence log e) (memy : y ∈ c.evidence log e)
    (points : x.fact = .pointsTo v) (points' : y.fact = .pointsTo w) :
    v.index < c.size ∧ w.index < c.size ∧
      c.forest.leaderOf v.index = c.forest.leaderOf w.index := by
  have co := lists.sorted.coherent
  obtain ⟨loggedx, leadsx⟩ := Arena.mem_evidence.1 memx
  obtain ⟨loggedy, leadsy⟩ := Arena.mem_evidence.1 memy
  have same : c.SameClass x.subject y.subject := co.sameClass_iff.2
    ⟨co.subject_lt loggedx, co.subject_lt loggedy, leadsx.trans leadsy.symm⟩
  rw [← co.sameClass_iff, lists.congruent]
  exact .force ((lists.congruent _ _).1 same)
    (lists.collected.holds_iff.2 ⟨x, loggedx, rfl, points⟩)
    (lists.collected.holds_iff.2 ⟨y, loggedy, rfl, points'⟩) .targets

/-- The type of a class of values is the one that the table has for its evidence. -/
lemma classEntry_tabulated (lists : Lists config a log c d remarks)
    (live : record ∈ d.liveClasses) (value : c.isPointee? ⟨record.id.index⟩ = some false) :
    Precedence.Tabulated config d.classOf? record.constraints
      (Listing.classEntry d record).dataType := by
  have co := lists.sorted.coherent
  obtain ⟨target, type, points⟩ := lists.classEntry_eq live value
  rw [type]
  rw [(lists.records live).2] at points ⊢
  apply Precedence.valueType_tabulated (co.log_ascending.filter _)
  intro constraint mem v points'
  have shows : constraint.fact.isPointer = true := by rw [points']; rfl
  cases found : (c.evidence log record.id.index).find? fun c => c.fact.isPointer with
  | none => exact absurd ⟨constraint, mem, shows⟩ (Precedence.find?_eq_none.1 found)
  | some first =>
    obtain ⟨u, into, pointer⟩ := Precedence.pointer_of_find? found
    obtain ⟨_, lt, same⟩ := lists.leaderOf_target (List.mem_of_find?_eq_some found) mem into points'
    rw [points pointer, same, ← lists.leaderOf]
    exact lists.coherent.classOf?_eq (lists.retouches.size ▸ lt)

end Lists

/-- The type of a class without pointees is the one that the table has for its evidence. A conflict
is remarked on if there is evidence of both kinds, with the lowest position of each, and a stride if
a pointer is advanced by more than one byte at a time. -/
theorem value_precedence {records : List TraceRecord} {t : Trace}
    (ingested : Trace.ingest records = .ok t) {memory : MemoryMap} {config : Config}
    {function : String} {start d : Arena} {l : Listing}
    (ran : run memory config function t start = .ok l d) {record : ClassRecord}
    (live : record ∈ d.liveClasses) (values : ∀ v ∈ record.members, d.isPointee? v ≠ some true) :
    (∃ entry, l.class? record.id = some entry ∧
      Precedence.Tabulated config d.classOf? record.constraints entry.dataType) ∧
    ((∃ x y, .kindConflict record.id x y ∈ l.remarks) ↔
      Precedence.Shows record.constraints Fact.isStrongScalar ∧
      Precedence.Shows record.constraints Fact.isPointer) ∧
    (∀ x y, .kindConflict record.id x y ∈ l.remarks →
      IsLeast (Precedence.positions record.constraints Fact.isStrongScalar) x ∧
      IsLeast (Precedence.positions record.constraints Fact.isPointer) y) ∧
    ((∃ step, .stridedPointer record.id step ∈ l.remarks) ↔
      Precedence.Shows record.constraints Fact.isPointer ∧
      Precedence.Shows record.constraints Fact.isStride) := by
  obtain ⟨s, a, log, c, remarks, script, ν, collected, lists, rfl, ga, ac, _⟩ :=
    collected_of_run ingested ran
  have strides : ∀ {v access}, a.Holds v (.element access) → access.stride ≠ 0 :=
    Trace.stride_ne_zero ingested ga ac
  have value := lists.isPointee?_eq_false live values
  have ordered : Chronological record.constraints := by
    rw [(lists.records live).2]
    exact (Trace.collect_chronological ingested collected lists.collected).filter _
  have noted : ∀ {n : Remark}, n.subject = record.id → n.unknown? = none →
      (n ∈ (Listing.ofArena function d remarks).remarks ↔
        n ∈ Precedence.remarks record.id (.gather record.constraints)) := by
    intro n about known
    rw [mem_remarks_ofArena]
    exact lists.mem_remarks_value strides live value about known
  have conflict : ∀ x y,
      .kindConflict record.id x y ∈ (Listing.ofArena function d remarks).remarks ↔
      IsLeast (Precedence.positions record.constraints Fact.isStrongScalar) x ∧
      IsLeast (Precedence.positions record.constraints Fact.isPointer) y := by
    intro x y
    rw [noted rfl rfl, Precedence.kindConflict_mem_remarks ordered]
  refine ⟨⟨_, Listing.class?_ofArena lists.coherent live, lists.classEntry_tabulated live value⟩,
    ?_, fun x y => (conflict x y).1, ?_⟩
  · simp only [conflict, exists_and_left, exists_and_right, Precedence.exists_isLeast_iff ordered]
  · rw [← Precedence.stridedPointer_mem_remarks]
    exact exists_congr fun step => noted rfl rfl

/-- A pointer is masked like a number, dereferenced, and masked again. -/
def taggedPointer : List TraceRecord :=
  [{ kind := some .bitwise, operands := [.storage "p", .literal 7 8], bitOperator := some .and,
      width := some 8 },
    { kind := some .load, operands := [.storage "p"], width := some 4 },
    { kind := some .bitwise, operands := [.storage "p", .literal 1 4], bitOperator := some .or,
      width := some 4 }]

def taggedPointerTrace : Trace :=
  ⟨[⟨0, 0, .bitwise .and (.storage "p") (.literal 7 8) 8, none⟩,
    ⟨1, 0, .load (.storage "p") 0 4, none⟩,
    ⟨2, 0, .bitwise .or (.storage "p") (.literal 1 4) 4, none⟩]⟩

/-- The tagged pointer is remarked on as a conflict, with the positions of the first mask and of the
load. -/
theorem value_precedence_taggedPointer :
    ∃ l d record, run .empty .lp64 "f" taggedPointerTrace .empty = .ok l d ∧
      record ∈ d.liveClasses ∧
      (∃ entry, l.class? record.id = some entry ∧
        Precedence.Tabulated .lp64 d.classOf? record.constraints entry.dataType) ∧
      ∃ x y, .kindConflict record.id x y ∈ l.remarks ∧
        IsLeast (Precedence.positions record.constraints Fact.isStrongScalar) x ∧
        IsLeast (Precedence.positions record.constraints Fact.isPointer) y := by
  have ingested : Trace.ingest taggedPointer = .ok taggedPointerTrace := rfl
  have success : succeeded (run .empty .lp64 "f" taggedPointerTrace .empty) = true := by
    decide +kernel
  have shown : ∃ record ∈ (finalState (run .empty .lp64 "f" taggedPointerTrace .empty)).liveClasses,
      (∀ v ∈ record.members,
        (finalState (run .empty .lp64 "f" taggedPointerTrace .empty)).isPointee? v ≠ some true) ∧
      Precedence.Shows record.constraints Fact.isStrongScalar ∧
      Precedence.Shows record.constraints Fact.isPointer := by decide +kernel
  obtain ⟨l, d, ran⟩ := exists_of_succeeded success
  rw [ran] at shown
  obtain ⟨record, live, values, shows⟩ := shown
  obtain ⟨typed, conflict, least, _⟩ := value_precedence ingested ran live values
  obtain ⟨x, y, left⟩ := conflict.2 shows
  exact ⟨l, d, record, ran, live, typed, x, y, left, least x y left⟩

end Analysis

end TypeRecovery
