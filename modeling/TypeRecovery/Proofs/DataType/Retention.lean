import TypeRecovery.Proofs.NormalForm

/-!
# What a union keeps

While a union is made of a list of types, its alternatives keep growing: one that took in another type
is itself merged with more of them later. Nothing gets lost that way, and nothing comes up that was not
there. `unionOf_retains` says so: every type that the list includes, in unions at any depth, is
represented by an alternative of the outcome, and every alternative is of a kind that was included.
-/

namespace TypeRecovery.DataType

/-! ## What a type includes -/

/-- A type that is no union includes itself, unless it is `void`, and a union includes what its members
include. -/
inductive Includes : DataType → DataType → Prop
  | itself {x} : x ≠ .void → x.isUnion = false → Includes x x
  | member {ts t x} : t ∈ ts → Includes t x → Includes (.union ts) x

variable {a b c t x y : DataType} {ts : List DataType} {depth : Nat}

/-- Nothing includes `void`. -/
lemma Includes.known (includes : t.Includes x) : x ≠ .void := by
  induction includes with
  | itself known _ => exact known
  | member _ _ ih => exact ih

/-- No union is included. -/
lemma Includes.plain (includes : t.Includes x) : x.isUnion = false := by
  induction includes with
  | itself _ plain => exact plain
  | member _ _ ih => exact ih

/-- What a type includes is among its alternatives. -/
lemma Includes.mem_leaves (includes : t.Includes x) : x ∈ t.leaves := by
  induction includes with
  | itself known plain =>
    rw [leaves_eq_singleton.2 ⟨known, plain⟩]
    exact List.mem_singleton_self _
  | member mem _ ih =>
    rw [leaves, leavesList_eq]
    exact List.mem_flatMap.2 ⟨_, mem, ih⟩

mutual

/-- The alternatives of a type are included in it. -/
lemma includes_of_mem_leaves {t x : DataType} (mem : x ∈ t.leaves) : t.Includes x := by
  cases t with
  | void => cases mem
  | union ts =>
    obtain ⟨t, inside, includes⟩ := includes_of_mem_leavesList mem
    exact .member inside includes
  | _ =>
    cases List.mem_singleton.1 mem
    refine .itself ?_ rfl
    intro void
    cases void
termination_by sizeOf t

/-- The alternatives of a list of types are included in one of them. -/
lemma includes_of_mem_leavesList {ts : List DataType} {x : DataType} (mem : x ∈ leavesList ts) :
    ∃ t ∈ ts, t.Includes x := by
  cases ts with
  | nil => cases mem
  | cons t ts =>
    rcases List.mem_append.1 mem with mem | mem
    · exact ⟨t, List.mem_cons_self, includes_of_mem_leaves mem⟩
    · obtain ⟨u, inside, includes⟩ := includes_of_mem_leavesList mem
      exact ⟨u, List.mem_cons_of_mem t inside, includes⟩
termination_by sizeOf ts

end

/-! ## What represents a type -/

/-- The first type is one that merging can have made of the second one. An integer is as wide or
wider, and takes in booleans; an array still covers the elements; a structure is the same. -/
def Represents : DataType → DataType → Prop
  | .integer w _, .integer w' _ => w' ≤ w
  | .integer .., .boolean => True
  | .boolean, .boolean => True
  | .pointer _, .pointer _ => True
  | .array e _, .array e' _ => e.Covers e'
  | .function .., .function .. => True
  | .struct n fs, .struct n' fs' => n = n' ∧ fs = fs'
  | _, _ => False

/-- A type that covers one that is known and no union represents it. -/
lemma Covers.represents (covers : y.Covers x) (known : x ≠ .void) (plain : x.isUnion = false) :
    y.Represents x := by
  cases covers with
  | void => exact absurd rfl known
  | same =>
    cases x with
    | void => exact known rfl
    | union ts => cases plain
    | integer w s => exact UInt8.le_refl w
    | array e l => exact .same
    | struct n fs => exact ⟨rfl, rfl⟩
    | _ => trivial
  | integer wide => exact wide
  | boolean => trivial
  | pointer => trivial
  | array covers => exact covers
  | function => trivial

/-- What represents a type is known. -/
lemma Represents.known (represents : y.Represents x) : y ≠ .void := by
  rintro rfl
  exact represents

/-- A type can still be merged with what it covers. -/
lemma Covers.isSome_merge? (covers : y.Covers x) : (merge? y x).isSome := by
  rw [← Option.ne_none_iff_isSome, Ne, merge?_eq_none_iff, not_not]
  exact Fits.same.of_covers covers

/-- Collecting alternatives loses none of them: what a merge covers is still covered after more
merges. -/
lemma exists_covers_collect (mem : t ∈ ts) (leaf : x ∈ t.leaves) :
    ∃ y ∈ (domain.collect ts).leaves, y.Covers x := by
  show ∃ y ∈ domain.leaves (domain.collect ts), y.Covers x
  rw [domain.leaves_collect]
  refine Alternatives.exists_mem_insertAll (R := Covers) (fun _ => .same) .trans ?_
    (.inr (List.mem_flatMap.2 ⟨t, mem, leaf⟩))
  exact fun merged => covers_of_merge? merged

/-! ## Kinds -/

/-- A merge makes nothing of a kind that neither of its parts has. -/
lemma kindName_of_mergeWithin (merged : mergeWithin depth a b = some c) :
    c.kindName = a.kindName ∨ c.kindName = b.kindName := by
  rw [mergeWithin.eq_def] at merged
  split at merged
  · cases merged
    exact .inr rfl
  split at merged
  · cases merged
    exact .inl rfl
  split at merged
  · cases merged
    exact .inl rfl
  split at merged
  · cases merged
    exact .inl rfl
  · -- an integer takes in a boolean that came first
    cases merged
    exact .inr rfl
  · cases merged
    exact .inl rfl
  · cases merged
    exact .inl rfl
  · obtain ⟨joined, _, rfl⟩ := Option.map_eq_some_iff.1 merged
    exact .inl rfl
  · split at merged <;> cases merged <;> exact .inl rfl
  · cases merged

/-- The alternatives that were collected have kinds that were there before. -/
lemma exists_kindName_collect (leaf : y ∈ (domain.collect ts).leaves) :
    ∃ x ∈ ts.flatMap leaves, y.kindName = x.kindName := by
  change y ∈ domain.leaves (domain.collect ts) at leaf
  rw [domain.leaves_collect] at leaf
  revert y
  apply Alternatives.forall_mem_insertAll
  · rintro y x z ⟨u, mem, same⟩ ⟨v, mem', same'⟩ merged
    rcases kindName_of_mergeWithin merged with kind | kind
    · exact ⟨u, mem, kind.trans same⟩
    · exact ⟨v, mem', kind.trans same'⟩
  · exact List.forall_mem_nil _
  · exact fun x mem => ⟨x, mem, rfl⟩

/-! ## The union of a list -/

/-- A union is in normal form. -/
lemma normal_unionOf (ts : List DataType) : (unionOf ts).Normal := by
  rw [unionOf_eq_collect]
  exact normal_iff.2 (domain.normal_collect ts)

/-- The alternatives of a union are those that were collected. -/
lemma mem_alternatives_unionOf (known : y ≠ .void) :
    y ∈ (unionOf ts).alternatives ↔ y ∈ (domain.collect ts).leaves := by
  rw [(normal_unionOf ts).alternatives_eq, unionOf_eq_collect]
  split
  · rename_i none
    rw [none, List.mem_singleton]
    exact ⟨fun void => absurd void known, fun mem => by cases mem⟩
  · rfl

/-- What a list includes has an alternative of the union to stand for it. -/
lemma exists_represents_unionOf (mem : t ∈ ts) (includes : t.Includes x) :
    ∃ y ∈ (unionOf ts).alternatives, (merge? y x).isSome ∧ y.Represents x := by
  obtain ⟨y, found, covers⟩ := exists_covers_collect mem includes.mem_leaves
  have represents := covers.represents includes.known includes.plain
  exact ⟨y, (mem_alternatives_unionOf represents.known).2 found, covers.isSome_merge?, represents⟩

/-- Whatever a list of types includes is represented in their union by an alternative that it can still
be merged with, and the union has alternatives of no other kinds; it is `void` if nothing is
included. -/
theorem unionOf_retains (ts : List DataType) :
    (∀ t ∈ ts, ∀ x, t.Includes x →
      ∃ y ∈ (unionOf ts).alternatives, (merge? y x).isSome ∧ y.Represents x) ∧
    (∀ y ∈ (unionOf ts).alternatives, y ≠ .void →
      ∃ t ∈ ts, ∃ x, t.Includes x ∧ y.kindName = x.kindName) ∧
    (unionOf ts = .void ↔ ∀ t ∈ ts, ∀ x, ¬ t.Includes x) := by
  refine ⟨fun t mem x => exists_represents_unionOf mem, ?_, ?_, ?_⟩
  · intro y mem known
    obtain ⟨x, leaf, kind⟩ := exists_kindName_collect ((mem_alternatives_unionOf known).1 mem)
    obtain ⟨t, inside, leaf⟩ := List.mem_flatMap.1 leaf
    exact ⟨t, inside, x, includes_of_mem_leaves leaf, kind⟩
  · intro void t mem x includes
    obtain ⟨y, found, _, represents⟩ := exists_represents_unionOf mem includes
    rw [void] at found
    exact represents.known (List.mem_singleton.1 found)
  · intro none
    have leaves : leavesList ts = [] := by
      rw [List.eq_nil_iff_forall_not_mem]
      intro x mem
      obtain ⟨t, inside, includes⟩ := includes_of_mem_leavesList mem
      exact none t inside x includes
    rw [unionOf, unionWith, leaves]
    rfl

/-- A boolean, an array of booleans or a pointer. -/
def smallUnion : DataType :=
  .union [.boolean, .union [.array .boolean (some 4), .pointer ⟨1⟩]]

/-- Types that take in what a union includes, one after the other. -/
def growingTypes : List DataType :=
  [smallUnion, .integer 2 .signed, .void, .array (word 4) none, .integer 8 .unsigned]

/-- The array of booleans that the small union includes is represented by the array of words. -/
theorem unionOf_retains_growingTypes :
    (smallUnion ∈ growingTypes ∧ smallUnion.Includes (.array .boolean (some 4))) ∧
      unionOf growingTypes =
        .union [.integer 8 .unknown, .array (word 4) none, .pointer ⟨1⟩] ∧
      ∃ y ∈ (unionOf growingTypes).alternatives,
        (merge? y (.array .boolean (some 4))).isSome ∧ y.Represents (.array .boolean (some 4)) := by
  have mem : smallUnion ∈ growingTypes := List.mem_cons_self
  have includes : smallUnion.Includes (.array .boolean (some 4)) := by
    apply includes_of_mem_leaves
    decide +kernel
  exact ⟨⟨mem, includes⟩, by decide +kernel, (unionOf_retains growingTypes).1 _ mem _ includes⟩

end TypeRecovery.DataType
