import Mathlib.Data.List.Induction
import TypeRecovery.Proofs.DataType.Cover
import TypeRecovery.Proofs.Shape.Erasure

/-!
# Normal forms of unions

Types and shapes both flatten the unions that they are joined from and insert the alternatives one
by one. A domain is what they have in common. Its laws give for both that collected alternatives are
in normal form, that a normal form is collected to itself (`unions_normal`), and that collecting
values two by two from the left is collecting them at once (`Domain.foldl_collect`). For types, the
order of two normal forms matters for the order of the alternatives only (`join_comm_shapes`).
-/

namespace TypeRecovery

/-! ## Domains of alternatives -/

namespace Alternatives

/-- Values that stand for alternatives: for none, for themselves, or for those of a union. -/
structure Domain (α : Type) where
  none : α
  union : List α → α
  leaves : α → List α
  merge : α → α → Option α
  leaves_none : leaves none = []
  leaves_union : ∀ ts, leaves (union ts) = ts.flatMap leaves
  /-- An alternative stands for itself alone. -/
  alone : ∀ {t x}, x ∈ leaves t → leaves x = [x]
  closed : ∀ {x y z}, leaves x = [x] → leaves y = [y] → merge x y = some z → leaves z = [z]
  lawful : Lawful merge

namespace Domain

variable {α : Type} {dom : Domain α} {t u x : α} {ts xs : List α}

/-- The value with the given alternatives. -/
def ofLeaves (dom : Domain α) : List α → α
  | [] => dom.none
  | [x] => x
  | xs => dom.union xs

/-- The value of all the alternatives that some values stand for. -/
def collect (dom : Domain α) (ts : List α) : α :=
  dom.ofLeaves (insertAll dom.merge [] (ts.flatMap dom.leaves))

/-- The value has no alternative, one, or several that exclude each other. -/
inductive Normal (dom : Domain α) : α → Prop
  | none : Normal dom dom.none
  | single {x : α} : dom.leaves x = [x] → Normal dom x
  | union {xs : List α} : 2 ≤ xs.length → (∀ x ∈ xs, dom.leaves x = [x]) →
    Exclusive dom.merge xs → Normal dom (dom.union xs)

/-- Alternatives that stand for themselves are their own alternatives. -/
lemma flatMap_leaves (alone : ∀ x ∈ xs, dom.leaves x = [x]) : xs.flatMap dom.leaves = xs := by
  induction xs with
  | nil => rfl
  | cons x xs ih =>
    rw [List.forall_mem_cons] at alone
    rw [List.flatMap_cons, alone.1, ih alone.2, List.singleton_append]

/-- Several alternatives make a union. -/
lemma ofLeaves_of_several (several : 2 ≤ xs.length) : dom.ofLeaves xs = dom.union xs := by
  match xs with
  | [] => cases several
  | [x] => exact absurd several (Nat.not_succ_le_self 1)
  | _ :: _ :: _ => rfl

/-- The value of some alternatives has these alternatives. -/
lemma leaves_ofLeaves (alone : ∀ x ∈ xs, dom.leaves x = [x]) :
    dom.leaves (dom.ofLeaves xs) = xs := by
  match xs with
  | [] => exact dom.leaves_none
  | [x] => exact alone x (List.mem_singleton_self x)
  | x :: y :: xs => exact (dom.leaves_union _).trans (flatMap_leaves alone)

/-- The value of alternatives that exclude each other is in normal form. -/
lemma normal_ofLeaves (alone : ∀ x ∈ xs, dom.leaves x = [x]) (ex : Exclusive dom.merge xs) :
    dom.Normal (dom.ofLeaves xs) := by
  match xs with
  | [] => exact .none
  | [x] => exact .single (alone x (List.mem_singleton_self x))
  | x :: y :: xs => exact .union (Nat.le_add_left 2 xs.length) alone ex

/-- A normal form is the value of its alternatives. -/
lemma Normal.ofLeaves_leaves (normal : dom.Normal t) : dom.ofLeaves (dom.leaves t) = t := by
  cases normal with
  | none => rw [dom.leaves_none, ofLeaves]
  | single alone => rw [alone, ofLeaves]
  | union several alone =>
    rw [dom.leaves_union, flatMap_leaves alone, ofLeaves_of_several several]

/-- The alternatives of a normal form exclude each other. -/
lemma Normal.exclusive (normal : dom.Normal t) : Exclusive dom.merge (dom.leaves t) := by
  cases normal with
  | none =>
    rw [dom.leaves_none]
    exact .nil
  | single alone =>
    rw [alone]
    exact List.pairwise_singleton _ _
  | union _ alone ex => rwa [dom.leaves_union, flatMap_leaves alone]

/-! ### Collecting alternatives -/

/-- What is collected stands for itself. -/
lemma alone_of_mem_insertAll (dom : Domain α) (ts : List α) :
    ∀ x ∈ insertAll dom.merge [] (ts.flatMap dom.leaves), dom.leaves x = [x] := by
  apply forall_mem_insertAll dom.closed (List.forall_mem_nil _)
  intro x mem
  obtain ⟨t, _, mem⟩ := List.mem_flatMap.1 mem
  exact dom.alone mem

/-- A collected value has the alternatives that were inserted. -/
lemma leaves_collect (dom : Domain α) (ts : List α) :
    dom.leaves (dom.collect ts) = insertAll dom.merge [] (ts.flatMap dom.leaves) :=
  leaves_ofLeaves (dom.alone_of_mem_insertAll ts)

/-- What is collected is in normal form. -/
lemma normal_collect (dom : Domain α) (ts : List α) : dom.Normal (dom.collect ts) :=
  normal_ofLeaves (dom.alone_of_mem_insertAll ts) (@Exclusive.insertAll _ _ [] .nil dom.lawful _)

/-- A normal form is known by its alternatives. -/
lemma Normal.eq_of_leaves (normal : dom.Normal t) (normal' : dom.Normal u)
    (same : dom.leaves t = dom.leaves u) : t = u := by
  rw [← normal.ofLeaves_leaves, same, normal'.ofLeaves_leaves]

/-- Inserting the alternatives of a normal form merges none of them. -/
lemma Normal.insertAll_leaves (normal : dom.Normal t) :
    insertAll dom.merge [] (dom.leaves t) = dom.leaves t :=
  @Exclusive.insertAll_append _ _ [] _ normal.exclusive

/-- Whatever stands for the alternatives of a normal form is collected to it. -/
lemma Normal.collect_eq (normal : dom.Normal t) (same : ts.flatMap dom.leaves = dom.leaves t) :
    dom.collect ts = t := by
  apply (dom.normal_collect ts).eq_of_leaves normal
  rw [leaves_collect, same, normal.insertAll_leaves]

/-- The alternatives of a second value are inserted into those of a normal form. -/
lemma Normal.leaves_collect_pair (normal : dom.Normal t) (u : α) :
    dom.leaves (dom.collect [t, u]) = insertAll dom.merge (dom.leaves t) (dom.leaves u) := by
  rw [leaves_collect, List.flatMap_cons, List.flatMap_singleton, insertAll_append,
    normal.insertAll_leaves]

/-- A normal form that is collected twice is itself. -/
lemma Normal.collect_pair_self (normal : dom.Normal t) : dom.collect [t, t] = t := by
  apply (dom.normal_collect [t, t]).eq_of_leaves normal
  rw [normal.leaves_collect_pair]
  exact normal.exclusive.insertAll_eq_self dom.lawful fun x mem => mem

/-- Nothing before a normal form adds nothing to it. -/
lemma Normal.collect_none_left (normal : dom.Normal t) : dom.collect [dom.none, t] = t := by
  apply normal.collect_eq
  rw [List.flatMap_cons, dom.leaves_none, List.nil_append, List.flatMap_singleton]

/-- Nothing behind a normal form adds nothing to it. -/
lemma Normal.collect_none_right (normal : dom.Normal t) : dom.collect [t, dom.none] = t := by
  apply normal.collect_eq
  rw [List.flatMap_cons, List.flatMap_singleton, dom.leaves_none, List.append_nil]

/-- Collecting values two by two, from the left, is collecting them at once. -/
lemma foldl_collect (dom : Domain α) (ts : List α) :
    ts.foldl (fun t u => dom.collect [t, u]) dom.none = dom.collect ts := by
  induction ts using List.reverseRecOn with
  | nil => rfl
  | append_singleton ts t ih =>
    rw [List.foldl_append, ih, List.foldl_cons, List.foldl_nil]
    apply (dom.normal_collect _).eq_of_leaves (dom.normal_collect _)
    rw [(dom.normal_collect ts).leaves_collect_pair, leaves_collect, leaves_collect,
      List.flatMap_append, List.flatMap_singleton, insertAll_append]

/-- Of two normal forms it does not matter which one is collected first, but for the order of the
alternatives, if it does not matter in which order two of them are merged. -/
lemma Normal.collect_swap {β : Type} {f : α → β} (normal : dom.Normal t)
    (normal' : dom.Normal u)
    (alike : ∀ {x y z w}, dom.merge x y = some z → dom.merge y x = some w → f z = f w) :
    ((dom.leaves (dom.collect [t, u])).map f).Perm ((dom.leaves (dom.collect [u, t])).map f) := by
  rw [normal.leaves_collect_pair, normal'.leaves_collect_pair]
  exact Exclusive.insertAll_swap dom.lawful alike normal.exclusive normal'.exclusive

end Domain

end Alternatives

/-! ## Types -/

namespace DataType

variable {a b c t : DataType}

/-- The alternatives of a type: the members of a union, and any other type alone. -/
def alternatives : DataType → List DataType
  | .union ts => ts
  | t => [t]

/-- The type is not a union, or it is a union of several alternatives of which none is `void` or a
union and no two can be merged. -/
def Normal : DataType → Prop
  | .union ts => 2 ≤ ts.length ∧ (∀ t ∈ ts, t ≠ .void ∧ t.isUnion = false) ∧
    Alternatives.Exclusive merge? ts
  | _ => True

instance : DecidablePred Normal
  | .union _ => inferInstanceAs (Decidable (_ ∧ _))
  | .void | .boolean | .integer .. | .pointer _ | .array .. | .struct .. | .function .. =>
    inferInstanceAs (Decidable True)

/-- The alternatives of a list of types are those of its members, one after the other. -/
lemma leavesList_eq (ts : List DataType) : leavesList ts = ts.flatMap leaves := by
  induction ts with
  | nil => rfl
  | cons t ts ih => rw [leavesList, ih, List.flatMap_cons]

/-- A type that stands for itself has a shape that does so. -/
lemma single_of_leaves (alone : t.leaves = [t]) : Shape.Single (.ofType t) :=
  Shape.single_of_mem_leaves (alone ▸ List.mem_singleton_self t)

/-- A type stands for itself unless it is `void` or a union. -/
lemma leaves_eq_singleton : t.leaves = [t] ↔ t ≠ .void ∧ t.isUnion = false := by
  refine ⟨fun alone => ?_, fun plain => ?_⟩
  · have single := single_of_leaves alone
    cases t with
    | void => exact absurd rfl single.1
    | union ts => cases single.2
    | _ => exact ⟨nofun, rfl⟩
  · exact Shape.leaves_of_single (Shape.single_of_plain plain.2 plain.1)

/-- Types as values that stand for alternatives. -/
def domain : Alternatives.Domain DataType where
  none := .void
  union := .union
  leaves := leaves
  merge := merge?
  leaves_none := rfl
  leaves_union := leavesList_eq
  alone mem := Shape.leaves_of_single (Shape.single_of_mem_leaves mem)
  closed first last merged :=
    Shape.leaves_of_single (Shape.single_of_merge? (single_of_leaves first) (single_of_leaves last)
      (Shape.merge?_ofType merged))
  lawful := merge?_lawful

/-- What is no union is in normal form. -/
lemma normal_of_plain (plain : t.isUnion = false) : t.Normal := by
  cases t with
  | union ts => cases plain
  | _ => trivial

/-- A type is in normal form if it is so as a value that stands for alternatives. -/
lemma normal_iff : t.Normal ↔ domain.Normal t := by
  refine ⟨fun normal => ?_, fun normal => ?_⟩
  · cases t with
    | void => exact .none
    | union ts =>
      obtain ⟨several, plain, exclusive⟩ := normal
      exact .union several (fun t mem => leaves_eq_singleton.2 (plain t mem)) exclusive
    | _ => exact .single rfl
  · cases normal with
    | none => trivial
    | single alone => exact normal_of_plain (leaves_eq_singleton.1 alone).2
    | union several alone exclusive =>
      exact ⟨several, fun t mem => leaves_eq_singleton.1 (alone t mem), exclusive⟩

/-- The type of some alternatives is their value. -/
lemma ofAlternatives_eq : ∀ ts : List DataType, ofAlternatives ts = domain.ofLeaves ts
  | [] => rfl
  | [_] => rfl
  | _ :: _ :: _ => rfl

/-- The union of a list of types collects their alternatives. -/
lemma unionOf_eq_collect (ts : List DataType) : unionOf ts = domain.collect ts := by
  rw [unionOf, unionWith, leavesList_eq, ofAlternatives_eq]
  rfl

/-- A merge of two types that are no unions is no union. -/
lemma isUnion_of_merge? (first : a.isUnion = false) (last : b.isUnion = false)
    (merged : merge? a b = some c) : c.isUnion = false := by
  by_cases left : a = .void
  · rw [left, merge?_void_left] at merged
    cases merged
    exact last
  by_cases right : b = .void
  · rw [right, merge?_void_right] at merged
    cases merged
    exact first
  have whole := domain.closed (leaves_eq_singleton.2 ⟨left, first⟩)
    (leaves_eq_singleton.2 ⟨right, last⟩) merged
  exact (leaves_eq_singleton.1 whole).2

/-- Joining two types directly, where no union is needed, gives what their union would be. -/
lemma join_eq_collect (a b : DataType) : a.join b = domain.collect [a, b] := by
  rw [join, joinWith]
  split
  · exact unionOf_eq_collect _
  · rename_i plain
    rw [Bool.not_eq_true, Bool.or_eq_false_iff] at plain
    cases merged : merge? a b with
    | none => exact unionOf_eq_collect _
    | some c =>
      -- what is merged is no union, so its alternatives determine it
      have normal : c.Normal := normal_of_plain (isUnion_of_merge? plain.1 plain.2 merged)
      apply (normal_iff.1 normal).eq_of_leaves (domain.normal_collect _)
      rw [Alternatives.Domain.leaves_collect, List.flatMap_cons, List.flatMap_singleton]
      exact Shape.leaves_of_merge? plain.1 plain.2 merged

/-- The join of a list of types collects their alternatives. -/
lemma joinAll_eq_collect (ts : List DataType) : joinAll ts = domain.collect ts := by
  rw [← domain.foldl_collect, joinAll, funext₂ join_eq_collect]
  rfl

/-- The members of a union stand for the alternatives of the union. -/
lemma flatMap_leaves_alternatives (t : DataType) : t.alternatives.flatMap leaves = t.leaves := by
  cases t with
  | union ts => exact (leavesList_eq ts).symm
  | _ => rfl

/-- A join is in normal form. -/
lemma normal_join (a b : DataType) : (a.join b).Normal := by
  rw [join_eq_collect]
  exact normal_iff.2 (domain.normal_collect _)

/-- The alternatives of a normal form are those that it stands for, or `void` if it stands for
none. -/
lemma Normal.alternatives_eq (normal : t.Normal) :
    t.alternatives = if t.leaves = [] then [.void] else t.leaves := by
  cases t with
  | void => exact (if_pos rfl).symm
  | union ts =>
    obtain ⟨several, plain, _⟩ := normal
    have leaves : (union ts).leaves = ts := by
      rw [DataType.leaves, leavesList_eq]
      exact domain.flatMap_leaves fun t mem => leaves_eq_singleton.2 (plain t mem)
    have nonempty : ts ≠ [] := by
      intro empty
      rw [empty] at several
      cases several
    rw [leaves, if_neg nonempty, alternatives]
  | _ => exact (if_neg (List.cons_ne_nil _ _)).symm

/-- The alternatives of a join have the same shapes in either order, up to their order. -/
lemma leaves_join_perm (normal : a.Normal) (normal' : b.Normal) :
    ((a.join b).leaves.map Shape.ofType).Perm ((b.join a).leaves.map Shape.ofType) := by
  rw [join_eq_collect, join_eq_collect]
  apply (normal_iff.1 normal).collect_swap (normal_iff.1 normal')
  intro x y z w merged merged'
  have swapped := Shape.merge?_swap (Shape.merge?_ofType merged)
  rw [Shape.merge?_ofType merged'] at swapped
  exact (Option.some.inj swapped).symm

/-- The order of two types in normal form decides on no more than the order of the alternatives of
their join, and on the classes that its pointers name. -/
theorem join_comm_shapes (normal : a.Normal) (normal' : b.Normal) :
    ((a.join b).alternatives.map Shape.ofType).Perm ((b.join a).alternatives.map Shape.ofType) := by
  have perm := leaves_join_perm normal normal'
  rw [(normal_join a b).alternatives_eq, (normal_join b a).alternatives_eq]
  by_cases none : (a.join b).leaves = []
  · rw [none] at perm
    have none' : (b.join a).leaves = [] := List.map_eq_nil_iff.1 perm.nil_eq.symm
    rw [if_pos none, if_pos none']
  · have some' : (b.join a).leaves ≠ [] := by
      intro none'
      rw [none'] at perm
      exact none (List.map_eq_nil_iff.1 perm.eq_nil)
    rwa [if_neg none, if_neg some']

/-- A pointer, or an array of which nothing else is known. -/
def anyArray : DataType :=
  .union [.array .void none, .pointer ⟨3⟩]

/-- A pointer, or one of two arrays. -/
def twoArrays : DataType :=
  .union [.pointer ⟨1⟩, .array .boolean (some 4), .array (.pointer ⟨2⟩) none]

/-- A pointer and three arrays are joined to the same shapes in either order. -/
theorem join_comm_shapes_arrays :
    (anyArray.Normal ∧ twoArrays.Normal) ∧
      ((anyArray.join twoArrays).alternatives.map Shape.ofType).Perm
        ((twoArrays.join anyArray).alternatives.map Shape.ofType) :=
  ⟨by decide +kernel, join_comm_shapes (by decide +kernel) (by decide +kernel)⟩

/-- Joining types one by one is making a union of all of them. -/
theorem joinAll_eq_unionOf (ts : List DataType) : joinAll ts = unionOf ts := by
  rw [joinAll_eq_collect, unionOf_eq_collect]

end DataType

/-! ## Shapes -/

namespace Shape

variable {s : Shape}

/-- The alternatives of a shape: the members of a union, and any other shape alone. -/
def alternatives : Shape → List Shape
  | .union ss => ss
  | s => [s]

/-- The shape is not a union, or it is a union of several alternatives of which none is `unknown` or
a union and no two can be merged. -/
def Normal : Shape → Prop
  | .union ss => 2 ≤ ss.length ∧ (∀ s ∈ ss, s ≠ .unknown ∧ s.isConflict = false) ∧
    Alternatives.Exclusive merge? ss
  | _ => True

instance : DecidablePred Normal
  | .union _ => inferInstanceAs (Decidable (_ ∧ _))
  | .unknown | .boolean | .integer .. | .pointer | .code | .array .. | .aggregate _ =>
    inferInstanceAs (Decidable True)

/-- A merged shape refuses what its first part refused. -/
lemma merge?_eq_none_of_merge? {x y z e : Shape} (merged : merge? x y = some z)
    (refused : merge? x e = none) : merge? z e = none := by
  apply merge?_eq_none
  intro comp
  obtain ⟨c, found⟩ := exists_of_compatible (comp.symm.of_merge? merged).symm
  cases refused.symm.trans found

/-- Merging shapes is lawful: a shape merges with itself, and what is refused stays refused when one
side grows. -/
lemma merge?_lawful : Alternatives.Lawful merge? where
  self _ := merge?_self
  symm refused := by
    apply merge?_eq_none
    intro comp
    obtain ⟨c, found⟩ := exists_of_compatible comp.symm
    cases refused.symm.trans found
  first := merge?_eq_none_of_merge?
  last merged := merge?_eq_none_of_merge? (merge?_swap merged)

/-- The alternatives of a list of shapes are those of its members, one after the other. -/
lemma leavesList_eq (ss : List Shape) : leavesList ss = ss.flatMap leaves := by
  induction ss with
  | nil => rfl
  | cons s ss ih => rw [leavesList, ih, List.flatMap_cons]

/-- A shape stands for itself unless it is `unknown` or a union. -/
lemma leaves_eq_singleton : s.leaves = [s] ↔ Single s := by
  refine ⟨fun alone => leaves_single (alone ▸ List.mem_singleton_self s), fun single => ?_⟩
  cases s with
  | unknown => exact absurd rfl single.1
  | union ss => cases single.2
  | _ => rfl

/-- Shapes as values that stand for alternatives. -/
def domain : Alternatives.Domain Shape where
  none := .unknown
  union := .union
  leaves := leaves
  merge := merge?
  leaves_none := rfl
  leaves_union := leavesList_eq
  alone mem := leaves_eq_singleton.2 (leaves_single mem)
  closed first last merged :=
    leaves_eq_singleton.2
      (single_of_merge? (leaves_eq_singleton.1 first) (leaves_eq_singleton.1 last) merged)
  lawful := merge?_lawful

/-- A shape is in normal form if it is so as a value that stands for alternatives. -/
lemma normal_iff : s.Normal ↔ domain.Normal s := by
  refine ⟨fun normal => ?_, fun normal => ?_⟩
  · cases s with
    | unknown => exact .none
    | union ss =>
      obtain ⟨several, single, exclusive⟩ := normal
      exact .union several (fun s mem => leaves_eq_singleton.2 (single s mem)) exclusive
    | _ => exact .single rfl
  · cases normal with
    | none => trivial
    | single alone =>
      have single := (leaves_eq_singleton.1 alone).2
      cases s with
      | union ss => cases single
      | _ => trivial
    | union several alone exclusive =>
      exact ⟨several, fun s mem => leaves_eq_singleton.1 (alone s mem), exclusive⟩

/-- The shape of some alternatives is their value. -/
lemma ofAlternatives_eq : ∀ ss : List Shape, ofAlternatives ss = domain.ofLeaves ss
  | [] => rfl
  | [_] => rfl
  | _ :: _ :: _ => rfl

/-- The join of two shapes collects their alternatives. -/
lemma join_eq_collect (a b : Shape) : a.join b = domain.collect [a, b] := by
  rw [join, leavesList_eq, ofAlternatives_eq]
  rfl

/-- The join of a list of shapes collects their alternatives. -/
lemma joinAll_eq_collect (ss : List Shape) : joinAll ss = domain.collect ss := by
  rw [← domain.foldl_collect, joinAll, funext₂ join_eq_collect]
  rfl

/-- The members of a union of shapes stand for the alternatives of the union. -/
lemma flatMap_leaves_alternatives (s : Shape) : s.alternatives.flatMap leaves = s.leaves := by
  cases s with
  | union ss => exact (leavesList_eq ss).symm
  | _ => rfl

end Shape

/-- What types and shapes are joined to is in normal form, and a normal form is what its own
alternatives, two copies of it, and it and the bottom are joined to. -/
theorem unions_normal :
    (∀ ts, (DataType.unionOf ts).Normal) ∧
    (∀ t : DataType, t.Normal → DataType.unionOf t.alternatives = t ∧ t.join t = t ∧
      DataType.void.join t = t ∧ t.join .void = t) ∧
    (∀ a b : Shape, (a.join b).Normal) ∧ (∀ ss, (Shape.joinAll ss).Normal) ∧
    ∀ s : Shape, s.Normal → Shape.joinAll s.alternatives = s ∧ s.join s = s ∧
      Shape.unknown.join s = s ∧ s.join .unknown = s := by
  refine ⟨fun ts => ?_, fun t normal => ?_, fun a b => ?_, fun ss => ?_, fun s normal => ?_⟩
  · rw [DataType.unionOf_eq_collect]
    exact DataType.normal_iff.2 (DataType.domain.normal_collect ts)
  · rw [DataType.unionOf_eq_collect, DataType.join_eq_collect, DataType.join_eq_collect,
      DataType.join_eq_collect]
    have normal := DataType.normal_iff.1 normal
    exact ⟨normal.collect_eq (DataType.flatMap_leaves_alternatives t), normal.collect_pair_self,
      normal.collect_none_left, normal.collect_none_right⟩
  · rw [Shape.join_eq_collect]
    exact Shape.normal_iff.2 (Shape.domain.normal_collect _)
  · rw [Shape.joinAll_eq_collect]
    exact Shape.normal_iff.2 (Shape.domain.normal_collect ss)
  · rw [Shape.joinAll_eq_collect, Shape.join_eq_collect, Shape.join_eq_collect,
      Shape.join_eq_collect]
    have normal := Shape.normal_iff.1 normal
    exact ⟨normal.collect_eq (Shape.flatMap_leaves_alternatives s), normal.collect_pair_self,
      normal.collect_none_left, normal.collect_none_right⟩

/-- A union of a pointer and two arrays is joined to itself, and so is its shape. -/
theorem unions_normal_twoArrays :
    (DataType.twoArrays.Normal ∧
      DataType.unionOf DataType.twoArrays.alternatives = DataType.twoArrays) ∧
    (Shape.ofType .twoArrays).Normal ∧
      Shape.joinAll (Shape.ofType .twoArrays).alternatives = .ofType .twoArrays :=
  ⟨⟨by decide +kernel, (unions_normal.2.1 _ (by decide +kernel)).1⟩,
    by decide +kernel, (unions_normal.2.2.2.2 _ (by decide +kernel)).1⟩

end TypeRecovery
