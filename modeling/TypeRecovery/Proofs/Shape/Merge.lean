import Mathlib.Data.Option.Basic
import Mathlib.Order.Basic
import TypeRecovery.Shape.Basic

/-!
# Merging shapes

Aggregates merge whatever their sizes are, and so do arrays of them. Such shapes are kin: they are
compatible with the same shapes, stay kin to each other whatever they are merged with, and merge in
any order. Two shapes are apart if nothing but kinship makes them compatible.
-/

namespace TypeRecovery

/-- Signs merge in any order. -/
lemma Signedness.merge_comm (s s' : Signedness) : s.merge s' = s'.merge s := by
  cases s <;> cases s' <;> rfl

/-- Lengths that disagree are lost, in whatever order they are compared. -/
lemma lengths_assoc (l l' l'' : Option UInt64) :
    (if (if l = l' then l else none) = l'' then (if l = l' then l else none) else none) =
      if l = (if l' = l'' then l' else none) then l else none := by
  grind

/-- Lengths that disagree are lost, whichever of the later ones comes first. -/
lemma lengths_right_comm (l l' l'' : Option UInt64) :
    (if (if l = l'' then l else none) = l' then (if l = l'' then l else none) else none) =
      if (if l = l' then l else none) = l'' then (if l = l' then l else none) else none := by
  grind

namespace Shape

/-! ## The cases of a merge -/

section
variable {a b e e' : Shape} {l l' : Option UInt64}

/-- Nothing is known of `unknown`, so a merge with it is the other shape. -/
@[simp] lemma merge?_unknown_left : merge? .unknown b = some b := by
  rw [merge?.eq_def, if_pos rfl]

/-- A merge with `unknown` on the right is the other shape, too. -/
@[simp] lemma merge?_unknown_right : merge? a .unknown = some a := by
  rw [merge?.eq_def]
  split
  · rename_i e
    rw [e]
  · rw [if_pos rfl]

/-- A shape merged with itself is the shape. -/
@[simp] lemma merge?_self : merge? a a = some a := by
  rw [merge?.eq_def]
  split
  · rfl
  · simp

/-- Arrays merge if their elements do, and keep a length that they agree on. -/
@[simp] lemma merge?_array :
    merge? (.array e l) (.array e' l') =
      (merge? e e').map (.array · (if l = l' then l else none)) := by
  by_cases same : Shape.array e l = .array e' l'
  · cases same
    simp
  · rw [merge?.eq_def, if_neg nofun, if_neg nofun, if_neg same]

/-- Aggregates merge to the larger size. -/
@[simp] lemma merge?_aggregate {m n : UInt64} :
    merge? (.aggregate m) (.aggregate n) = some (.aggregate (max m n)) := by
  by_cases same : Shape.aggregate m = .aggregate n
  · cases same
    have self : max m m = m := ite_self m
    rw [merge?_self, self]
  · rw [merge?.eq_def, if_neg nofun, if_neg nofun, if_neg same]

/-- Integers merge to the greater width and the merged sign. -/
@[simp] lemma merge?_integer {w w' : UInt8} {s s' : Signedness} :
    merge? (.integer w s) (.integer w' s') = some (.integer (max w w') (s.merge s')) := by
  by_cases same : Shape.integer w s = .integer w' s'
  · cases same
    have width : max w w = w := ite_self w
    have sign : s.merge s = s := by cases s <;> rfl
    rw [merge?_self, width, sign]
  · rw [merge?.eq_def, if_neg nofun, if_neg nofun, if_neg same]

end

/-- What merging two shapes can give. -/
inductive Merges : Shape → Shape → Shape → Prop
  | unknownLeft {b} : Merges .unknown b b
  | unknownRight {a} : Merges a .unknown a
  | same {a} : Merges a a a
  | integers {w s w' s'} :
    Merges (.integer w s) (.integer w' s') (.integer (max w w') (s.merge s'))
  | booleanLeft {w s} : Merges .boolean (.integer w s) (.integer w s)
  | booleanRight {w s} : Merges (.integer w s) .boolean (.integer w s)
  | aggregates {m n} : Merges (.aggregate m) (.aggregate n) (.aggregate (max m n))
  | arrays {e e' j l l'} : Merges e e' j →
    Merges (.array e l) (.array e' l') (.array j (if l = l' then l else none))

/-- A merge is one of the listed ones. -/
lemma merges_of_merge? {a b c : Shape} (merged : merge? a b = some c) : Merges a b c := by
  fun_induction merge? a b generalizing c with
  | case1 => cases merged; exact .unknownLeft
  | case2 => cases merged; exact .unknownRight
  | case3 => cases merged; exact .same
  | case4 => cases merged; exact .integers
  | case5 => cases merged; exact .booleanLeft
  | case6 => cases merged; exact .booleanRight
  | case7 _ _ _ _ _ _ _ ih =>
    obtain ⟨j, inner, rfl⟩ := Option.map_eq_some_iff.1 merged
    exact .arrays (ih inner)
  | case8 => cases merged; exact .aggregates
  | case9 => cases merged

/-- Shapes merge to the same shape in either order. -/
lemma merge?_swap {a b c : Shape} (merged : merge? a b = some c) : merge? b a = some c := by
  have merges := merges_of_merge? merged
  clear merged
  induction merges with
  | unknownLeft => exact merge?_unknown_right
  | unknownRight => exact merge?_unknown_left
  | same => exact merge?_self
  | @integers w _ w' =>
    have widths : max w' w = max w w' := UInt8.toNat.inj (by simp only [UInt8.toNat_max, Nat.max_comm])
    rw [merge?_integer, widths, Signedness.merge_comm]
  | booleanLeft => rfl
  | booleanRight => rfl
  | @aggregates m n =>
    have sizes : max n m = max m n := UInt64.toNat.inj (by simp only [UInt64.toNat_max, Nat.max_comm])
    rw [merge?_aggregate, sizes]
  | @arrays e e' j l l' _ ih =>
    have lengths : (if l' = l then l' else none) = if l = l' then l else none := by grind
    rw [merge?_array, ih, lengths, Option.map_some]

/-! ## Compatible shapes -/

/-- The shapes have a join that needs no union. -/
def Compatible (a b : Shape) : Prop :=
  (merge? a b).isSome = true

section
variable {a b c e x y z : Shape} {l l' : Option UInt64}

/-- Shapes that merge are compatible. -/
lemma compatible_of_merge? (merged : merge? a b = some c) : Compatible a b := by
  rw [Compatible, merged, Option.isSome_some]

/-- Compatible shapes merge. -/
lemma exists_of_compatible (comp : Compatible a b) : ∃ c, merge? a b = some c :=
  Option.isSome_iff_exists.1 comp

/-- Shapes that are not compatible do not merge. -/
lemma merge?_eq_none (apart : ¬ Compatible a b) : merge? a b = none := by
  rwa [Compatible, Option.not_isSome_iff_eq_none] at apart

/-- Nothing is incompatible with `unknown`. -/
@[simp] lemma compatible_unknown_left : Compatible .unknown b :=
  compatible_of_merge? merge?_unknown_left

/-- Nothing is incompatible with `unknown` on the right either. -/
@[simp] lemma compatible_unknown_right : Compatible a .unknown :=
  compatible_of_merge? merge?_unknown_right

/-- Arrays are compatible if their elements are. -/
@[simp] lemma compatible_array : Compatible (.array a l) (.array b l') ↔ Compatible a b := by
  rw [Compatible, merge?_array, Option.isSome_map, Compatible]

/-- Compatible shapes are so in either order. -/
lemma Compatible.symm (comp : Compatible a b) : Compatible b a := by
  obtain ⟨c, merged⟩ := exists_of_compatible comp
  exact compatible_of_merge? (merge?_swap merged)

/-- A merged shape is compatible with no more than either of its parts was. -/
lemma Compatible.of_merge? (merged : merge? y x = some z) (comp : Compatible e z) :
    Compatible e y := by
  have merges := merges_of_merge? merged
  clear merged
  induction merges generalizing e with
  | unknownLeft => exact compatible_unknown_right
  | unknownRight => exact comp
  | same => exact comp
  | booleanRight => exact comp
  | integers =>
    cases e with
    | integer => exact compatible_of_merge? merge?_integer
    | _ => exact comp
  | booleanLeft =>
    cases e with
    | unknown => exact compatible_unknown_left
    | boolean => rfl
    | integer => rfl
    | _ => cases comp
  | aggregates =>
    cases e with
    | aggregate => exact compatible_of_merge? merge?_aggregate
    | _ => exact comp
  | arrays _ ih =>
    cases e with
    | unknown => exact compatible_unknown_left
    | array e l => exact compatible_array.2 (ih (compatible_array.1 comp))
    | _ => cases comp

end

/-! ## Kin -/

/-- Aggregates, equal unions, and arrays of kin. -/
inductive Kin : Shape → Shape → Prop
  | aggregates (m n) : Kin (.aggregate m) (.aggregate n)
  | unions (ss) : Kin (.union ss) (.union ss)
  | arrays {e e'} (l l') : Kin e e' → Kin (.array e l) (.array e' l')

namespace Kin

variable {a b c e q w x y : Shape}

/-- Kinship goes both ways. -/
lemma symm (kin : Kin a b) : Kin b a := by
  induction kin with
  | aggregates m n => exact .aggregates n m
  | unions ss => exact .unions ss
  | arrays l l' _ ih => exact .arrays l' l ih

/-- Kinship carries over. -/
lemma trans (kin : Kin a b) (kin' : Kin b c) : Kin a c := by
  induction kin generalizing c with
  | aggregates m n => cases kin'; exact .aggregates _ _
  | unions ss => exact kin'
  | arrays l l' _ ih =>
    cases kin' with
    | arrays _ l'' kin' => exact .arrays l l'' (ih kin')

/-- Kin are compatible with the same shapes. -/
lemma compatible_iff (kin : Kin a b) : Compatible a x ↔ Compatible b x := by
  induction kin generalizing x with
  | aggregates m n =>
    cases x with
    | unknown => simp
    | aggregate k => simp [Compatible]
    | _ => exact Iff.rfl
  | unions ss => exact Iff.rfl
  | arrays l l' _ ih =>
    cases x with
    | unknown => simp
    | array e l'' => rw [compatible_array, compatible_array, ih]
    | _ => exact Iff.rfl

/-- Kin are compatible with each other. -/
lemma compatible (kin : Kin a b) : Compatible a b :=
  kin.compatible_iff.2 (compatible_of_merge? merge?_self)

/-- A shape stays kin to another one whatever it is merged with. -/
lemma of_merge? (kin : Kin e q) (merged : merge? e x = some w) : Kin w q := by
  have merges := merges_of_merge? merged
  clear merged
  induction kin generalizing x w with
  | aggregates m n => cases merges <;> exact .aggregates _ _
  | unions ss => cases merges <;> exact .unions ss
  | arrays l l' kin ih =>
    cases merges with
    | unknownRight => exact .arrays l l' kin
    | same => exact .arrays l l' kin
    | arrays inner => exact .arrays _ l' (ih inner)

/-- Merging kin is associative, whatever is merged in last. -/
lemma merge?_assoc {u v : Shape} (kin : Kin e y) (first : merge? e y = some u)
    (last : merge? y x = some v) : merge? u x = merge? e v := by
  induction kin generalizing x u v with
  | aggregates m n =>
    rw [merge?_aggregate] at first
    cases first
    cases x with
    | unknown => cases last; simp
    | aggregate k =>
      rw [merge?_aggregate] at last
      cases last
      have sizes : max (max m n) k = max m (max n k) :=
        UInt64.toNat.inj (by simp only [UInt64.toNat_max, Nat.max_assoc])
      rw [merge?_aggregate, merge?_aggregate, sizes]
    | _ => cases last
  | unions ss =>
    rw [merge?_self] at first
    cases first
    cases merges_of_merge? last <;> simp
  | arrays l l' _ ih =>
    rw [merge?_array] at first
    obtain ⟨j, inner, rfl⟩ := Option.map_eq_some_iff.1 first
    cases x with
    | unknown => cases last; simp [inner]
    | array e l'' =>
      rw [merge?_array] at last
      obtain ⟨j', inner', rfl⟩ := Option.map_eq_some_iff.1 last
      rw [merge?_array, merge?_array, ih inner inner', lengths_assoc]
    | _ => cases last

/-- Kin can be merged in before or after another shape. -/
lemma merge?_comm {u v : Shape} (kin : Kin e q) (first : merge? e x = some u)
    (last : merge? e q = some v) : merge? u q = merge? v x := by
  induction kin generalizing x u v with
  | aggregates m n =>
    rw [merge?_aggregate] at last
    cases last
    cases x with
    | unknown => cases first; simp
    | aggregate k =>
      rw [merge?_aggregate] at first
      cases first
      have sizes : max (max m k) n = max (max m n) k :=
        UInt64.toNat.inj (by simp only [UInt64.toNat_max, Nat.max_right_comm])
      rw [merge?_aggregate, merge?_aggregate, sizes]
    | _ => cases first
  | unions ss =>
    rw [merge?_self] at last
    cases last
    cases merges_of_merge? first <;> simp
  | arrays l l' _ ih =>
    rw [merge?_array] at last
    obtain ⟨j, inner, rfl⟩ := Option.map_eq_some_iff.1 last
    cases x with
    | unknown => cases first; simp [inner]
    | array e l'' =>
      rw [merge?_array] at first
      obtain ⟨j', inner', rfl⟩ := Option.map_eq_some_iff.1 first
      rw [merge?_array, merge?_array, ih inner' inner, lengths_right_comm]
    | _ => cases first

end Kin

/-! ## Shapes that are apart -/

/-- Nothing but kinship makes the shapes compatible. -/
def Apart (a b : Shape) : Prop :=
  Compatible a b → Kin a b

namespace Apart

variable {a b c x : Shape}

/-- Different unions are not compatible, so unions are always apart. -/
lemma union {ss ss' : List Shape} : Apart (.union ss) (.union ss') := by
  intro comp
  obtain ⟨c, merged⟩ := exists_of_compatible comp
  cases merges_of_merge? merged
  exact .unions ss

/-- Shapes that are apart are so in either order. -/
lemma symm (apart : Apart a b) : Apart b a :=
  fun comp => (apart comp.symm).symm

/-- What a shape is merged with does not bring it closer to another one. -/
lemma of_merge? (apart : Apart a c) (merged : merge? a x = some b) : Apart b c := by
  intro comp
  have kin := apart (comp.symm.of_merge? merged).symm
  exact kin.of_merge? merged

end Apart

end Shape

end TypeRecovery
