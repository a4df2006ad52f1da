import TypeRecovery.DataType.Join
import TypeRecovery.Proofs.Exclusive

/-!
# Types that cover others

`Fits` says which types can be merged, and `Covers` what a merged type keeps of its parts: the kind,
the width of an integer, and the elements of an array. A merge exists exactly for types that fit, and
covers both of them (`weighs_merge?`). What a type covers fits wherever the type itself fits
(`Fits.of_covers`), so a type that grew by a merge fits nowhere where it did not fit before, and
merging is lawful (`merge?_lawful`).
-/

namespace TypeRecovery.DataType

/-- The types have a join that needs no union. -/
inductive Fits : DataType → DataType → Prop
  | voidLeft {b} : Fits .void b
  | voidRight {a} : Fits a .void
  | same {a} : Fits a a
  | integers {w s w' s'} : Fits (.integer w s) (.integer w' s')
  | booleanLeft {w s} : Fits .boolean (.integer w s)
  | booleanRight {w s} : Fits (.integer w s) .boolean
  | pointers {c d} : Fits (.pointer c) (.pointer d)
  | arrays {e e' l l'} : Fits e e' → Fits (.array e l) (.array e' l')
  | functions {ps r u ps' r' u'} : Fits (.function ps r u) (.function ps' r' u')

/-- The first type keeps all that is known of the kind of the second one. An integer is at least as
wide, and stands for a boolean too. -/
inductive Covers : DataType → DataType → Prop
  | void {t} : Covers t .void
  | same {t} : Covers t t
  | integer {w s w' s'} : w' ≤ w → Covers (.integer w s) (.integer w' s')
  | boolean {w s} : Covers (.integer w s) .boolean
  | pointer {c d} : Covers (.pointer c) (.pointer d)
  | array {e e' l l'} : Covers e e' → Covers (.array e l) (.array e' l')
  | function {ps r u ps' r' u'} : Covers (.function ps r u) (.function ps' r' u')

/-- What a type covers covers no more than the type does. -/
lemma Covers.trans {t u v : DataType} (first : Covers t u) (last : Covers u v) : Covers t v := by
  induction first generalizing v with
  | void =>
    cases last with
    | void => exact .void
    | same => exact .void
  | same => exact last
  | integer wide =>
    cases last with
    | void => exact .void
    | same => exact .integer wide
    | integer wide' => exact .integer (UInt8.le_trans wide' wide)
    | boolean => exact .boolean
  | boolean =>
    cases last with
    | void => exact .void
    | same => exact .boolean
  | pointer =>
    cases last with
    | void => exact .void
    | same => exact .pointer
    | pointer => exact .pointer
  | array inner ih =>
    cases last with
    | void => exact .void
    | same => exact .array inner
    | array last => exact .array (ih last)
  | function =>
    cases last with
    | void => exact .void
    | same => exact .function
    | function => exact .function

/-- What is covered does not depend on the names of classes. -/
lemma Covers.mapClasses {t u : DataType} (covers : Covers t u) (f : ClassId → ClassId) :
    Covers (t.mapClasses f) (u.mapClasses f) := by
  induction covers with
  | void => exact .void
  | same => exact .same
  | integer wide => exact .integer wide
  | boolean => exact .boolean
  | pointer => exact .pointer
  | array _ ih => exact .array ih
  | function => exact .function

/-! ## What merging does -/

/-- The outcome of a merge: types that fit are covered by what they are merged to. -/
inductive Weighs (a b : DataType) : Option DataType → Prop
  | merged {c} : Fits a b → Covers c a → Covers c b → Weighs a b (some c)
  | refused : ¬ Fits a b → Weighs a b none

variable {a b c t u : DataType} {depth : Nat}

/-- The greater of two widths is at least as great as both. -/
lemma le_max_uint8 (m n : UInt8) : m ≤ max m n ∧ n ≤ max m n := by
  show m ≤ (if m ≤ n then n else m) ∧ n ≤ if m ≤ n then n else m
  split
  · exact ⟨‹m ≤ n›, UInt8.le_refl n⟩
  · exact ⟨UInt8.le_refl m, UInt8.le_of_lt (UInt8.not_le.1 ‹¬ m ≤ n›)⟩

/-- A merge that looks deep enough weighs types, if one that looks less deep weighs their parts. -/
lemma weighs_mergeWithin_of (ha : a.nesting ≤ depth) (hb : b.nesting ≤ depth)
    (deeper : ∀ d, depth = d + 1 → ∀ {a b : DataType}, a.nesting ≤ d → b.nesting ≤ d →
      Weighs a b (mergeWithin d a b)) : Weighs a b (mergeWithin depth a b) := by
  rw [mergeWithin.eq_def]
  split
  · rename_i void
    subst void
    exact .merged .voidLeft .void .same
  split
  · rename_i void
    subst void
    exact .merged .voidRight .same .void
  split
  · rename_i same
    subst same
    exact .merged .same .same .same
  split
  · exact .merged .integers (.integer (le_max_uint8 _ _).1) (.integer (le_max_uint8 _ _).2)
  · exact .merged .booleanLeft .boolean .same
  · exact .merged .booleanRight .same .boolean
  · exact .merged .pointers .same .pointer
  · have inner := deeper _ rfl (Nat.le_of_succ_le_succ ha) (Nat.le_of_succ_le_succ hb)
    generalize mergeWithin _ _ _ = m at inner
    cases inner with
    | merged fits first last => exact .merged (.arrays fits) (.array first) (.array last)
    | refused unfit =>
      apply Weighs.refused
      intro fits
      cases fits with
      | same => exact unfit .same
      | arrays fits => exact unfit fits
  · split <;> exact .merged .functions .function .function
  · rename_i integers booleanLeft booleanRight pointers arrays functions
    apply Weighs.refused
    intro fits
    cases fits with
    | voidLeft => contradiction
    | voidRight => contradiction
    | same => contradiction
    | integers => exact integers _ _ _ _ rfl rfl
    | booleanLeft => exact booleanLeft _ _ rfl rfl
    | booleanRight => exact booleanRight _ _ rfl rfl
    | pointers => exact pointers _ _ rfl rfl
    | arrays =>
      -- an array is nested, so there is some depth left to look into it
      obtain ⟨d, rfl⟩ := Nat.exists_eq_succ_of_ne_zero (Nat.ne_zero_of_lt ha)
      exact arrays d _ _ _ _ rfl rfl rfl
    | functions =>
      obtain ⟨d, rfl⟩ := Nat.exists_eq_succ_of_ne_zero (Nat.ne_zero_of_lt ha)
      exact functions d _ _ _ _ _ _ rfl rfl rfl

/-- A merge that looks as deep as the types are nested weighs them. -/
lemma weighs_mergeWithin (ha : a.nesting ≤ depth) (hb : b.nesting ≤ depth) :
    Weighs a b (mergeWithin depth a b) := by
  induction depth generalizing a b with
  | zero => exact weighs_mergeWithin_of ha hb nofun
  | succ depth ih =>
    apply weighs_mergeWithin_of ha hb
    rintro d ⟨⟩
    exact ih

/-- Merging weighs any two types. -/
lemma weighs_merge? (a b : DataType) : Weighs a b (merge? a b) :=
  weighs_mergeWithin (Nat.le_max_left _ _) (Nat.le_max_right _ _)

/-- Types that do not fit are not merged. -/
lemma merge?_eq_none_iff : merge? a b = none ↔ ¬ Fits a b := by
  have weighs := weighs_merge? a b
  generalize merge? a b = m at weighs
  cases weighs with
  | merged fits => simp [fits]
  | refused unfit => simp [unfit]

/-- A merged type covers both its parts. -/
lemma covers_of_merge? (merged : merge? a b = some c) : Covers c a ∧ Covers c b := by
  have weighs := weighs_merge? a b
  rw [merged] at weighs
  cases weighs with
  | merged _ first last => exact ⟨first, last⟩

/-- Nothing is known of `void`, so a merge with it is the other type. -/
@[simp] lemma merge?_void_left (b : DataType) : merge? .void b = some b := by
  rw [merge?, mergeWithin.eq_def, if_pos rfl]

/-- A merge with `void` on the right is the other type, too. -/
@[simp] lemma merge?_void_right (a : DataType) : merge? a .void = some a := by
  rw [merge?, mergeWithin.eq_def]
  split
  · rename_i void
    rw [void]
  · rw [if_pos rfl]

/-- A type merged with itself is the type. -/
@[simp] lemma merge?_self (a : DataType) : merge? a a = some a := by
  rw [merge?, mergeWithin.eq_def]
  split
  · rfl
  · simp

/-! ## Where covered types fit -/

/-- Types fit in either order. -/
lemma Fits.symm (fits : Fits a b) : Fits b a := by
  induction fits with
  | voidLeft => exact .voidRight
  | voidRight => exact .voidLeft
  | same => exact .same
  | integers => exact .integers
  | booleanLeft => exact .booleanRight
  | booleanRight => exact .booleanLeft
  | pointers => exact .pointers
  | arrays _ ih => exact .arrays ih
  | functions => exact .functions

/-- What a type covers fits wherever the type fits. -/
lemma Fits.of_covers (fits : Fits a t) (covers : Covers t u) : Fits a u := by
  induction covers generalizing a with
  | void => exact .voidRight
  | same => exact fits
  | integer =>
    cases fits with
    | voidLeft => exact .voidLeft
    | same => exact .integers
    | integers => exact .integers
    | booleanLeft => exact .booleanLeft
  | boolean =>
    cases fits with
    | voidLeft => exact .voidLeft
    | same => exact .booleanRight
    | integers => exact .booleanRight
    | booleanLeft => exact .same
  | pointer =>
    cases fits with
    | voidLeft => exact .voidLeft
    | same => exact .pointers
    | pointers => exact .pointers
  | array _ ih =>
    cases fits with
    | voidLeft => exact .voidLeft
    | same => exact .arrays (ih .same)
    | arrays fits => exact .arrays (ih fits)
  | function =>
    cases fits with
    | voidLeft => exact .voidLeft
    | same => exact .functions
    | functions => exact .functions

/-- A type that grew fits nowhere where what it covers did not fit. -/
lemma merge?_eq_none_of_covers (covers : Covers t u) (refused : merge? u a = none) :
    merge? t a = none := by
  rw [merge?_eq_none_iff] at refused ⊢
  exact fun fits => refused (fits.symm.of_covers covers).symm

/-- Merging is lawful: a type merges with itself, and what is refused stays refused when one side
grows. -/
lemma merge?_lawful : Alternatives.Lawful merge? where
  self := merge?_self
  symm refused := by
    rw [merge?_eq_none_iff] at refused ⊢
    exact fun fits => refused fits.symm
  first merged := merge?_eq_none_of_covers (covers_of_merge? merged).1
  last merged := merge?_eq_none_of_covers (covers_of_merge? merged).2

end TypeRecovery.DataType
