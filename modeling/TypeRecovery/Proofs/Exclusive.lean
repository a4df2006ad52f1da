import Mathlib.Data.List.Perm.Basic
import TypeRecovery.Proofs.Alternatives

/-!
# Alternatives that exclude each other

A merge is lawful if every alternative absorbs itself, refusal is mutual, and what is merged still
refuses what one of its parts refused. Then there is no need to compare an alternative that grows with
the others again: insertions leave no two alternatives that could be merged (`Exclusive.insertAll`).
Inserting what is there already changes nothing (`Exclusive.insertAll_eq_self`), and of two lists it
does not matter which one is inserted into the other, but for the order
(`Exclusive.insertAll_swap`).
-/

namespace TypeRecovery.Alternatives

variable {α β : Type} {merge : α → α → Option α} {x y z e : α} {acc before after xs ys : List α}

/-- What lists of alternatives rely on. -/
structure Lawful (merge : α → α → Option α) : Prop where
  self : ∀ x, merge x x = some x
  symm : ∀ {x y}, merge x y = none → merge y x = none
  /-- What is merged refuses what its first part refused. -/
  first : ∀ {x y z e}, merge x y = some z → merge x e = none → merge z e = none
  /-- What is merged refuses what its last part refused. -/
  last : ∀ {x y z e}, merge x y = some z → merge y e = none → merge z e = none

/-- No two alternatives can be merged, in either order. -/
def Exclusive (merge : α → α → Option α) (xs : List α) : Prop :=
  xs.Pairwise fun x y => merge x y = none ∧ merge y x = none

instance [DecidableEq α] : Decidable (Exclusive merge xs) :=
  inferInstanceAs (Decidable (xs.Pairwise fun x y => merge x y = none ∧ merge y x = none))

/-! ## Where an insertion ends -/

/-- What an insertion can do: the alternative is new, or an old one is the first to accept it. -/
lemma insert_cases (merge : α → α → Option α) (x : α) (acc : List α) :
    ((∀ e ∈ acc, merge e x = none) ∧ insert merge x acc = acc ++ [x]) ∨
    ∃ before y after z, acc = before ++ y :: after ∧ (∀ e ∈ before, merge e x = none) ∧
      merge y x = some z ∧ insert merge x acc = before ++ z :: after := by
  induction acc with
  | nil => exact .inl ⟨List.forall_mem_nil _, rfl⟩
  | cons e acc ih =>
    cases here : merge e x with
    | some z => exact .inr ⟨[], e, acc, z, rfl, List.forall_mem_nil _, here, insert_cons_of_some here⟩
    | none =>
      rw [insert_cons_of_none here]
      obtain ⟨refused, new⟩ | ⟨before, y, after, z, rfl, refused, merged, new⟩ := ih
      · exact .inl ⟨List.forall_mem_cons.2 ⟨here, refused⟩, congrArg (e :: ·) new⟩
      · refine .inr ⟨e :: before, y, after, z, rfl, ?_, merged, congrArg (e :: ·) new⟩
        exact List.forall_mem_cons.2 ⟨here, refused⟩

/-- An alternative that refuses the new one stands aside. -/
lemma insert_aside (refused : merge y x = none) (before after : List α) :
    ∃ before' after', insert merge x (before ++ y :: after) = before' ++ y :: after' ∧
      insert merge x (before ++ after) = before' ++ after' := by
  induction before with
  | nil => exact ⟨[], insert merge x after, insert_cons_of_none refused, rfl⟩
  | cons e before ih =>
    cases here : merge e x with
    | some z =>
      exact ⟨z :: before, after, insert_cons_of_some here, insert_cons_of_some here⟩
    | none =>
      obtain ⟨before', after', whole, rest⟩ := ih
      refine ⟨e :: before', after', ?_, ?_⟩
      · rw [List.cons_append, insert_cons_of_none here, whole, List.cons_append]
      · rw [List.cons_append, insert_cons_of_none here, rest, List.cons_append]

/-- An alternative that refuses all new ones stands aside. -/
lemma insertAll_aside (before after : List α) (refused : ∀ x ∈ xs, merge y x = none) :
    (insertAll merge (before ++ y :: after) xs).Perm (y :: insertAll merge (before ++ after) xs) := by
  induction xs generalizing before after with
  | nil => exact List.perm_middle
  | cons x xs ih =>
    rw [List.forall_mem_cons] at refused
    obtain ⟨before', after', whole, rest⟩ := insert_aside refused.1 before after
    rw [insertAll_cons, insertAll_cons, whole, rest]
    exact ih before' after' refused.2

/-- An alternative in front that refuses all new ones stays in front. -/
lemma insertAll_cons_of_refused (refused : ∀ x ∈ xs, merge y x = none) :
    insertAll merge (y :: acc) xs = y :: insertAll merge acc xs := by
  induction xs generalizing acc with
  | nil => rfl
  | cons x xs ih =>
    rw [List.forall_mem_cons] at refused
    rw [insertAll_cons, insert_cons_of_none refused.1, ih refused.2, insertAll_cons]

/-! ## Exclusive alternatives -/

/-- An insertion leaves no two alternatives that could be merged. -/
lemma Exclusive.insert (ex : Exclusive merge acc) (law : Lawful merge) (x : α) :
    Exclusive merge (insert merge x acc) := by
  obtain ⟨refused, new⟩ | ⟨before, y, after, z, rfl, _, merged, new⟩ := insert_cases merge x acc
  · rw [new]
    refine List.pairwise_append.2 ⟨ex, List.pairwise_singleton _ _, fun e mem y last => ?_⟩
    rw [List.mem_singleton.1 last]
    exact ⟨refused e mem, law.symm (refused e mem)⟩
  · obtain ⟨ahead, behind, across⟩ := List.pairwise_append.1 ex
    rw [List.pairwise_cons] at behind
    have grown : ∀ {e}, merge y e = none → merge z e = none ∧ merge e z = none := by
      intro e refused
      have whole := law.first merged refused
      exact ⟨whole, law.symm whole⟩
    rw [new]
    refine List.pairwise_append.2 ⟨ahead, List.pairwise_cons.2 ⟨?_, behind.2⟩, ?_⟩
    · exact fun e mem => grown (behind.1 e mem).1
    · intro e mem u inside
      rcases List.mem_cons.1 inside with rfl | inside
      · exact (grown (across e mem y List.mem_cons_self).2).symm
      · exact across e mem u (List.mem_cons_of_mem y inside)

/-- Insertions leave no two alternatives that could be merged. -/
lemma Exclusive.insertAll (ex : Exclusive merge acc) (law : Lawful merge) (xs : List α) :
    Exclusive merge (insertAll merge acc xs) := by
  induction xs generalizing acc with
  | nil => exact ex
  | cons x xs ih => exact ih (ex.insert law x)

/-- Alternatives that exclude each other are all kept, in their order. -/
lemma Exclusive.insertAll_append (ex : Exclusive merge (acc ++ xs)) :
    Alternatives.insertAll merge acc xs = acc ++ xs := by
  induction xs generalizing acc with
  | nil => exact (List.append_nil acc).symm
  | cons x xs ih =>
    have refused : ∀ e ∈ acc, merge e x = none := by
      intro e mem
      exact ((List.pairwise_append.1 ex).2.2 e mem x List.mem_cons_self).1
    obtain ⟨_, new⟩ | ⟨before, y, after, z, rfl, _, merged, _⟩ := insert_cases merge x acc
    · rw [insertAll_cons, new, ih (by simpa using ex), List.append_assoc, List.singleton_append]
    · have none := refused y (List.mem_append_right before List.mem_cons_self)
      cases none.symm.trans merged

/-- Inserting an alternative that is there already changes nothing. -/
lemma Exclusive.insert_eq_self (ex : Exclusive merge acc) (law : Lawful merge) (mem : x ∈ acc) :
    Alternatives.insert merge x acc = acc := by
  induction acc with
  | nil => cases mem
  | cons y acc ih =>
    have ex' := List.pairwise_cons.1 ex
    rcases List.mem_cons.1 mem with rfl | mem
    · exact insert_cons_of_some (law.self x)
    · rw [insert_cons_of_none (ex'.1 x mem).1, ih ex'.2 mem]

/-- Inserting what is there already changes nothing. -/
lemma Exclusive.insertAll_eq_self (ex : Exclusive merge acc) (law : Lawful merge)
    (present : ∀ x ∈ xs, x ∈ acc) : Alternatives.insertAll merge acc xs = acc := by
  induction xs with
  | nil => rfl
  | cons x xs ih =>
    rw [List.forall_mem_cons] at present
    rw [insertAll_cons, ex.insert_eq_self law present.1, ih present.2]

/-- Of two lists of alternatives it does not matter which one is inserted into the other, but for
the order of the alternatives, if it does not matter in which order two of them are merged. -/
lemma Exclusive.insertAll_swap {f : α → β} (law : Lawful merge)
    (alike : ∀ {x y z w}, merge x y = some z → merge y x = some w → f z = f w)
    (ex : Exclusive merge xs) (ex' : Exclusive merge ys) :
    ((Alternatives.insertAll merge xs ys).map f).Perm
      ((Alternatives.insertAll merge ys xs).map f) := by
  -- each step takes one alternative off the second list, and off the first list the one that accepts it
  induction ys generalizing xs with
  | nil => rw [insertAll_nil, @Exclusive.insertAll_append _ _ [] xs ex, List.nil_append]
  | cons y ys ih =>
    obtain ⟨apart, ex'⟩ := List.pairwise_cons.1 ex'
    rw [insertAll_cons]
    obtain ⟨refused, new⟩ | ⟨before, x, after, z, rfl, refused, merged, new⟩ :=
      insert_cases merge y xs
    · have aside := insertAll_aside xs [] fun u mem => (apart u mem).1
      rw [List.append_nil] at aside
      rw [new, insertAll_cons_of_refused fun e mem => law.symm (refused e mem)]
      exact (aside.map f).trans ((ih ex ex').cons (f y))
    · obtain ⟨ahead, behind, across⟩ := List.pairwise_append.1 ex
      rw [List.pairwise_cons] at behind
      obtain ⟨w, merged'⟩ : ∃ w, merge y x = some w := by
        rw [← Option.ne_none_iff_exists']
        intro none
        cases (law.symm none).symm.trans merged
      have rest : Exclusive merge (before ++ after) := by
        refine List.pairwise_append.2 ⟨ahead, behind.2, fun e mem u inside => ?_⟩
        exact across e mem u (List.mem_cons_of_mem x inside)
      have left : (Alternatives.insertAll merge (before ++ z :: after) ys).Perm
          (z :: Alternatives.insertAll merge (before ++ after) ys) :=
        insertAll_aside before after fun u mem => law.last merged (apart u mem).1
      have right : Alternatives.insertAll merge (y :: ys) (before ++ x :: after) =
          w :: Alternatives.insertAll merge ys (before ++ after) := by
        rw [Alternatives.insertAll_append,
          insertAll_cons_of_refused fun e mem => law.symm (refused e mem), insertAll_cons,
          insert_cons_of_some merged',
          insertAll_cons_of_refused fun u mem => law.last merged' (behind.1 u mem).1,
          ← Alternatives.insertAll_append]
      rw [new, right, List.map_cons, ← alike merged merged']
      exact (left.map f).trans ((ih rest ex').cons (f z))

end TypeRecovery.Alternatives
