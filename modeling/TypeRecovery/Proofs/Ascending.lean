import Mathlib.Data.List.Basic
import TypeRecovery.Ascending

/-!
# Members of ascending lists

Sorting and merging lose no member and invent none, and bisection finds a member by its key.
-/

namespace TypeRecovery.Ascending

variable {α : Type}

/-- An order in which of two different members one is smaller. -/
def Total (lt : α → α → Bool) : Prop :=
  ∀ x y, lt x y = false → lt y x = false → x = y

/-- Putting `x` in its place adds `x` and nothing else. -/
lemma mem_insertNew {lt : α → α → Bool} (total : Total lt) {x y : α} {ys : List α} :
    y ∈ insertNew lt x ys ↔ y = x ∨ y ∈ ys := by
  induction ys with
  | nil => simp [insertNew]
  | cons z zs ih =>
    simp only [insertNew]
    split
    · simp
    · split
      · simp only [List.mem_cons, ih]
        tauto
      · -- neither is smaller, so `x` is there already
        rename_i not_lt not_gt
        obtain rfl := total x z (by simpa using not_lt) (by simpa using not_gt)
        simp

/-- An ascending list has the members of the list it was made from. -/
lemma mem_ofList {lt : α → α → Bool} (total : Total lt) {y : α} {xs : List α} :
    y ∈ ofList lt xs ↔ y ∈ xs := by
  induction xs with
  | nil => simp [ofList]
  | cons x xs ih =>
    have ih : y ∈ xs.foldr (insertNew lt) [] ↔ y ∈ xs := ih
    rw [ofList, List.foldr_cons, mem_insertNew total, ih, List.mem_cons]

/-- Putting `x` in its place keeps a list ascending. -/
lemma ascending_insertNew {lt : α → α → Bool} (total : Total lt)
    (trans : ∀ {x y z}, lt x y = true → lt y z = true → lt x z = true) {x : α} {ys : List α}
    (ascending : ys.Pairwise fun y z => lt y z = true) :
    (insertNew lt x ys).Pairwise fun y z => lt y z = true := by
  induction ys with
  | nil => exact List.pairwise_singleton _ _
  | cons y ys ih =>
    obtain ⟨first, rest⟩ := List.pairwise_cons.1 ascending
    simp only [insertNew]
    split
    · rename_i below
      refine List.pairwise_cons.2 ⟨List.forall_mem_cons.2 ⟨below, ?_⟩, ascending⟩
      exact fun z mem => trans below (first z mem)
    · split
      · rename_i above
        refine List.pairwise_cons.2 ⟨fun z mem => ?_, ih rest⟩
        rcases (mem_insertNew total).1 mem with rfl | mem
        · exact above
        · exact first z mem
      · exact ascending

/-- A list that is made ascending is so. -/
lemma ascending_ofList {lt : α → α → Bool} (total : Total lt)
    (trans : ∀ {x y z}, lt x y = true → lt y z = true → lt x z = true) (xs : List α) :
    (ofList lt xs).Pairwise fun y z => lt y z = true := by
  induction xs with
  | nil => exact .nil
  | cons x xs ih => exact ascending_insertNew total trans ih

/-- Putting `x` in its place among others that may repeat adds `x` and nothing else. -/
lemma mem_insert {le : α → α → Bool} {x y : α} {ys : List α} :
    y ∈ insert le x ys ↔ y = x ∨ y ∈ ys := by
  induction ys with
  | nil => simp [insert]
  | cons z zs ih =>
    simp only [insert]
    split
    · simp
    · simp only [List.mem_cons, ih]
      tauto

/-- A sorted list has the members of the list it was made from. -/
lemma mem_sort {le : α → α → Bool} {y : α} {xs : List α} : y ∈ sort le xs ↔ y ∈ xs := by
  induction xs with
  | nil => simp [sort]
  | cons x xs ih =>
    have ih : y ∈ xs.foldr (insert le) [] ↔ y ∈ xs := ih
    rw [sort, List.foldr_cons, mem_insert, ih, List.mem_cons]

/-- Dropping repetitions invents no member. -/
lemma mem_of_mem_distinct [DecidableEq α] {y : α} {xs : List α} (mem : y ∈ distinct xs) :
    y ∈ xs := by
  induction xs with
  | nil => simp [distinct] at mem
  | cons x xs ih =>
    rcases List.mem_cons.1 mem with rfl | mem
    · exact List.mem_cons_self
    · exact List.mem_cons_of_mem _ (ih (List.mem_of_mem_filter mem))

/-- Dropping repetitions loses no member. -/
lemma mem_distinct [DecidableEq α] {y : α} {xs : List α} : y ∈ distinct xs ↔ y ∈ xs := by
  refine ⟨mem_of_mem_distinct, fun mem => ?_⟩
  induction xs with
  | nil => cases mem
  | cons x xs ih =>
    by_cases same : y = x
    · exact same ▸ List.mem_cons_self
    · refine List.mem_cons_of_mem _ (List.mem_filter.2 ⟨ih ?_, by simpa using same⟩)
      exact (List.mem_cons.1 mem).resolve_left same

/-- No member is left twice when repetitions are dropped. -/
lemma nodup_distinct [DecidableEq α] (xs : List α) : (distinct xs).Nodup := by
  induction xs with
  | nil => exact .nil
  | cons x xs ih =>
    rw [distinct, List.nodup_cons]
    exact ⟨by simp, ih.filter _⟩

/-- What repeats a member is no other member. -/
lemma mem_dropRepeated [DecidableEq α] {y : α} {xs : List α} :
    y ∈ dropRepeated xs ↔ y ∈ xs := by
  fun_induction dropRepeated xs with
  | case1 => rfl
  | case2 x => rfl
  | case3 x zs ih => simp [ih]
  | case4 x z zs ne ih => simp only [List.mem_cons, ih]

/-- Two values are in one group if they are the values of members with one key. -/
lemma mem_groups {κ β : Type} [DecidableEq κ] {lt : κ → κ → Bool} (total : Total lt)
    {key : α → κ} {value : α → β} {xs : List α} {v w : β} :
    (∃ group ∈ (ofList lt (xs.map key)).map fun k =>
        (xs.filter fun x => key x = k).map value, v ∈ group ∧ w ∈ group) ↔
      ∃ x ∈ xs, ∃ y ∈ xs, key x = key y ∧ value x = v ∧ value y = w := by
  constructor
  · rintro ⟨group, mem, inv, inw⟩
    obtain ⟨k, _, rfl⟩ := List.mem_map.1 mem
    obtain ⟨x, memx, rfl⟩ := List.mem_map.1 inv
    obtain ⟨y, memy, rfl⟩ := List.mem_map.1 inw
    simp only [List.mem_filter, decide_eq_true_eq] at memx memy
    exact ⟨x, memx.1, y, memy.1, memx.2.trans memy.2.symm, rfl, rfl⟩
  · rintro ⟨x, memx, y, memy, same, rfl, rfl⟩
    refine ⟨_, List.mem_map.2 ⟨key x, ?_, rfl⟩, ?_, ?_⟩
    · exact (mem_ofList total).2 (List.mem_map_of_mem memx)
    · exact List.mem_map_of_mem (List.mem_filter.2 ⟨memx, by simp⟩)
    · exact List.mem_map_of_mem (List.mem_filter.2 ⟨memy, by simp [same]⟩)

/-- Merging two disjoint parts of a list of ascending keys gives the part that is in either. -/
lemma merge_filter {key : α → Nat} {p q : α → Bool} {l : List α}
    (asc : l.Pairwise fun x y => key x < key y) (disj : ∀ x ∈ l, p x = true → q x = false) :
    (l.filter p).merge (l.filter q) (fun x y => decide (key x ≤ key y)) =
      l.filter fun x => p x || q x := by
  induction l with
  | nil => simp
  | cons x l ih =>
    obtain ⟨below, asc⟩ := List.pairwise_cons.1 asc
    have ih := ih asc fun y mem => disj y (List.mem_cons_of_mem _ mem)
    have disj_x := disj x List.mem_cons_self
    cases hp : p x with
    | true =>
      have hq := disj_x hp
      simp only [List.filter_cons, hp, hq, if_true, Bool.true_or, Bool.false_eq_true, if_false]
      cases h : l.filter q with
      | nil => rw [h, List.merge_right] at ih; rw [List.merge_right, ih]
      | cons y ys =>
        have mem : y ∈ l := List.mem_of_mem_filter (h ▸ List.mem_cons_self)
        rw [List.cons_merge_cons_pos _ _ _ (by simpa using Nat.le_of_lt (below y mem)), ← h, ih]
    | false =>
      cases hq : q x with
      | false => simpa [List.filter_cons, hp, hq] using ih
      | true =>
        simp only [List.filter_cons, hp, hq, if_true, Bool.false_or, Bool.false_eq_true, if_false]
        cases h : l.filter p with
        | nil => rw [h, List.nil_merge] at ih; rw [List.nil_merge, ih]
        | cons y ys =>
          have mem : y ∈ l := List.mem_of_mem_filter (h ▸ List.mem_cons_self)
          rw [List.cons_merge_cons_neg _ _ _ (by simpa using below y mem), ← h, ih]

/-! ## Bisection -/

section
variable {key : α → Nat} {xs : List α} {x : α}

/-- A key below that of the middle is in the first half. -/
lemma mem_take_of_key_lt (ascending : xs.Pairwise fun y z => key y < key z) (mem : x ∈ xs)
    {h : Nat} (lt : h < xs.length) (below : key x < key xs[h]) : x ∈ xs.take h := by
  obtain ⟨i, inside, rfl⟩ := List.getElem_of_mem mem
  have left : i < h := by
    by_contra right
    rcases Nat.lt_or_eq_of_le (Nat.le_of_not_lt right) with gt | e
    · have above := List.pairwise_iff_getElem.1 ascending h i lt inside gt
      omega
    · simp [e] at below
  exact List.mem_take_iff_getElem.2 ⟨i, by omega, rfl⟩

/-- A key that is not below that of the middle is in the second half. -/
lemma mem_drop_of_key_le (ascending : xs.Pairwise fun y z => key y < key z) (mem : x ∈ xs)
    {h : Nat} (lt : h < xs.length) (above : ¬ key x < key xs[h]) : x ∈ xs.drop h := by
  obtain ⟨i, inside, rfl⟩ := List.getElem_of_mem mem
  have right : h ≤ i := by
    by_contra left
    exact above (List.pairwise_iff_getElem.1 ascending i h inside lt (Nat.lt_of_not_le left))
  exact List.mem_drop_iff_getElem.2 ⟨i - h, by omega, by simp [Nat.add_sub_cancel' right]⟩

/-- Bisection with enough steps finds a member by its key. -/
lemma bisectWithin_of_mem {steps : Nat} (ascending : xs.Pairwise fun y z => key y < key z)
    (mem : x ∈ xs) (enough : xs.length ≤ steps + 1) :
    bisectWithin key (key x) steps xs = some x := by
  induction steps generalizing xs with
  | zero =>
    match xs, mem, enough with
    | [y], mem, _ =>
      cases List.mem_singleton.1 mem
      simp [bisectWithin]
  | succ steps ih =>
    match xs, ascending, mem, enough with
    | [y], _, mem, _ =>
      cases List.mem_singleton.1 mem
      simp [bisectWithin]
    | y :: z :: rest, ascending, mem, enough =>
      generalize whole : y :: z :: rest = xs at ascending mem enough
      have length : 2 ≤ xs.length := by simp [← whole]
      have half : xs.length / 2 < xs.length := by omega
      have unfolded : bisectWithin key (key x) (steps + 1) xs =
          if key x < key xs[xs.length / 2] then
            bisectWithin key (key x) steps (xs.take (xs.length - xs.length / 2))
          else bisectWithin key (key x) steps (xs.drop (xs.length / 2)) := by
        subst whole
        simp only [bisectWithin, List.getElem?_eq_getElem half]
      rw [unfolded]
      split
      · -- the first half may be longer by one than what is below the middle
        rename_i below
        refine ih (ascending.sublist (List.take_sublist _ _)) ?_ ?_
        · exact List.take_subset_take_left xs (by omega)
            (mem_take_of_key_lt ascending mem half below)
        · rw [List.length_take]
          omega
      · rename_i above
        refine ih (ascending.sublist (List.drop_sublist _ _)) ?_ ?_
        · exact mem_drop_of_key_le ascending mem half above
        · rw [List.length_drop]
          omega

/-- Bisection finds a member by its key. -/
lemma bisect_of_mem (ascending : xs.Pairwise fun y z => key y < key z) (mem : x ∈ xs) :
    bisect key (key x) xs = some x :=
  bisectWithin_of_mem ascending mem (Nat.le_succ _)

/-- What is found is there, under the key that was looked for, in whatever order the list is. -/
lemma of_bisectWithin {steps k : Nat} (found : bisectWithin key k steps xs = some x) :
    x ∈ xs ∧ key x = k := by
  fun_induction bisectWithin key k steps xs with
  | case1 => cases found
  | case2 _ y here =>
    cases found
    exact ⟨List.mem_singleton_self _, here⟩
  | case3 => cases found
  | case4 => cases found
  | case5 steps xs _ _ half middle _ _ ih =>
    obtain ⟨mem, here⟩ := ih found
    exact ⟨List.mem_of_mem_take mem, here⟩
  | case6 steps xs _ _ half middle _ _ ih =>
    obtain ⟨mem, here⟩ := ih found
    exact ⟨List.mem_of_mem_drop mem, here⟩
  | case7 => cases found

/-- Bisection finds a member if there is one with the key. -/
lemma bisect_eq_some (ascending : xs.Pairwise fun y z => key y < key z) {k : Nat} :
    bisect key k xs = some x ↔ x ∈ xs ∧ key x = k := by
  constructor
  · exact of_bisectWithin
  · rintro ⟨mem, rfl⟩
    exact bisect_of_mem ascending mem

end

end TypeRecovery.Ascending
