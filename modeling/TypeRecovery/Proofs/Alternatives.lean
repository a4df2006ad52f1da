import Mathlib.Data.List.Basic
import TypeRecovery.Alternatives

/-!
# Where an alternative goes

Facts about `insert` that hold for any partial merge: the members of a list of alternatives after an
insertion are the old ones, the new one, or one of the old ones merged with the new one.
-/

namespace TypeRecovery.Alternatives

variable {α : Type} {merge : α → α → Option α} {x y z : α} {acc : List α}

/-- An alternative that the first one accepts is merged into it. -/
lemma insert_cons_of_some (merged : merge y x = some z) : insert merge x (y :: acc) = z :: acc := by
  simp only [insert, merged]

/-- An alternative that the first one refuses is handed on to the others. -/
lemma insert_cons_of_none (refused : merge y x = none) :
    insert merge x (y :: acc) = y :: insert merge x acc := by
  simp only [insert, refused]

/-- What is there after an insertion was there before, is new, or is merged from the two. -/
lemma mem_insert (mem : z ∈ insert merge x acc) :
    z ∈ acc ∨ z = x ∨ ∃ y ∈ acc, merge y x = some z := by
  induction acc with
  | nil => exact .inr (.inl (List.mem_singleton.1 mem))
  | cons y acc ih =>
    cases merged : merge y x with
    | some w =>
      rw [insert_cons_of_some merged] at mem
      rcases List.mem_cons.1 mem with rfl | mem
      · exact .inr (.inr ⟨y, List.mem_cons_self, merged⟩)
      · exact .inl (List.mem_cons_of_mem y mem)
    | none =>
      rw [insert_cons_of_none merged] at mem
      rcases List.mem_cons.1 mem with rfl | mem
      · exact .inl List.mem_cons_self
      · rcases ih mem with old | new | ⟨u, inside, e⟩
        · exact .inl (List.mem_cons_of_mem y old)
        · exact .inr (.inl new)
        · exact .inr (.inr ⟨u, List.mem_cons_of_mem y inside, e⟩)

/-- An alternative is still there after an insertion, alone or merged with the new one. -/
lemma mem_insert_of_mem (x : α) (mem : y ∈ acc) :
    y ∈ insert merge x acc ∨ ∃ z ∈ insert merge x acc, merge y x = some z := by
  induction acc with
  | nil => cases mem
  | cons u acc ih =>
    cases merged : merge u x with
    | some w =>
      rw [insert_cons_of_some merged]
      rcases List.mem_cons.1 mem with rfl | mem
      · exact .inr ⟨w, List.mem_cons_self, merged⟩
      · exact .inl (List.mem_cons_of_mem w mem)
    | none =>
      rw [insert_cons_of_none merged]
      rcases List.mem_cons.1 mem with rfl | mem
      · exact .inl List.mem_cons_self
      · rcases ih mem with old | ⟨z, inside, e⟩
        · exact .inl (List.mem_cons_of_mem u old)
        · exact .inr ⟨z, List.mem_cons_of_mem u inside, e⟩

/-- The new alternative is there after its insertion, alone or merged with an old one. -/
lemma self_mem_insert (x : α) (acc : List α) :
    x ∈ insert merge x acc ∨ ∃ y ∈ acc, ∃ z ∈ insert merge x acc, merge y x = some z := by
  induction acc with
  | nil => exact .inl (List.mem_singleton_self x)
  | cons u acc ih =>
    cases merged : merge u x with
    | some w =>
      rw [insert_cons_of_some merged]
      exact .inr ⟨u, List.mem_cons_self, w, List.mem_cons_self, merged⟩
    | none =>
      rw [insert_cons_of_none merged]
      rcases ih with new | ⟨y, mem, z, inside, e⟩
      · exact .inl (List.mem_cons_of_mem u new)
      · exact .inr ⟨y, List.mem_cons_of_mem u mem, z, List.mem_cons_of_mem u inside, e⟩

/-- What holds of the alternatives and of what they merge to holds after any insertions. -/
lemma forall_mem_insertAll {P : α → Prop}
    (closed : ∀ {y x z}, P y → P x → merge y x = some z → P z) {xs : List α}
    (old : ∀ y ∈ acc, P y) (new : ∀ x ∈ xs, P x) : ∀ z ∈ insertAll merge acc xs, P z := by
  induction xs generalizing acc with
  | nil => exact old
  | cons x xs ih =>
    rw [List.forall_mem_cons] at new
    apply ih _ new.2
    intro z mem
    rcases mem_insert mem with mem | rfl | ⟨y, mem, merged⟩
    · exact old z mem
    · exact new.1
    · exact closed (old y mem) new.1 merged

/-- If merging keeps what its parts stand for, insertions lose no alternative. -/
lemma exists_mem_insertAll {R : α → α → Prop} (refl : ∀ x, R x x)
    (trans : ∀ {x y z}, R x y → R y z → R x z)
    (keeps : ∀ {y x z}, merge y x = some z → R z y ∧ R z x) {xs : List α}
    (mem : y ∈ acc ∨ y ∈ xs) : ∃ z ∈ insertAll merge acc xs, R z y := by
  induction xs generalizing acc y with
  | nil => exact ⟨y, mem.resolve_right List.not_mem_nil, refl y⟩
  | cons x xs ih =>
    rcases mem with old | new
    · rcases mem_insert_of_mem x old with kept | ⟨u, inside, merged⟩
      · exact ih (.inl kept)
      · obtain ⟨z, found, covers⟩ := ih (.inl inside)
        exact ⟨z, found, trans covers (keeps merged).1⟩
    rcases List.mem_cons.1 new with rfl | later
    · rcases self_mem_insert y acc with kept | ⟨_, _, u, inside, merged⟩
      · exact ih (.inl kept)
      · obtain ⟨z, found, covers⟩ := ih (.inl inside)
        exact ⟨z, found, trans covers (keeps merged).2⟩
    · exact ih (.inr later)

end TypeRecovery.Alternatives
