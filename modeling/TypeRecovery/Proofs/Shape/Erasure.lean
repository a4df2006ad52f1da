import TypeRecovery.Proofs.Alternatives
import TypeRecovery.Proofs.Shape.Merge
import TypeRecovery.DataType.Join

/-!
# Erasure and joins

Types and shapes are joined by two different merges: shapes merge structs, and all pointers and all
functions have one shape. Where types merge, so do their shapes, to the shape of what they merge to
(`merge?_ofType`), and types that do not merge have shapes that are apart (`apart_ofType`). So the
shapes of the alternatives of a join are apart, and only merges of kin are left to do. Those can be
done in any order, so the shape of the join, its alternatives joined anew, is the join of the shapes
(`join_unknown_ofType_join`).
-/

namespace TypeRecovery

namespace Shape

/-! ## Alternatives that are apart -/

section
variable {x y z q : Shape} {acc : List Shape}

/-- What is merged in its turn goes where the first of its parts goes. -/
lemma insert_insert (apart_y : ∀ e ∈ acc, Apart e y) (apart_x : ∀ e ∈ acc, Apart e x)
    (merged : merge? y x = some z) :
    Alternatives.insert merge? x (Alternatives.insert merge? y acc) =
      Alternatives.insert merge? z acc := by
  induction acc with
  | nil => exact Alternatives.insert_cons_of_some merged
  | cons e acc ih =>
    rw [List.forall_mem_cons] at apart_y apart_x
    by_cases comp : Compatible e y
    · have kin := apart_y.1 comp
      obtain ⟨u, here⟩ := exists_of_compatible comp
      obtain ⟨v, there⟩ : ∃ v, merge? u x = some v := by
        apply exists_of_compatible
        exact (kin.of_merge? here).compatible_iff.2 (compatible_of_merge? merged)
      have whole := kin.merge?_assoc here merged
      rw [there] at whole
      rw [Alternatives.insert_cons_of_some here, Alternatives.insert_cons_of_some there,
        Alternatives.insert_cons_of_some whole.symm]
    · have refused_x : ¬ Compatible e x := by
        intro comp_x
        apply comp
        exact (apart_x.1 comp_x).compatible_iff.2 (compatible_of_merge? merged).symm
      have refused_z : ¬ Compatible e z := fun comp_z => comp (comp_z.of_merge? merged)
      rw [Alternatives.insert_cons_of_none (merge?_eq_none comp),
        Alternatives.insert_cons_of_none (merge?_eq_none refused_x),
        Alternatives.insert_cons_of_none (merge?_eq_none refused_z), ih apart_y.2 apart_x.2]

/-- A shape that has its place can be inserted before one that is apart from all. -/
lemma insert_comm (placed : ∃ e ∈ acc, Compatible e x) (apart : ∀ e ∈ acc, Apart e q) :
    Alternatives.insert merge? x (Alternatives.insert merge? q acc) =
      Alternatives.insert merge? q (Alternatives.insert merge? x acc) := by
  induction acc with
  | nil => simp at placed
  | cons e acc ih =>
    -- the first alternative stays kin to what it was, whichever of the two shapes it takes, so it
    -- takes the same ones in either order
    rw [List.forall_mem_cons] at apart
    by_cases comp_x : Compatible e x
    · obtain ⟨u, merged_x⟩ := exists_of_compatible comp_x
      by_cases comp_q : Compatible e q
      · have kin := apart.1 comp_q
        obtain ⟨v, merged_q⟩ := exists_of_compatible comp_q
        obtain ⟨w, both⟩ := exists_of_compatible (kin.of_merge? merged_x).compatible
        have both' := kin.merge?_comm merged_x merged_q
        rw [both] at both'
        rw [Alternatives.insert_cons_of_some merged_q, Alternatives.insert_cons_of_some both'.symm,
          Alternatives.insert_cons_of_some merged_x, Alternatives.insert_cons_of_some both]
      · have refused : ¬ Compatible u q := fun comp => comp_q (comp.symm.of_merge? merged_x).symm
        rw [Alternatives.insert_cons_of_none (merge?_eq_none comp_q),
          Alternatives.insert_cons_of_some merged_x, Alternatives.insert_cons_of_some merged_x,
          Alternatives.insert_cons_of_none (merge?_eq_none refused)]
    · by_cases comp_q : Compatible e q
      · have kin := apart.1 comp_q
        obtain ⟨v, merged_q⟩ := exists_of_compatible comp_q
        have refused : ¬ Compatible v x := by
          rwa [((kin.of_merge? merged_q).trans kin.symm).compatible_iff]
        rw [Alternatives.insert_cons_of_some merged_q,
          Alternatives.insert_cons_of_none (merge?_eq_none refused),
          Alternatives.insert_cons_of_none (merge?_eq_none comp_x),
          Alternatives.insert_cons_of_some merged_q]
      · have placed : ∃ e ∈ acc, Compatible e x := by
          obtain ⟨e', mem, comp⟩ := placed
          rcases List.mem_cons.1 mem with rfl | mem
          · exact absurd comp comp_x
          · exact ⟨e', mem, comp⟩
        rw [Alternatives.insert_cons_of_none (merge?_eq_none comp_q),
          Alternatives.insert_cons_of_none (merge?_eq_none comp_x),
          Alternatives.insert_cons_of_none (merge?_eq_none comp_x),
          Alternatives.insert_cons_of_none (merge?_eq_none comp_q), ih placed apart.2]

/-- What is apart from a new shape and from the others is apart from all after an insertion. -/
lemma apart_insert (apart : ∀ e ∈ acc, Apart e q) (new : Apart y q) :
    ∀ e ∈ Alternatives.insert merge? y acc, Apart e q := by
  intro e mem
  rcases Alternatives.mem_insert mem with old | rfl | ⟨u, inside, merged⟩
  · exact apart e old
  · exact new
  · exact (apart u inside).of_merge? merged

/-- A shape that has its place can be inserted before any that are apart from all. -/
lemma insert_insertAll {qs : List Shape} (placed : ∃ e ∈ acc, Compatible e x)
    (apart : ∀ q ∈ qs, ∀ e ∈ acc, Apart e q) (pairwise : qs.Pairwise Apart) :
    Alternatives.insert merge? x (Alternatives.insertAll merge? acc qs) =
      Alternatives.insertAll merge? (Alternatives.insert merge? x acc) qs := by
  induction qs generalizing acc with
  | nil => rfl
  | cons q qs ih =>
    rw [List.forall_mem_cons] at apart
    rw [List.pairwise_cons] at pairwise
    have placed' : ∃ e ∈ Alternatives.insert merge? q acc, Compatible e x := by
      obtain ⟨e, mem, comp⟩ := placed
      rcases Alternatives.mem_insert_of_mem q mem with old | ⟨u, inside, merged⟩
      · exact ⟨e, old, comp⟩
      · have kin := apart.1 e mem (compatible_of_merge? merged)
        exact ⟨u, inside, ((kin.of_merge? merged).trans kin.symm).compatible_iff.2 comp⟩
    have apart' : ∀ r ∈ qs, ∀ e ∈ Alternatives.insert merge? q acc, Apart e r :=
      fun r mem => apart_insert (apart.2 r mem) (pairwise.1 r mem)
    rw [Alternatives.insertAll_cons, ih placed' apart' pairwise.2, insert_comm placed apart.1,
      Alternatives.insertAll_cons]

end

/-! ## Merging types and their shapes -/

/-- What merging two types says of their shapes. -/
inductive Reflects (a b : DataType) : Option DataType → Prop
  | merged {c} : merge? (ofType a) (ofType b) = some (ofType c) → Reflects a b (some c)
  | refused : Apart (ofType a) (ofType b) → Reflects a b none

/-- A merge that looks deep enough reflects on shapes, if one that looks less deep does so for the
parts. -/
lemma reflects_mergeWithin_of {depth : Nat} {a b : DataType} (ha : a.nesting ≤ depth)
    (hb : b.nesting ≤ depth)
    (deeper : ∀ d, depth = d + 1 → ∀ {a b : DataType}, a.nesting ≤ d → b.nesting ≤ d →
      Reflects a b (DataType.mergeWithin d a b)) :
    Reflects a b (DataType.mergeWithin depth a b) := by
  rw [DataType.mergeWithin.eq_def]
  split
  · rename_i void
    subst void
    exact .merged merge?_unknown_left
  split
  · rename_i void
    subst void
    exact .merged merge?_unknown_right
  split
  · rename_i same
    subst same
    exact .merged merge?_self
  split
  · exact .merged merge?_integer
  · exact .merged rfl
  · exact .merged rfl
  · exact .merged rfl
  · have inner := deeper _ rfl (Nat.le_of_succ_le_succ ha) (Nat.le_of_succ_le_succ hb)
    generalize DataType.mergeWithin _ _ _ = m at inner
    cases inner with
    | merged inner => exact .merged (by simp [ofType, inner])
    | refused apart =>
      exact .refused fun comp => .arrays _ _ (apart (compatible_array.1 comp))
  · split <;> exact .merged rfl
  · rename_i arrays functions
    -- nothing else is merged, so the shapes that are compatible nevertheless have to be kin
    apply Reflects.refused
    intro comp
    cases a with
    | struct m fields =>
      cases b with
      | struct n fields' => exact .aggregates m n
      | _ => contradiction
    | union ts =>
      cases b with
      | union ts' => exact Apart.union comp
      | _ => contradiction
    | array e l =>
      cases b with
      | array e' l' =>
        obtain ⟨d, rfl⟩ := Nat.exists_eq_succ_of_ne_zero (Nat.ne_zero_of_lt ha)
        exact absurd rfl (arrays d e l e' l' rfl rfl)
      | _ => contradiction
    | function ps r u =>
      cases b with
      | function ps' r' u' =>
        obtain ⟨d, rfl⟩ := Nat.exists_eq_succ_of_ne_zero (Nat.ne_zero_of_lt ha)
        exact absurd rfl (functions d ps r u ps' r' u' rfl rfl)
      | _ => contradiction
    | _ => cases b <;> first | contradiction | grind

/-- A merge that looks as deep as the types are nested reflects on their shapes. -/
lemma reflects_mergeWithin {depth : Nat} {a b : DataType} (ha : a.nesting ≤ depth)
    (hb : b.nesting ≤ depth) : Reflects a b (DataType.mergeWithin depth a b) := by
  induction depth generalizing a b with
  | zero => exact reflects_mergeWithin_of ha hb nofun
  | succ depth ih =>
    apply reflects_mergeWithin_of ha hb
    rintro d ⟨⟩
    exact ih

/-- Where types merge, their shapes merge to the shape of what they merge to. -/
lemma merge?_ofType {a b c : DataType} (merged : DataType.merge? a b = some c) :
    merge? (ofType a) (ofType b) = some (ofType c) := by
  have reflects : Reflects a b (DataType.merge? a b) :=
    reflects_mergeWithin (Nat.le_max_left _ _) (Nat.le_max_right _ _)
  rw [merged] at reflects
  cases reflects with
  | merged merged => exact merged

/-- Types that do not merge have shapes that are apart. -/
lemma apart_ofType {a b : DataType} (refused : DataType.merge? a b = none) :
    Apart (ofType a) (ofType b) := by
  have reflects : Reflects a b (DataType.merge? a b) :=
    reflects_mergeWithin (Nat.le_max_left _ _) (Nat.le_max_right _ _)
  rw [refused] at reflects
  cases reflects with
  | refused apart => exact apart

/-! ## Inserting types and their shapes -/

section
variable {x : DataType} {acc : List DataType}

/-- Alternatives of a type that cannot be merged have shapes that are apart. -/
lemma pairwise_insert (pairwise : (acc.map ofType).Pairwise Apart) :
    ((Alternatives.insert DataType.merge? x acc).map ofType).Pairwise Apart := by
  induction acc with
  | nil => simp [Alternatives.insert]
  | cons y acc ih =>
    rw [List.map_cons, List.pairwise_cons] at pairwise
    cases merged : DataType.merge? y x with
    | some z =>
      rw [Alternatives.insert_cons_of_some merged, List.map_cons, List.pairwise_cons]
      exact ⟨fun e mem => (pairwise.1 e mem).of_merge? (merge?_ofType merged), pairwise.2⟩
    | none =>
      rw [Alternatives.insert_cons_of_none merged, List.map_cons, List.pairwise_cons]
      refine ⟨?_, ih pairwise.2⟩
      intro e mem
      obtain ⟨t, inserted, rfl⟩ := List.mem_map.1 mem
      rcases Alternatives.mem_insert inserted with old | rfl | ⟨u, inside, merged'⟩
      · exact pairwise.1 _ (List.mem_map_of_mem old)
      · exact apart_ofType merged
      · have apart := pairwise.1 _ (List.mem_map_of_mem inside)
        exact (apart.symm.of_merge? (merge?_ofType merged')).symm

/-- Inserting a type and then its shape in the place of its alternatives is inserting the shape. -/
lemma insertAll_insert {shapes : List Shape} (pairwise : (acc.map ofType).Pairwise Apart)
    (apart : ∀ q ∈ acc.map ofType, ∀ e ∈ shapes, Apart e q)
    (apart_x : ∀ e ∈ shapes, Apart e (ofType x)) :
    Alternatives.insertAll merge? shapes ((Alternatives.insert DataType.merge? x acc).map ofType) =
      Alternatives.insert merge? (ofType x)
        (Alternatives.insertAll merge? shapes (acc.map ofType)) := by
  induction acc generalizing shapes with
  | nil => rfl
  | cons y acc ih =>
    rw [List.map_cons, List.pairwise_cons] at pairwise
    rw [List.map_cons, List.forall_mem_cons] at apart
    have apart' : ∀ q ∈ acc.map ofType,
        ∀ e ∈ Alternatives.insert merge? (ofType y) shapes, Apart e q :=
      fun q mem => apart_insert (apart.2 q mem) (pairwise.1 q mem)
    cases merged : DataType.merge? y x with
    | some z =>
      have merged' := merge?_ofType merged
      have placed : ∃ e ∈ Alternatives.insert merge? (ofType y) shapes, Compatible e (ofType x) := by
        rcases Alternatives.self_mem_insert (ofType y) shapes with new | ⟨e, mem, w, inside, found⟩
        · exact ⟨ofType y, new, compatible_of_merge? merged'⟩
        · have kin := apart.1 e mem (compatible_of_merge? found)
          exact ⟨w, inside, (kin.of_merge? found).compatible_iff.2 (compatible_of_merge? merged')⟩
      rw [Alternatives.insert_cons_of_some merged, List.map_cons, List.map_cons,
        Alternatives.insertAll_cons, Alternatives.insertAll_cons,
        insert_insertAll placed apart' pairwise.2, insert_insert apart.1 apart_x merged']
    | none =>
      rw [Alternatives.insert_cons_of_none merged, List.map_cons, List.map_cons,
        Alternatives.insertAll_cons, Alternatives.insertAll_cons]
      exact ih pairwise.2 apart' (apart_insert apart_x (apart_ofType merged))

/-- Merging types first and then their shapes is merging the shapes. -/
lemma insertAll_insertAll {xs : List DataType} (pairwise : (acc.map ofType).Pairwise Apart) :
    Alternatives.insertAll merge? []
        ((Alternatives.insertAll DataType.merge? acc xs).map ofType) =
      Alternatives.insertAll merge? (Alternatives.insertAll merge? [] (acc.map ofType))
        (xs.map ofType) := by
  induction xs generalizing acc with
  | nil => rfl
  | cons x xs ih =>
    rw [Alternatives.insertAll_cons, ih (pairwise_insert pairwise),
      insertAll_insert pairwise (by simp) (by simp), List.map_cons, Alternatives.insertAll_cons]

end

/-! ## The alternatives of a join -/

/-- The shape is an alternative of its own. -/
def Single (s : Shape) : Prop :=
  s ≠ .unknown ∧ s.isConflict = false

/-- A merge of shapes that stand for themselves stands for itself. -/
lemma single_of_merge? {a b c : Shape} (first : Single a) (last : Single b)
    (merged : merge? a b = some c) : Single c := by
  cases merges_of_merge? merged with
  | unknownLeft => exact last
  | unknownRight => exact first
  | same => exact first
  | booleanLeft => exact last
  | booleanRight => exact first
  | _ => exact ⟨nofun, rfl⟩

mutual

/-- The alternatives of a shape stand for themselves. -/
lemma leaves_single : ∀ {s t : Shape}, t ∈ s.leaves → Single t
  | .unknown, _, mem => by cases mem
  | .union _, _, mem => leavesList_single mem
  | .boolean, _, mem => by cases List.mem_singleton.1 mem; exact ⟨nofun, rfl⟩
  | .integer _ _, _, mem => by cases List.mem_singleton.1 mem; exact ⟨nofun, rfl⟩
  | .pointer, _, mem => by cases List.mem_singleton.1 mem; exact ⟨nofun, rfl⟩
  | .code, _, mem => by cases List.mem_singleton.1 mem; exact ⟨nofun, rfl⟩
  | .array _ _, _, mem => by cases List.mem_singleton.1 mem; exact ⟨nofun, rfl⟩
  | .aggregate _, _, mem => by cases List.mem_singleton.1 mem; exact ⟨nofun, rfl⟩

/-- The alternatives of a list of shapes stand for themselves. -/
lemma leavesList_single : ∀ {ss : List Shape} {t : Shape}, t ∈ leavesList ss → Single t
  | [], _, mem => by cases mem
  | _ :: _, _, mem => by
    rcases List.mem_append.1 mem with mem | mem
    · exact leaves_single mem
    · exact leavesList_single mem

end

/-- A type whose shape stands for itself does so too. -/
lemma leaves_of_single {t : DataType} (single : Single (ofType t)) : t.leaves = [t] := by
  cases t with
  | void => exact absurd rfl single.1
  | union ts => cases single.2
  | _ => rfl

mutual

/-- The alternatives of a type have shapes that stand for themselves. -/
lemma single_of_mem_leaves : ∀ {t u : DataType}, u ∈ t.leaves → Single (ofType u)
  | .void, _, mem => by cases mem
  | .union _, _, mem => single_of_mem_leavesList mem
  | .boolean, _, mem => by cases List.mem_singleton.1 mem; exact ⟨nofun, rfl⟩
  | .integer _ _, _, mem => by cases List.mem_singleton.1 mem; exact ⟨nofun, rfl⟩
  | .pointer _, _, mem => by cases List.mem_singleton.1 mem; exact ⟨nofun, rfl⟩
  | .array _ _, _, mem => by cases List.mem_singleton.1 mem; exact ⟨nofun, rfl⟩
  | .struct _ _, _, mem => by cases List.mem_singleton.1 mem; exact ⟨nofun, rfl⟩
  | .function _ _ _, _, mem => by cases List.mem_singleton.1 mem; exact ⟨nofun, rfl⟩

/-- The alternatives of a list of types have shapes that stand for themselves. -/
lemma single_of_mem_leavesList : ∀ {ts : List DataType} {u : DataType},
    u ∈ DataType.leavesList ts → Single (ofType u)
  | [], _, mem => by cases mem
  | _ :: _, _, mem => by
    rcases List.mem_append.1 mem with mem | mem
    · exact single_of_mem_leaves mem
    · exact single_of_mem_leavesList mem

end

mutual

/-- The alternatives of the shape of a type are the shapes of its alternatives. -/
lemma leaves_ofType : ∀ t : DataType, leaves (ofType t) = t.leaves.map ofType
  | .union ts => leavesList_ofTypes ts
  | .void => rfl
  | .boolean => rfl
  | .integer _ _ => rfl
  | .pointer _ => rfl
  | .array _ _ => rfl
  | .struct _ _ => rfl
  | .function _ _ _ => rfl

/-- The alternatives of the shapes of types are the shapes of their alternatives. -/
lemma leavesList_ofTypes : ∀ ts : List DataType,
    leavesList (ofTypes ts) = (DataType.leavesList ts).map ofType
  | [] => rfl
  | t :: ts => by
    simp [ofTypes, leavesList, DataType.leavesList, leaves_ofType t, leavesList_ofTypes ts]

end

/-- A type that is made of alternatives has these alternatives. -/
lemma leaves_ofAlternatives {ts : List DataType} (single : ∀ t ∈ ts, Single (ofType t)) :
    (DataType.ofAlternatives ts).leaves = ts := by
  have each : DataType.leavesList ts = ts := by
    induction ts with
    | nil => rfl
    | cons t ts ih =>
      rw [List.forall_mem_cons] at single
      rw [DataType.leavesList, leaves_of_single single.1, ih single.2, List.singleton_append]
  match ts with
  | [] => rfl
  | [t] => exact leaves_of_single (single t (List.mem_singleton_self t))
  | _ :: _ :: _ => exact each

/-- The alternatives of a union of types are inserted one by one. -/
lemma leaves_unionOf (ts : List DataType) :
    (DataType.unionOf ts).leaves =
      Alternatives.insertAll DataType.merge? [] (DataType.leavesList ts) := by
  apply leaves_ofAlternatives
  apply Alternatives.forall_mem_insertAll
  · exact fun first last merged => single_of_merge? first last (merge?_ofType merged)
  · exact nofun
  · exact fun t mem => single_of_mem_leavesList mem

/-- A type that is known and no union has a shape that stands for itself. -/
lemma single_of_plain {t : DataType} (plain : t.isUnion = false) (known : t ≠ .void) :
    Single (ofType t) := by
  cases t with
  | void => exact absurd rfl known
  | union ts => cases plain
  | _ => exact ⟨nofun, rfl⟩

/-- The alternatives of a direct merge are those that an insertion of both types gives. -/
lemma leaves_of_merge? {a b c : DataType} (first : a.isUnion = false) (last : b.isUnion = false)
    (merged : DataType.merge? a b = some c) :
    c.leaves = Alternatives.insertAll DataType.merge? [] (a.leaves ++ b.leaves) := by
  by_cases left : a = .void
  · rw [DataType.merge?, DataType.mergeWithin.eq_def, if_pos left] at merged
    cases merged
    by_cases right : b = .void
    · rw [left, right]
      rfl
    · rw [left, leaves_of_single (single_of_plain last right)]
      rfl
  · have single := single_of_plain first left
    by_cases right : b = .void
    · rw [DataType.merge?, DataType.mergeWithin.eq_def, if_neg left, if_pos right] at merged
      cases merged
      rw [right, leaves_of_single single]
      rfl
    · have single' := single_of_plain last right
      have whole := single_of_merge? single single' (merge?_ofType merged)
      rw [leaves_of_single single, leaves_of_single single', leaves_of_single whole]
      exact (Alternatives.insert_cons_of_some merged).symm

/-- The alternatives of a join are those of both types, merged in the order in which they come. -/
lemma leaves_join (a b : DataType) :
    (a.join b).leaves = Alternatives.insertAll DataType.merge? [] (a.leaves ++ b.leaves) := by
  have union := leaves_unionOf [a, b]
  simp only [DataType.leavesList, List.append_nil] at union
  rw [DataType.join, DataType.joinWith]
  split
  · exact union
  · rename_i plain
    rw [Bool.not_eq_true, Bool.or_eq_false_iff] at plain
    cases merged : DataType.merge? a b with
    | none => exact union
    | some c => exact leaves_of_merge? plain.1 plain.2 merged

/-- Joining types and forgetting their classes gives, once its alternatives are joined anew, the
join of the shapes. -/
theorem join_unknown_ofType_join (a b : DataType) :
    Shape.join .unknown (.ofType (a.join b)) = Shape.join (.ofType a) (.ofType b) := by
  have merged := @insertAll_insertAll [] (a.leaves ++ b.leaves) .nil
  simp only [List.map_append, List.map_nil, Alternatives.insertAll_nil] at merged
  simp only [join, leavesList, leaves, leaves_ofType, leaves_join, List.nil_append, List.append_nil,
    merged]

end Shape

end TypeRecovery
