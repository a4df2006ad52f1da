import Mathlib.Data.List.Perm.Basic
import TypeRecovery.DataType.Join
import TypeRecovery.Proofs.Resolution.Agreement
import TypeRecovery.Proofs.Shape.Merge

/-!
# Joins of scalars

A list of booleans and integers is joined to an integer of the greatest width. Its sign is merged on
the way, and an unknown sign stands both for no evidence and for a conflict, so that evidence after a
conflict counts as if it were the first. A sign is contested if both signs are there and one of them
again: then the order of the list decides on the sign, and otherwise it does not matter
(`joinAll_scalars`).
-/

namespace TypeRecovery

/-! ## Merging signs -/

namespace Signedness

variable {k x : Signedness} {signs : List Signedness}

/-- The sign that contradicts a known one. -/
def opposite : Signedness → Signedness
  | .unknown => .unknown
  | .signed => .unsigned
  | .unsigned => .signed

/-- Merge signs in the order in which they come. -/
def mergeAll (signs : List Signedness) : Signedness :=
  signs.foldl merge .unknown

/-- The one known sign among some, and `unknown` if there is none or if both are there. -/
def agreed (signs : List Signedness) : Signedness :=
  if .signed ∈ signs ∧ .unsigned ∉ signs then .signed
  else if .unsigned ∈ signs ∧ .signed ∉ signs then .unsigned
  else .unknown

/-- Both known signs are there, and one of them again. -/
def Contested (signs : List Signedness) : Prop :=
  .signed ∈ signs ∧ .unsigned ∈ signs ∧ 2 < signs.count .signed + signs.count .unsigned

instance : Decidable (Contested signs) :=
  inferInstanceAs (Decidable (_ ∧ _ ∧ _))

/-- Two contradictions are none. -/
lemma opposite_opposite (k : Signedness) : k.opposite.opposite = k := by
  cases k <;> rfl

/-- What contradicts a known sign is a known sign. -/
lemma opposite_ne_unknown (known : k ≠ .unknown) : k.opposite ≠ .unknown := by
  cases k <;> simp_all [opposite]

/-- A known sign does not contradict itself. -/
lemma opposite_ne (known : k ≠ .unknown) : k.opposite ≠ k := by
  cases k <;> simp_all [opposite]

/-- A sign that does not contradict a known one is unknown or the same. -/
lemma eq_of_ne_opposite (known : k ≠ .unknown) (ne : x ≠ k.opposite) : x = .unknown ∨ x = k := by
  cases k <;> cases x <;> simp_all [opposite]

/-- An unknown sign adds nothing. -/
lemma merge_unknown : k.merge .unknown = k := by
  cases k <;> rfl

/-- A sign that comes after an unknown one counts alone. -/
lemma unknown_merge : unknown.merge k = k :=
  rfl

/-- A sign agrees with itself. -/
lemma merge_self : k.merge k = k := by
  cases k <;> rfl

/-- Signs that contradict each other leave nothing. -/
lemma merge_opposite : k.merge k.opposite = .unknown := by
  cases k <;> rfl

/-- A known sign stays as long as nothing contradicts it. -/
lemma foldl_merge_of_agree (known : k ≠ .unknown) (agree : k.opposite ∉ signs) :
    signs.foldl merge k = k := by
  induction signs with
  | nil => rfl
  | cons x signs ih =>
    rw [List.mem_cons, not_or] at agree
    rw [List.foldl_cons]
    rcases eq_of_ne_opposite known (Ne.symm agree.1) with rfl | rfl
    · rw [merge_unknown, ih agree.2]
    · rw [merge_self, ih agree.2]

/-- Signs that do not contradict a known one merge to it, if it is among them. -/
lemma mergeAll_of_agree (known : k ≠ .unknown) (agree : k.opposite ∉ signs) :
    mergeAll signs = if k ∈ signs then k else .unknown := by
  rw [mergeAll]
  induction signs with
  | nil => rfl
  | cons x signs ih =>
    rw [List.mem_cons, not_or] at agree
    rw [List.foldl_cons]
    rcases eq_of_ne_opposite known (Ne.symm agree.1) with rfl | rfl
    · rw [merge_unknown, ih agree.2]
      simp [known]
    · rw [unknown_merge, foldl_merge_of_agree known agree.2, if_pos List.mem_cons_self]

/-- What is left of a known sign after some contradictions: the first one cancels it, and the second
one is the only evidence then. -/
def contradicted (k : Signedness) : Nat → Signedness
  | 0 => k
  | 1 => .unknown
  | _ + 2 => k.opposite

/-- What merging leaves of a known sign depends on the number of contradictions alone. -/
lemma foldl_merge_of_contradict (known : k ≠ .unknown) (absent : k ∉ signs) :
    signs.foldl merge k = k.contradicted (signs.count k.opposite) := by
  induction signs with
  | nil => rfl
  | cons x signs ih =>
    rw [List.mem_cons, not_or] at absent
    rw [List.foldl_cons]
    have known' := opposite_ne_unknown known
    have ne : x ≠ k.opposite.opposite := by
      rw [opposite_opposite]
      exact Ne.symm absent.1
    rcases eq_of_ne_opposite known' ne with rfl | rfl
    · rw [merge_unknown, ih absent.2, List.count_cons_of_ne known'.symm]
    · rw [merge_opposite, List.count_cons_self]
      have rest : signs.foldl merge .unknown = if k.opposite ∈ signs then k.opposite else .unknown :=
        mergeAll_of_agree known' (by simpa [opposite_opposite] using absent.2)
      rw [rest]
      cases count : signs.count k.opposite with
      | zero => rw [if_neg (List.count_eq_zero.1 count)]; rfl
      | succ n => rw [if_pos (List.count_pos_iff.1 (by omega))]; rfl

/-- A known sign is cancelled by a single contradiction behind it. -/
lemma mergeAll_cons_of_contradict (known : k ≠ .unknown) (absent : k ∉ signs)
    (once : signs.count k.opposite = 1) : mergeAll (k :: signs) = .unknown := by
  rw [mergeAll, List.foldl_cons, unknown_merge, foldl_merge_of_contradict known absent, once]
  rfl

/-- One sign and one that contradicts it leave nothing. -/
lemma mergeAll_of_pair (first : signs.count .signed = 1) (second : signs.count .unsigned = 1) :
    mergeAll signs = .unknown := by
  induction signs with
  | nil => cases first
  | cons x signs ih =>
    cases x with
    | unknown => exact ih (by simpa using first) (by simpa using second)
    | signed =>
      apply mergeAll_cons_of_contradict (k := .signed) (by decide)
      · exact List.count_eq_zero.1 (by simpa using first)
      · simpa [opposite] using second
    | unsigned =>
      apply mergeAll_cons_of_contradict (k := .unsigned) (by decide)
      · exact List.count_eq_zero.1 (by simpa using second)
      · simpa [opposite] using first

/-- Where no sign is contested, merging gives what the signs agree on. -/
lemma mergeAll_of_not_contested (calm : ¬ Contested signs) : mergeAll signs = agreed signs := by
  by_cases first : .signed ∈ signs
  · by_cases second : .unsigned ∈ signs
    · have one := List.count_pos_iff.2 first
      have one' := List.count_pos_iff.2 second
      have few : ¬ 2 < signs.count .signed + signs.count .unsigned :=
        fun more => calm ⟨first, second, more⟩
      rw [mergeAll_of_pair (by omega) (by omega)]
      simp [agreed, first, second]
    · rw [mergeAll_of_agree (k := .signed) (by decide) second]
      simp [agreed, first, second]
  · rw [mergeAll_of_agree (k := .unsigned) (by decide) first]
    simp [agreed, first]

/-- A list of signs with those that are `k` in front. -/
def front (k : Signedness) (signs : List Signedness) : List Signedness :=
  signs.filter (· = k) ++ signs.filter (· ≠ k)

/-- With the signs that are `k` in front, the contradictions behind them decide. -/
lemma mergeAll_front (known : k ≠ .unknown) (mem : k ∈ signs) :
    mergeAll (front k signs) = k.contradicted (signs.count k.opposite) := by
  have agree : k.opposite ∉ signs.filter (· = k) := by
    intro mem
    exact opposite_ne known (of_decide_eq_true (List.mem_filter.1 mem).2)
  have inside : k ∈ signs.filter (· = k) := by simp [mem]
  have absent : k ∉ signs.filter (· ≠ k) := by simp
  have count : (signs.filter (· ≠ k)).count k.opposite = signs.count k.opposite := by
    apply List.count_filter
    exact decide_eq_true (opposite_ne known)
  have first := mergeAll_of_agree known agree
  rw [mergeAll, if_pos inside] at first
  rw [mergeAll, front, List.foldl_append, first, foldl_merge_of_contradict known absent, count]

/-- If a sign is contested, it matters which one comes first. -/
lemma mergeAll_front_ne (contested : Contested signs) :
    mergeAll (front .signed signs) ≠ mergeAll (front .unsigned signs) := by
  obtain ⟨first, second, more⟩ := contested
  have some_signed := List.count_pos_iff.2 first
  have some_unsigned := List.count_pos_iff.2 second
  rw [mergeAll_front (by decide) first, mergeAll_front (by decide) second]
  show contradicted .signed (signs.count .unsigned) ≠ contradicted .unsigned (signs.count .signed)
  generalize signs.count .signed = n at *
  generalize signs.count .unsigned = n' at *
  match n, n' with
  | 1, 1 => omega
  | 1, _ + 2 => exact nofun
  | _ + 2, 1 => exact nofun
  | _ + 2, _ + 2 => exact nofun

end Signedness

/-! ## Joining scalars -/

namespace DataType

variable {w w' : UInt8} {s s' : Signedness} {a b t : DataType} {ts us : List DataType}

/-- The width of an integer. -/
def width? : DataType → Option UInt8
  | .integer width _ => some width
  | _ => none

/-- What is known of the sign of an integer. -/
def sign? : DataType → Option Signedness
  | .integer _ sign => some sign
  | _ => none

/-- The widths of the integers in a list. -/
def widths (ts : List DataType) : List UInt8 :=
  ts.filterMap width?

/-- The signs of the integers in a list. -/
def signs (ts : List DataType) : List Signedness :=
  ts.filterMap sign?

/-- The scalar of a width: an integer, or a boolean if there is no width. -/
def scalar (width : Option UInt8) (sign : Signedness) : DataType :=
  match width with
  | none => .boolean
  | some width => .integer width sign

/-- A scalar is a boolean or an integer. -/
lemma isScalar_cases (plain : t.isScalar = true) : t = .boolean ∨ ∃ w s, t = .integer w s := by
  cases t with
  | boolean => exact .inl rfl
  | integer w s => exact .inr ⟨w, s, rfl⟩
  | _ => cases plain

/-- Integers merge to the greater width and the merged sign. -/
lemma merge?_integer :
    merge? (.integer w s) (.integer w' s') = some (.integer (max w w') (s.merge s')) := by
  by_cases same : integer w s = .integer w' s'
  · cases same
    have width : max w w = w := ite_self w
    rw [merge?, mergeWithin.eq_def, if_neg (by simp), if_neg (by simp), if_pos rfl, width,
      Signedness.merge_self]
  · rw [merge?, mergeWithin.eq_def, if_neg (by simp), if_neg (by simp), if_neg same]

/-- Integers join to the greater width and the merged sign. -/
lemma join_integer : join (.integer w s) (.integer w' s') = .integer (max w w') (s.merge s') := by
  rw [join, joinWith, if_neg (by simp [isUnion]), merge?_integer, Option.getD_some]

/-- A boolean joined with an integer is the integer. -/
lemma join_boolean_integer : join .boolean (.integer w s) = .integer w s :=
  rfl

/-- An integer joined with a boolean is the integer. -/
lemma join_integer_boolean : join (.integer w s) .boolean = .integer w s :=
  rfl

/-- Scalars behind an integer widen it and merge into its sign. -/
lemma foldl_join_integer (plain : ∀ t ∈ ts, t.isScalar = true) :
    ts.foldl join (.integer w s) = .integer ((widths ts).foldl max w) ((signs ts).foldl .merge s) := by
  induction ts generalizing w s with
  | nil => rfl
  | cons t ts ih =>
    rw [List.forall_mem_cons] at plain
    rw [List.foldl_cons]
    rcases isScalar_cases plain.1 with rfl | ⟨w', s', rfl⟩
    · rw [join_integer_boolean, ih plain.2]
      rfl
    · rw [join_integer, ih plain.2]
      rfl

/-- Scalars behind a boolean are joined as if it were not there. -/
lemma foldl_join_boolean (plain : ∀ t ∈ ts, t.isScalar = true) :
    ts.foldl join .boolean = scalar (widths ts).max? (.mergeAll (signs ts)) := by
  induction ts with
  | nil => rfl
  | cons t ts ih =>
    rw [List.forall_mem_cons] at plain
    rw [List.foldl_cons]
    rcases isScalar_cases plain.1 with rfl | ⟨w', s', rfl⟩
    · exact ih plain.2
    · rw [join_boolean_integer, foldl_join_integer plain.2]
      rfl

/-- Widths and signs are joined on their own, and booleans do not count beside integers. -/
lemma joinAll_eq (nonempty : ts ≠ []) (plain : ∀ t ∈ ts, t.isScalar = true) :
    joinAll ts = scalar (widths ts).max? (.mergeAll (signs ts)) := by
  cases ts with
  | nil => exact absurd rfl nonempty
  | cons t ts =>
    rw [List.forall_mem_cons] at plain
    rw [joinAll, List.foldl_cons]
    rcases isScalar_cases plain.1 with rfl | ⟨w', s', rfl⟩
    · exact foldl_join_boolean plain.2
    · exact foldl_join_integer plain.2

/-! ## The order of a join -/

/-- Where no sign is contested, the join has the sign that the integers agree on. -/
lemma joinAll_of_not_contested (nonempty : ts ≠ []) (plain : ∀ t ∈ ts, t.isScalar = true)
    (calm : ¬ Signedness.Contested (signs ts)) :
    joinAll ts = scalar (widths ts).max? (.agreed (signs ts)) := by
  rw [joinAll_eq nonempty plain, Signedness.mergeAll_of_not_contested calm]

/-- Where no sign is contested, the order does not matter. -/
lemma joinAll_perm (nonempty : ts ≠ []) (plain : ∀ t ∈ ts, t.isScalar = true)
    (calm : ¬ Signedness.Contested (signs ts)) (perm : us.Perm ts) : joinAll us = joinAll ts := by
  have perm_signs : (signs us).Perm (signs ts) := perm.filterMap sign?
  have perm_widths : (widths us).Perm (widths ts) := perm.filterMap width?
  have nonempty' : us ≠ [] := by
    rintro rfl
    exact nonempty perm.symm.eq_nil
  have calm' : ¬ Signedness.Contested (signs us) := by
    rwa [Signedness.Contested, perm_signs.mem_iff, perm_signs.mem_iff, perm_signs.count_eq,
      perm_signs.count_eq]
  rw [joinAll_of_not_contested nonempty plain calm, joinAll_of_not_contested nonempty'
    (fun t mem => plain t (perm.mem_iff.1 mem)) calm', max?_congr fun w => perm_widths.mem_iff]
  simp only [Signedness.agreed, perm_signs.mem_iff]

/-- A list of types with the integers of a sign in front. -/
def front (k : Signedness) (ts : List DataType) : List DataType :=
  ts.filter (fun t => t.sign? = some k) ++ ts.filter fun t => ¬ t.sign? = some k

/-- Putting some integers in front loses and adds nothing. -/
lemma front_perm (k : Signedness) (ts : List DataType) : (front k ts).Perm ts := by
  simpa [front] using List.filter_append_perm (fun t => decide (t.sign? = some k)) ts

/-- Putting integers of a sign in front puts their signs in front. -/
lemma signs_front (k : Signedness) (ts : List DataType) :
    signs (front k ts) = Signedness.front k (signs ts) := by
  simp only [signs, front, Signedness.front, List.filterMap_append, List.filter_filterMap,
    List.filterMap_filter]
  congr 1
  all_goals
    apply List.filterMap_congr
    intro t _
    cases t.sign? <;> simp [Option.filter]

/-- Every integer has a width and a sign. -/
lemma widths_ne_nil (known : signs ts ≠ []) : widths ts ≠ [] := by
  intro none
  apply known
  rw [widths, List.filterMap_eq_nil_iff] at none
  rw [signs, List.filterMap_eq_nil_iff]
  intro t mem
  have missing := none t mem
  cases t with
  | integer => cases missing
  | _ => rfl

/-- The sign of a join is merged from the signs of the integers. -/
lemma sign?_joinAll (plain : ∀ t ∈ ts, t.isScalar = true) (known : signs ts ≠ []) :
    (joinAll ts).sign? = some (.mergeAll (signs ts)) := by
  have nonempty : ts ≠ [] := by
    rintro rfl
    exact known rfl
  rw [joinAll_eq nonempty plain]
  cases widest : (widths ts).max? with
  | some w => rfl
  | none => exact absurd (List.max?_eq_none_iff.1 widest) (widths_ne_nil known)

/-- If a sign is contested, it matters which integers come first. -/
lemma joinAll_front_ne (plain : ∀ t ∈ ts, t.isScalar = true)
    (contested : Signedness.Contested (signs ts)) :
    joinAll (front .signed ts) ≠ joinAll (front .unsigned ts) := by
  have merged : ∀ k, (joinAll (front k ts)).sign? = some (.mergeAll (k.front (signs ts))) := by
    intro k
    have perm := (front_perm k ts).filterMap sign?
    rw [sign?_joinAll, signs_front]
    · intro t mem
      exact plain t ((front_perm k ts).mem_iff.1 mem)
    · exact List.ne_nil_of_mem (perm.mem_iff.2 contested.1)
  intro same
  apply Signedness.mergeAll_front_ne contested
  apply Option.some.inj
  rw [← merged, ← merged, same]

end DataType

namespace Shape

variable {a b : DataType} {ts : List DataType}

/-- A scalar joins what went before as its shape does. -/
lemma join_ofType_of_scalar (first : a = .void ∨ a.isScalar = true) (last : b.isScalar = true) :
    join (ofType a) (ofType b) = ofType (a.join b) ∧ (a.join b).isScalar = true := by
  rcases first with rfl | plain
  · rcases DataType.isScalar_cases last with rfl | ⟨w', s', rfl⟩ <;> exact ⟨rfl, rfl⟩
  · rcases DataType.isScalar_cases plain with rfl | ⟨w, s, rfl⟩
    · rcases DataType.isScalar_cases last with rfl | ⟨w', s', rfl⟩ <;> exact ⟨rfl, rfl⟩
    · rcases DataType.isScalar_cases last with rfl | ⟨w', s', rfl⟩
      · exact ⟨rfl, rfl⟩
      · rw [DataType.join_integer]
        refine ⟨?_, rfl⟩
        simp [join, leavesList, leaves, ofType, Alternatives.insert, ofAlternatives]

/-- Shapes of scalars are joined as the scalars are. -/
lemma foldl_join_ofType (first : a = .void ∨ a.isScalar = true)
    (plain : ∀ t ∈ ts, t.isScalar = true) :
    (ts.map ofType).foldl join (ofType a) = ofType (ts.foldl .join a) := by
  induction ts generalizing a with
  | nil => rfl
  | cons t ts ih =>
    rw [List.forall_mem_cons] at plain
    obtain ⟨joined, scalar⟩ := join_ofType_of_scalar first plain.1
    rw [List.map_cons, List.foldl_cons, List.foldl_cons, joined, ih (.inr scalar) plain.2]

end Shape

namespace DataType

variable {ts : List DataType}

/-- Joining scalars gives an integer of the greatest width, if there is an integer, and shapes are
joined as the scalars are. The order of the scalars does not matter, and the sign is the one that the
integers agree on, unless a sign is contested. -/
theorem joinAll_scalars (nonempty : ts ≠ []) (plain : ∀ t ∈ ts, t.isScalar = true) :
    joinAll ts = scalar (widths ts).max? (.mergeAll (signs ts)) ∧
      Shape.joinAll (ts.map .ofType) = .ofType (joinAll ts) ∧
      (¬ Signedness.Contested (signs ts) →
        joinAll ts = scalar (widths ts).max? (.agreed (signs ts))) ∧
      ((∀ us, us.Perm ts → joinAll us = joinAll ts) ↔ ¬ Signedness.Contested (signs ts)) := by
  refine ⟨joinAll_eq nonempty plain, Shape.foldl_join_ofType (.inl rfl) plain,
    joinAll_of_not_contested nonempty plain, fun alike contested => ?_, fun calm us perm => ?_⟩
  · apply joinAll_front_ne plain contested
    rw [alike _ (front_perm _ ts), alike _ (front_perm _ ts)]
  · exact joinAll_perm nonempty plain calm perm

/-- A signed and an unsigned integer leave the sign unknown. -/
theorem joinAll_scalars_pair :
    joinAll [.boolean, .integer 2 .unsigned, .integer 4 .signed] = .integer 4 .unknown ∧
      Shape.joinAll [.boolean, .integer 2 .unsigned, .integer 4 .signed] = .integer 4 .unknown := by
  have joined := @joinAll_scalars [.boolean, .integer 2 .unsigned, .integer 4 .signed] (by decide)
    (by decide)
  have result := joined.2.2.1 (by decide)
  exact ⟨result, joined.2.1.trans (congrArg Shape.ofType result)⟩

/-- A conflict of two integers is forgotten when a third one follows. -/
theorem joinAll_forgets :
    ∃ ts us : List DataType, us.Perm ts ∧ (∀ t ∈ ts, t.isScalar = true) ∧
      joinAll ts ≠ scalar (widths ts).max? (.agreed (signs ts)) ∧ joinAll us ≠ joinAll ts ∧
      Shape.joinAll (us.map .ofType) ≠ Shape.joinAll (ts.map .ofType) := by
  refine ⟨[.integer 4 .signed, .integer 4 .unsigned, .integer 4 .signed],
    [.integer 4 .signed, .integer 4 .signed, .integer 4 .unsigned], ?_, ?_, ?_, ?_, ?_⟩
  · exact .cons _ (.swap _ _ _)
  all_goals decide

end DataType

end TypeRecovery
