import Mathlib.Algebra.Group.Nat.Defs
import Mathlib.Data.Finset.Card
import Mathlib.Data.Finset.Range
import TypeRecovery.Proofs.Arena.Calls

/-!
# Ranks stay small

A link raises the rank of a root only if the other root has the same rank, so every rank that is gained
doubles the tree that it stands for. `Weighted` says this of a forest: a root of rank `r` heads a tree of
at least `2 ^ r` numbers. Compression moves numbers within a tree and leaves it alone. `Reshapes` lists
what a call can do to the forest, and `ranks_bounded` is what follows for every arena that calls can
make: its ranks are no larger than the logarithm of the number of variables, and fit into a byte with
room to spare.
-/

namespace TypeRecovery

/-- A byte that does not overflow counts. -/
lemma toNat_ofNat_succ {n : Nat} (lt : n + 1 < UInt8.size) :
    (UInt8.ofNat n + 1).toNat = n + 1 := by
  rw [UInt8.toNat_add, UInt8.toNat_ofNat_of_lt' (Nat.lt_of_succ_lt lt)]
  exact Nat.mod_eq_of_lt lt

namespace Forest

/-- The numbers of the tree below a root. -/
def tree (f : Forest) (r : Nat) : Finset Nat :=
  (Finset.range f.size).filter fun i => f.root i = r

/-- A root of rank `r` heads a tree of at least `2 ^ r` numbers. -/
def Weighted (f : Forest) : Prop :=
  ∀ r < f.size, f.parent r = r → 2 ^ f.rank r ≤ (f.tree r).card

/-- What can happen to a forest: paths get shorter, a number is added, two roots are linked once the
paths to them are compressed, or all is dropped. -/
inductive Reshapes (f : Forest) : Forest → Prop
  | compresses {g} : f.Compresses g → Reshapes f g
  | grows : Reshapes f f.push
  | links {g x y leader} : f.Compresses g → x ≠ y → x < g.size → y < g.size →
    g.parent x = x → g.parent y = y → Reshapes f (g.link x y leader)
  | clears : Reshapes f .empty

variable {f g : Forest}

/-- The tree of a root has the numbers that climb to it. -/
lemma mem_tree {r i : Nat} : i ∈ f.tree r ↔ i < f.size ∧ f.root i = r := by
  rw [tree, Finset.mem_filter, Finset.mem_range]

/-- A tree has no more numbers than the forest. -/
lemma card_tree_le (f : Forest) (r : Nat) : (f.tree r).card ≤ f.size := by
  have le := Finset.card_filter_le (Finset.range f.size) fun i => f.root i = r
  rwa [Finset.card_range] at le

/-- The empty forest has no tree to weigh. -/
lemma empty_weighted : Forest.empty.Weighted := by
  intro r lt
  simp [empty, size] at lt

/-- A number outside the forest has rank zero. -/
lemma rank_of_size_le {i : Nat} (le : f.size ≤ i) : f.rank i = 0 := by
  rw [rank_eq_read, read_of_size_le le]

/-! ## What keeps trees heavy -/

/-- A tree that grows while its root keeps its rank stays heavy. -/
lemma Weighted.of_subset {r : Nat} (wt : f.Weighted) (lt : r < f.size) (isRoot : f.parent r = r)
    (rank : g.rank r = f.rank r) (sub : f.tree r ⊆ g.tree r) : 2 ^ g.rank r ≤ (g.tree r).card := by
  rw [rank]
  exact (wt r lt isRoot).trans (Finset.card_le_card sub)

/-- Compression moves no number into another tree. -/
lemma Compresses.weighted (cp : f.Compresses g) (rk : f.Ranked) (wt : f.Weighted) :
    g.Weighted := by
  have root := cp.root_eq rk
  intro r lt isRoot
  have was : f.root r = r := by rw [← root, cp.ranked.root_of_isRoot isRoot]
  refine wt.of_subset (cp.size ▸ lt) ?_ (cp.rank r) ?_
  · rw [← was]
    exact rk.isRoot_root r
  · intro i
    rw [mem_tree, mem_tree, root, cp.size]
    exact id

/-- A new number is a tree of its own. -/
lemma Weighted.push (wt : f.Weighted) (rk : f.Ranked) : f.push.Weighted := by
  intro r lt isRoot
  rw [parent_push] at isRoot
  rcases Nat.lt_or_ge r f.size with old | new
  · refine wt.of_subset old isRoot (rank_push f r) ?_
    intro i
    rw [mem_tree, mem_tree, rk.root_push, size_push]
    exact fun inside => ⟨Nat.lt_succ_of_lt inside.1, inside.2⟩
  · have own : r ∈ f.push.tree r := mem_tree.2 ⟨lt, by rw [rk.root_push, rk.root_of_isRoot isRoot]⟩
    rw [rank_push, rank_of_size_le new, pow_zero]
    exact Finset.card_pos.2 ⟨r, own⟩

section
variable {low high leader : Nat}

/-- After a link the numbers of both trees are in one. -/
lemma Links.card_tree_high (lk : f.Links g low high leader) (ne : low ≠ high)
    (root : ∀ i, g.root i = if f.root i = low then high else f.root i) :
    (g.tree high).card = (f.tree low).card + (f.tree high).card := by
  have apart : Disjoint (f.tree low) (f.tree high) := by
    rw [Finset.disjoint_left]
    intro i inside inside'
    exact ne ((mem_tree.1 inside).2.symm.trans (mem_tree.1 inside').2)
  have whole : g.tree high = f.tree low ∪ f.tree high := by
    ext i
    rw [Finset.mem_union, mem_tree, mem_tree, mem_tree, ← and_or_left, lk.size, root]
    refine and_congr_right fun _ => ?_
    split
    · rename_i inside
      exact ⟨fun _ => .inl inside, fun _ => rfl⟩
    · rename_i outside
      exact ⟨.inr, fun inside => inside.resolve_left outside⟩
  rw [whole, Finset.card_union_of_disjoint apart]

/-- A link that raises a rank puts two trees of that rank together. -/
lemma Links.weighted (lk : f.Links g low high leader) (rk : f.Ranked) (wt : f.Weighted)
    (ne : low ≠ high) (lt_low : low < f.size) (lt_high : high < f.size)
    (root_low : f.parent low = low) (root_high : f.parent high = high) : g.Weighted := by
  have root := lk.root_eq rk ne lt_high root_low root_high
  intro r lt isRoot
  by_cases here : r = high
  · subst here
    have heavy_low := wt low lt_low root_low
    have heavy_high := wt r lt_high root_high
    rw [lk.card_tree_high ne root, lk.rank_high]
    split
    · rename_i same
      rw [same] at heavy_low
      -- two trees of one rank weigh twice as much together, which is what the next rank asks for
      rw [pow_succ]
      omega
    · omega
  · have ne_low : r ≠ low := by
      rintro rfl
      exact here (isRoot.symm.trans lk.parent_low)
    refine wt.of_subset (lk.size ▸ lt) ((lk.parent ne_low).symm.trans isRoot) (lk.rank here) ?_
    intro i
    rw [mem_tree, mem_tree, lk.size, root]
    rintro ⟨lt, e⟩
    exact ⟨lt, by rw [e, if_neg ne_low]⟩

end

/-- Whatever happens to a forest, its trees stay as heavy as their ranks. -/
lemma Reshapes.weighted (rs : f.Reshapes g) (rk : f.Ranked) (wt : f.Weighted) : g.Weighted := by
  cases rs with
  | compresses cp => exact cp.weighted rk wt
  | grows => exact wt.push rk
  | @links g x y leader cp ne ltx lty rx ry =>
    have wt := cp.weighted rk wt
    rcases links_link leader ltx lty with lk | lk
    · exact lk.weighted cp.ranked wt ne ltx lty rx ry
    · exact lk.weighted cp.ranked wt ne.symm lty ltx ry rx
  | clears => exact empty_weighted

/-- A rank is at most the logarithm of the size of the forest. -/
lemma Weighted.pow_rank_le (wt : f.Weighted) (rk : f.Ranked) {i : Nat} (lt : i < f.size) :
    2 ^ f.rank i ≤ f.size := by
  obtain ⟨_, _, p⟩ := rk.path_root i
  calc 2 ^ f.rank i ≤ 2 ^ f.rank (f.root i) := Nat.pow_le_pow_right Nat.two_pos (p.rank_le rk)
    _ ≤ (f.tree (f.root i)).card := wt _ (rk.root_lt lt) (rk.isRoot_root i)
    _ ≤ f.size := card_tree_le f _

/-- A forest of less than `2 ^ n` numbers has no rank `n`. -/
lemma Weighted.rank_lt (wt : f.Weighted) (rk : f.Ranked) {n : Nat} (pos : 0 < n)
    (few : f.size < 2 ^ n) (i : Nat) : f.rank i < n := by
  rcases Nat.lt_or_ge i f.size with lt | ge
  · rw [← Nat.pow_lt_pow_iff_right Nat.one_lt_two]
    exact (wt.pow_rank_le rk lt).trans_lt few
  · rw [rank_of_size_le ge]
    exact pos

end Forest

namespace Arena

variable {a b : Arena} {log : List Constraint}

/-- Shortening paths of an arena shortens paths of its forest. -/
lemma Compresses.reshapes (cp : a.Compresses b) : a.forest.Reshapes b.forest :=
  .compresses cp.retouches.forest

/-- A merge of two classes that are there links their roots once the paths to them are compressed. -/
lemma Coherent.reshapes_union_of_lt (co : a.Coherent log) {x y : ClassId} (ltx : x.index < a.size)
    (lty : y.index < a.size) : a.forest.Reshapes (finalState (ArenaM.union x y a)).forest := by
  have rk := co.forest.toRanked
  obtain ⟨b, cp, run⟩ := ArenaM.union_run co ltx lty
  have cpf := cp.retouches.forest
  rw [← co.forest_size] at ltx lty
  rw [run]
  split
  · exact .compresses cpf
  · rename_i apart
    split
    · exact .compresses cpf
    · change a.forest.Reshapes (b.mergeRoots _ _).forest
      rw [forest_mergeRoots]
      exact .links cpf apart (cpf.root_lt rk ltx) (cpf.root_lt rk lty) (cpf.isRoot_root rk _)
        (cpf.isRoot_root rk _)

/-- What a merge of classes does to the forest. -/
lemma Coherent.reshapes_union (co : a.Coherent log) (x y : ClassId) :
    a.forest.Reshapes (finalState (ArenaM.union x y a)).forest := by
  by_cases beyond : a.size ≤ x.index ∨ a.size ≤ y.index
  · rw [ArenaM.union_of_size_le co beyond]
    exact .compresses (.refl co.forest.toRanked)
  · rw [not_or, Nat.not_le, Nat.not_le] at beyond
    exact co.reshapes_union_of_lt beyond.1 beyond.2

/-- What a merge of variables does to the forest. -/
lemma Coherent.reshapes_unify (co : a.Coherent log) (x y : VarId) :
    a.forest.Reshapes (finalState (ArenaM.unify x y a)).forest := by
  by_cases beyond : a.size ≤ x.index ∨ a.size ≤ y.index
  · rw [ArenaM.unify_of_size_le beyond]
    exact .compresses (.refl co.forest.toRanked)
  · rw [not_or, Nat.not_le, Nat.not_le] at beyond
    rw [ArenaM.unify, bind_of_ok (ArenaM.requireVariable_of_lt beyond.1),
      bind_of_ok (ArenaM.requireVariable_of_lt beyond.2)]
    exact co.reshapes_union_of_lt (x := ⟨x.index⟩) (y := ⟨y.index⟩) beyond.1 beyond.2

/-- What a call does to the forest; no other call than a merge links roots. -/
lemma Coherent.reshapes (co : a.Coherent log) (call : Call) :
    a.forest.Reshapes (call.after a).forest := by
  have same : a.forest.Reshapes a.forest := .compresses (.refl co.forest.toRanked)
  -- new variables, merges and resets apart, a call compresses paths at most
  cases call with
  | newVariable site => exact .grows
  | find c =>
    rw [Call.after, Call.perform, finalState_map]
    rcases Nat.lt_or_ge c.index a.size with lt | ge
    · obtain ⟨b, cp, run⟩ := ArenaM.find_of_lt co lt
      rw [run]
      exact cp.reshapes
    · rw [ArenaM.find_of_size_le (co.forest_size ▸ ge)]
      exact same
  | union x y =>
    rw [Call.after, Call.perform, finalState_map]
    exact co.reshapes_union x y
  | unify x y =>
    rw [Call.after, Call.perform, finalState_map]
    exact co.reshapes_unify x y
  | constrain subject position fact =>
    rw [Call.after, Call.perform, finalState_map]
    rcases Nat.lt_or_ge subject.index a.size with lt | ge
    · have out := ArenaM.constrain_of_lt co position fact lt
      generalize ArenaM.constrain subject position fact a = res at out
      cases out <;> exact same
    · rw [ArenaM.constrain_of_size_le ge]
      exact same
  | setType c t =>
    rw [Call.after, Call.perform, finalState_map]
    rcases Nat.lt_or_ge c.index a.size with lt | ge
    · obtain ⟨b, cp, run⟩ := ArenaM.setType_of_lt co t lt
      rw [run]
      split <;> exact cp.reshapes
    · rw [ArenaM.setType_of_size_le co ge]
      exact same
  | finalize c =>
    rw [Call.after, Call.perform, finalState_map]
    rcases Nat.lt_or_ge c.index a.size with lt | ge
    · obtain ⟨b, cp, run⟩ := ArenaM.finalize_of_lt co lt
      rw [run]
      exact cp.reshapes
    · rw [ArenaM.finalize_of_size_le co ge]
      exact same
  | finalizeAll => exact same
  | reset => exact .clears

/-- Trees stay as heavy as their ranks say, whatever is called. -/
lemma Reachable.weighted (re : a.Reachable) : a.forest.Weighted := by
  apply re.induction Forest.empty_weighted
  intro a log call co wt
  exact (co.reshapes call).weighted co.forest.toRanked wt

/-- Whatever was called on an empty arena, a root of rank `r` heads a tree of at least `2 ^ r`
variables, and ranks grow along parents. So with fewer variables than there are numbers of 32 bits no
rank is higher than 31, and a byte that holds a rank is incremented without a carry. -/
theorem ranks_bounded (re : a.Reachable) :
    (∀ r < a.size, a.forest.parent r = r → 2 ^ a.forest.rank r ≤ (a.forest.tree r).card) ∧
    (∀ i, a.forest.parent i ≠ i → a.forest.rank i < a.forest.rank (a.forest.parent i)) ∧
    (a.size < UInt32.size → ∀ i, a.forest.rank i ≤ 31 ∧
      (UInt8.ofNat (a.forest.rank i) + 1).toNat = a.forest.rank i + 1) := by
  obtain ⟨log, co⟩ := re.coherent
  have rk := co.forest.toRanked
  have wt := re.weighted
  refine ⟨?_, fun i => rk.rank_lt, fun few i => ?_⟩
  · rw [← co.forest_size]
    exact wt
  · rw [← co.forest_size] at few
    have small := wt.rank_lt rk (n := 32) (Nat.succ_pos 31) few i
    exact ⟨Nat.le_of_lt_succ small, toNat_ofNat_succ (lt_trans (Nat.succ_lt_succ small) (by decide))⟩

/-- Four variables that are merged two by two. -/
def pairedCalls : List Call :=
  [.newVariable (.storage "p"), .newVariable (.storage "q"), .newVariable (.storage "r"),
    .newVariable (.storage "s"), .unify ⟨0⟩ ⟨1⟩, .unify ⟨2⟩ ⟨3⟩, .unify ⟨3⟩ ⟨1⟩]

/-- The last merge is one of two classes that were merged before. -/
lemma afterAll_pairedCalls : Arena.empty.afterAll pairedCalls =
    (((Arena.empty.afterAll (pairedCalls.take 6)).modifyClass ⟨0⟩ (·.unconstrained)).modifyClass ⟨2⟩
      (·.unconstrained)).afterAll [.unify ⟨3⟩ ⟨1⟩] := by
  rw [modifyClass_unconstrained (.singleton 2) (.singleton 3) rfl rfl rfl,
    modifyClass_unconstrained (.singleton 0) (.singleton 1) rfl rfl rfl]
  rfl

/-- The root has rank 2 and heads a tree of four. -/
theorem ranks_bounded_pairedCalls :
    let a := Arena.empty.afterAll pairedCalls
    a.size = 4 ∧ a.forest.parent 2 = 2 ∧ a.forest.rank 2 = 2 ∧
      2 ^ a.forest.rank 2 ≤ (a.forest.tree 2).card ∧
      (UInt8.ofNat (a.forest.rank 2) + 1).toNat = a.forest.rank 2 + 1 := by
  have shape : (Arena.empty.afterAll pairedCalls).size = 4 ∧
      (Arena.empty.afterAll pairedCalls).forest.parent 2 = 2 ∧
      (Arena.empty.afterAll pairedCalls).forest.rank 2 = 2 := by
    rw [afterAll_pairedCalls]
    decide +kernel
  obtain ⟨size, isRoot, rank⟩ := shape
  obtain ⟨heavy, _, small⟩ := ranks_bounded ⟨pairedCalls, rfl⟩
  refine ⟨size, isRoot, rank, heavy 2 (by rw [size]; decide) isRoot, ?_⟩
  exact (small (by rw [size]; decide) 2).2

end Arena

end TypeRecovery
