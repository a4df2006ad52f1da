import Mathlib.Data.Finset.Card
import TypeRecovery.Arena.Forest

/-!
# Roots and leaders

The theory of the forest behind the classes. `Path` is climbing without a bound on the steps, and
`Ranked` is why every climb ends: parents are in range, and ranks grow along them. From that
`root` and `compress`, whose loops are bounded by the size of the forest, never run out of steps.

Outside this file a forest is known by `leaderOf` alone: `WellFormed` says that it picks the lowest
number of a tree, `Ranked.leaderOf_push` and `Compresses.leaderOf_eq` that growing and compressing
leave it alone, and `WellFormed.leaderOf_link` what a link does to it.
-/

namespace TypeRecovery.Forest

/-! ## Single nodes -/

section
variable {α : Type} (f : Forest) (field : Node → α)

/-- What is stored for a number in a field, and `other` for a number that is not in the forest. -/
def read (i : Nat) (other : α) : α :=
  (f.nodes[i]?.map field).getD other

/-- The parent is the stored one; a number outside the forest is its own parent. -/
lemma parent_eq_read (i : Nat) : f.parent i = f.read Node.parent i i := by
  simp only [parent, read]
  cases f.nodes[i]? <;> rfl

/-- The rank is the stored one; a number outside the forest has rank zero. -/
lemma rank_eq_read (i : Nat) : f.rank i = f.read Node.rank i 0 := by
  simp only [rank, read]
  cases f.nodes[i]? <;> rfl

/-- The leader is the stored one; a number outside the forest is its own leader. -/
lemma leader_eq_read (i : Nat) : f.leader i = f.read Node.leader i i := by
  simp only [leader, read]
  cases f.nodes[i]? <;> rfl

variable {f field}

/-- Nothing is stored for a number outside the forest. -/
lemma read_of_size_le {i : Nat} {other : α} (le : f.size ≤ i) : f.read field i other = other := by
  simp only [size] at le
  rw [read, Array.getElem?_eq_none le]
  rfl

/-- A new number changes nothing if it stores what was read for it before. -/
lemma read_push {i : Nat} {other : α} (e : i = f.size → field ⟨f.size, 0, f.size⟩ = other) :
    f.push.read field i other = f.read field i other := by
  simp only [read, push, Array.getElem?_push]
  split
  · rename_i new
    rw [Array.getElem?_eq_none new.ge]
    exact e new
  · rfl

/-- An update of one number leaves the others alone. -/
lemma read_modify_of_ne {update : Node → Node} {i j : Nat} {other : α} (ne : j ≠ i) :
    read ⟨f.nodes.modify i update⟩ field j other = f.read field j other := by
  rw [read, Array.getElem?_modify, if_neg ne.symm]
  rfl

/-- An update of a number acts on each field of it. -/
lemma read_modify_self {update : Node → Node} {i : Nat} {other : α} (act : α → α)
    (lt : i < f.size) (acts : ∀ node, field (update node) = act (field node)) :
    read ⟨f.nodes.modify i update⟩ field i other = act (f.read field i other) := by
  rw [read, read, Array.getElem?_modify, if_pos rfl, Array.getElem?_eq_getElem lt]
  exact acts _

/-- A field that an update leaves alone reads as before. -/
lemma read_modify {update : Node → Node} {i j : Nat} {other : α}
    (keeps : ∀ node, field (update node) = field node) :
    read ⟨f.nodes.modify i update⟩ field j other = f.read field j other := by
  by_cases e : j = i
  · subst e
    rcases Nat.lt_or_ge j f.size with lt | ge
    · exact read_modify_self id lt keeps
    · have ge' : size ⟨f.nodes.modify j update⟩ ≤ j := by rwa [size, Array.size_modify]
      rw [read_of_size_le ge, read_of_size_le ge']
  · exact read_modify_of_ne e

end

/-- A number outside the forest is its own parent. -/
lemma parent_of_size_le {f : Forest} {i : Nat} (le : f.size ≤ i) : f.parent i = i := by
  rw [parent_eq_read, read_of_size_le le]

/-- A number that hangs below another one is in the forest. -/
lemma lt_size_of_parent_ne {f : Forest} {i : Nat} (ne : f.parent i ≠ i) : i < f.size := by
  by_contra ge
  exact ne (parent_of_size_le (Nat.le_of_not_lt ge))

/-- A number outside the forest is its own leader. -/
lemma leader_of_size_le {f : Forest} {i : Nat} (le : f.size ≤ i) : f.leader i = i := by
  rw [leader_eq_read, read_of_size_le le]

/-- A new number makes the forest larger by one. -/
@[simp] lemma size_push (f : Forest) : f.push.size = f.size + 1 := by
  simp [push, size]

/-- A new number is its own parent, so that no parent changes. -/
@[simp] lemma parent_push (f : Forest) (i : Nat) : f.push.parent i = f.parent i := by
  rw [parent_eq_read, parent_eq_read, read_push Eq.symm]

/-- A new number stores itself as its leader, so that no leader changes. -/
@[simp] lemma leader_push (f : Forest) (i : Nat) : f.push.leader i = f.leader i := by
  rw [leader_eq_read, leader_eq_read, read_push Eq.symm]

/-- A new number has rank zero, so that no rank changes. -/
@[simp] lemma rank_push (f : Forest) (i : Nat) : f.push.rank i = f.rank i := by
  rw [rank_eq_read, rank_eq_read, read_push fun _ => rfl]

/-- Hanging up a number adds none. -/
@[simp] lemma size_setParent (f : Forest) (i p : Nat) : (f.setParent i p).size = f.size := by
  simp [setParent, size]

/-- Hanging up a number keeps the ranks. -/
@[simp] lemma rank_setParent (f : Forest) (i p j : Nat) : (f.setParent i p).rank j = f.rank j := by
  rw [rank_eq_read, rank_eq_read]
  exact read_modify fun _ => rfl

/-- Hanging up a number keeps the stored leaders. -/
@[simp] lemma leader_setParent (f : Forest) (i p j : Nat) :
    (f.setParent i p).leader j = f.leader j := by
  rw [leader_eq_read, leader_eq_read]
  exact read_modify fun _ => rfl

/-- A number that was hung up has its new parent. -/
lemma parent_setParent_self {f : Forest} {i p : Nat} (lt : i < f.size) :
    (f.setParent i p).parent i = p := by
  rw [parent_eq_read]
  exact read_modify_self (fun _ => p) lt fun _ => rfl

/-- Hanging up one number keeps the parents of the others. -/
lemma parent_setParent_of_ne {f : Forest} {i p j : Nat} (ne : j ≠ i) :
    (f.setParent i p).parent j = f.parent j := by
  rw [parent_eq_read, parent_eq_read, setParent, read_modify_of_ne ne]

/-! ## Paths -/

/-- Climbing `k` parents from `i` ends at the root `r`. -/
inductive Path (f : Forest) : Nat → Nat → Nat → Prop where
  | root {r} : f.parent r = r → Path f 0 r r
  | up {k i r} : f.parent i ≠ i → Path f k (f.parent i) r → Path f (k + 1) i r

/-- A path ends at a root. -/
lemma Path.isRoot {f : Forest} {k i r} (p : f.Path k i r) : f.parent r = r := by
  induction p with
  | root e => exact e
  | up _ _ ih => exact ih

/-- A number has one path only. -/
lemma Path.unique {f : Forest} {k l i r s} (p : f.Path k i r) (q : f.Path l i s) : r = s := by
  induction p generalizing l with
  | root e =>
    cases q with
    | root _ => rfl
    | up ne _ => exact absurd e ne
  | up ne _ ih =>
    cases q with
    | root e => exact absurd e ne
    | up _ q => exact ih q

/-- A climb with enough steps ends where the path ends. -/
lemma Path.climb {f : Forest} {k i r steps} (p : f.Path k i r) (le : k ≤ steps) :
    f.climb steps i = r := by
  induction p generalizing steps with
  | root e =>
    cases steps with
    | zero => rfl
    | succ steps => simp [Forest.climb, e]
  | up ne _ ih =>
    cases steps with
    | zero => omega
    | succ steps =>
      simp only [Forest.climb, if_neg ne]
      exact ih (by omega)

/-- Parents are in range, and ranks grow along them. -/
structure Ranked (f : Forest) : Prop where
  parent_lt : ∀ {i}, i < f.size → f.parent i < f.size
  rank_lt : ∀ {i}, f.parent i ≠ i → f.rank i < f.rank (f.parent i)

/-- The numbers of a higher rank. A parent has fewer of them. -/
def above (f : Forest) (i : Nat) : Finset Nat :=
  (Finset.range f.size).filter fun j => f.rank i < f.rank j

/-- The numbers above a parent are above the number, and the parent itself is so too. -/
lemma Ranked.above_parent {f : Forest} (rk : f.Ranked) {i : Nat} (ne : f.parent i ≠ i) :
    f.above (f.parent i) ⊂ f.above i := by
  have lt := lt_size_of_parent_ne ne
  have up := rk.rank_lt ne
  refine Finset.ssubset_iff_of_subset ?_ |>.2 ⟨f.parent i, ?_, ?_⟩
  · intro j mem
    simp only [above, Finset.mem_filter] at mem ⊢
    exact ⟨mem.1, up.trans mem.2⟩
  · simp only [above, Finset.mem_filter, Finset.mem_range]
    exact ⟨rk.parent_lt lt, up⟩
  · simp [above]

/-- Every climb ends, after no more steps than there are numbers of a higher rank. -/
lemma Ranked.exists_path {f : Forest} (rk : f.Ranked) (i : Nat) :
    ∃ k r, k ≤ (f.above i).card ∧ f.Path k i r := by
  -- depths are not stored; what falls along parents is how many numbers outrank them
  induction h : (f.above i).card using Nat.strong_induction_on generalizing i with
  | h n ih =>
    by_cases e : f.parent i = i
    · exact ⟨0, i, Nat.zero_le _, .root e⟩
    · have lt := Finset.card_lt_card (rk.above_parent e)
      obtain ⟨k, r, le, p⟩ := ih _ (h ▸ lt) (f.parent i) rfl
      exact ⟨k + 1, r, by omega, .up e p⟩

/-- The bounded climb of `root` follows the whole path. -/
lemma Ranked.path_root {f : Forest} (rk : f.Ranked) (i : Nat) :
    ∃ k, k ≤ f.size ∧ f.Path k i (f.root i) := by
  obtain ⟨k, r, le, p⟩ := rk.exists_path i
  have bound : (f.above i).card ≤ f.size := by
    have le := Finset.card_filter_le (Finset.range f.size) fun j => f.rank i < f.rank j
    rwa [Finset.card_range] at le
  have e : f.root i = r := p.climb (le.trans bound)
  exact ⟨k, le.trans bound, e ▸ p⟩

/-- A path ends at the root of its number. -/
lemma Path.root_eq {f : Forest} {k i r} (p : f.Path k i r) (rk : f.Ranked) : f.root i = r := by
  obtain ⟨_, _, q⟩ := rk.path_root i
  exact q.unique p

/-- A root is its own root. -/
lemma Ranked.root_of_isRoot {f : Forest} (rk : f.Ranked) {r : Nat} (e : f.parent r = r) :
    f.root r = r :=
  (Path.root e).root_eq rk

/-- The root of a number is a root. -/
lemma Ranked.isRoot_root {f : Forest} (rk : f.Ranked) (i : Nat) :
    f.parent (f.root i) = f.root i := by
  obtain ⟨_, _, p⟩ := rk.path_root i
  exact p.isRoot

/-- The root of a root is the root itself. -/
lemma Ranked.root_root {f : Forest} (rk : f.Ranked) (i : Nat) : f.root (f.root i) = f.root i :=
  rk.root_of_isRoot (rk.isRoot_root i)

/-- Paths stay in range. -/
lemma Path.lt_size {f : Forest} {k i r} (p : f.Path k i r) (rk : f.Ranked) (lt : i < f.size) :
    r < f.size := by
  induction p with
  | root _ => exact lt
  | up _ _ ih => exact ih (rk.parent_lt lt)

/-- The root of a number in the forest is in the forest. -/
lemma Ranked.root_lt {f : Forest} (rk : f.Ranked) {i : Nat} (lt : i < f.size) :
    f.root i < f.size := by
  obtain ⟨_, _, p⟩ := rk.path_root i
  exact p.lt_size rk lt

/-- Ranks grow along a path. -/
lemma Path.rank_le {f : Forest} {k i r} (p : f.Path k i r) (rk : f.Ranked) :
    f.rank i ≤ f.rank r := by
  induction p with
  | root _ => exact Nat.le_refl _
  | up ne _ ih => exact (rk.rank_lt ne).le.trans ih

/-- A path that starts above `i` does not notice a new parent of `i`. -/
lemma Path.setParent_of_rank_lt {f : Forest} {k i j r q} (p : f.Path k j r) (rk : f.Ranked)
    (lt : f.rank i < f.rank j) : (f.setParent i q).Path k j r := by
  induction p with
  | @root r e =>
    have ne : r ≠ i := by rintro rfl; omega
    exact .root ((parent_setParent_of_ne ne).trans e)
  | @up k j r ne p ih =>
    have ne' : j ≠ i := by rintro rfl; omega
    have e := parent_setParent_of_ne (f := f) (p := q) ne'
    have up := rk.rank_lt ne
    refine .up (e ▸ ne) ?_
    rw [e]
    exact ih (by omega)

/-! ## Compression -/

/-- One forest has the trees of another, hung up differently. -/
structure Compresses (f g : Forest) : Prop where
  size : g.size = f.size
  rank : ∀ i, g.rank i = f.rank i
  leader : ∀ i, g.leader i = f.leader i
  ranked : g.Ranked
  path : ∀ {k i r}, f.Path k i r → ∃ l, g.Path l i r

/-- A ranked forest compresses to itself. -/
lemma Compresses.refl {f : Forest} (rk : f.Ranked) : f.Compresses f :=
  ⟨rfl, fun _ => rfl, fun _ => rfl, rk, fun p => ⟨_, p⟩⟩

/-- Compressions one after the other are a compression. -/
lemma Compresses.trans {f g h : Forest} (fg : f.Compresses g) (gh : g.Compresses h) :
    f.Compresses h where
  size := gh.size.trans fg.size
  rank i := (gh.rank i).trans (fg.rank i)
  leader i := (gh.leader i).trans (fg.leader i)
  ranked := gh.ranked
  path p := by
    obtain ⟨_, q⟩ := fg.path p
    exact gh.path q

/-- Compression keeps the roots. -/
lemma Compresses.root_eq {f g : Forest} (cp : f.Compresses g) (rk : f.Ranked) (i : Nat) :
    g.root i = f.root i := by
  obtain ⟨_, _, p⟩ := rk.path_root i
  obtain ⟨_, q⟩ := cp.path p
  exact q.root_eq cp.ranked

/-- The root of a number is still a root after a compression. -/
lemma Compresses.isRoot_root {f g : Forest} (cp : f.Compresses g) (rk : f.Ranked) (i : Nat) :
    g.parent (f.root i) = f.root i := by
  rw [← cp.root_eq rk]
  exact cp.ranked.isRoot_root i

/-- The root of a number is in range after a compression too. -/
lemma Compresses.root_lt {f g : Forest} (cp : f.Compresses g) (rk : f.Ranked) {i : Nat}
    (lt : i < f.size) : f.root i < g.size := by
  rw [cp.size]
  exact rk.root_lt lt

/-- Compression keeps the leaders. -/
lemma Compresses.leaderOf_eq {f g : Forest} (cp : f.Compresses g) (rk : f.Ranked) (i : Nat) :
    g.leaderOf i = f.leaderOf i := by
  rw [leaderOf, cp.root_eq rk, cp.leader]
  rfl

/-- Hanging a number that is no root below its root is a compression. -/
lemma Compresses.setParent {f : Forest} {k i r} (rk : f.Ranked) (p : f.Path (k + 1) i r) :
    f.Compresses (f.setParent i r) := by
  cases p with
  | up ne p =>
    have lt := lt_size_of_parent_ne ne
    have up : f.rank i < f.rank r := (rk.rank_lt ne).trans_le (p.rank_le rk)
    have ne_r : r ≠ i := by rintro rfl; omega
    refine ⟨by simp, by simp, by simp, ⟨?_, ?_⟩, ?_⟩
    · intro j ltj
      by_cases e : j = i
      · subst e
        rw [parent_setParent_self lt, size_setParent]
        exact p.lt_size rk (rk.parent_lt lt)
      · rw [parent_setParent_of_ne e, size_setParent]
        exact rk.parent_lt (by simpa using ltj)
    · intro j nej
      by_cases e : j = i
      · subst e
        rw [parent_setParent_self lt, rank_setParent, rank_setParent]
        exact up
      · rw [parent_setParent_of_ne e] at nej ⊢
        rw [rank_setParent, rank_setParent]
        exact rk.rank_lt nej
    · intro l j s q
      induction q with
      | @root s e =>
        have ne_s : s ≠ i := by rintro rfl; exact ne e
        exact ⟨0, .root ((parent_setParent_of_ne ne_s).trans e)⟩
      | @up l j s nej q ih =>
        by_cases e : j = i
        · -- the path passes through `i`, so it ends at `r`, which is now one step away
          subst e
          obtain rfl := q.unique p
          refine ⟨1, .up ?_ ?_⟩
          · rw [parent_setParent_self lt]; exact ne_r
          · rw [parent_setParent_self lt]
            exact .root ((parent_setParent_of_ne ne_r).trans p.isRoot)
        · obtain ⟨l', q'⟩ := ih
          have same := parent_setParent_of_ne (f := f) (p := r) e
          exact ⟨l' + 1, .up (same ▸ nej) (same ▸ q')⟩

/-- Hanging up a path below its root is a compression, and once all of it hangs there, further
steps change nothing. -/
lemma Path.hangPath {f : Forest} {k i r} (p : f.Path k i r) (rk : f.Ranked) {steps : Nat}
    (le : k ≤ steps) :
    f.Compresses (Forest.hangPath r steps i f) ∧
      Forest.hangPath r steps i f = Forest.hangPath r k i f := by
  induction k generalizing f i steps with
  | zero =>
    cases p with
    | root e =>
      cases steps with
      | zero => exact ⟨.refl rk, rfl⟩
      | succ steps => simp [Forest.hangPath, e, Compresses.refl rk]
  | succ k ih =>
    cases steps with
    | zero => omega
    | succ steps =>
      by_cases e : f.parent i = r
      · simp [Forest.hangPath, e, Compresses.refl rk]
      · have cp := Compresses.setParent rk p
        cases p with
        | up ne p =>
          -- the rest of the path starts at a higher rank, so it is still there
          have p' := p.setParent_of_rank_lt (q := r) rk (rk.rank_lt ne)
          obtain ⟨cp', same⟩ := ih p' cp.ranked (by omega : k ≤ steps)
          simp only [Forest.hangPath, if_neg e]
          exact ⟨cp.trans cp', same⟩

/-- Compressing a path keeps the trees. -/
lemma Ranked.compress {f : Forest} (rk : f.Ranked) (i : Nat) : f.Compresses (f.compress i) := by
  obtain ⟨_, le, p⟩ := rk.path_root i
  exact (p.hangPath rk le).1

/-! ## Linking -/

/-- One forest is another one with the root `low` hung below the root `high`, under a new leader. -/
structure Links (f g : Forest) (low high leader : Nat) : Prop where
  size : g.size = f.size
  parent_low : g.parent low = high
  parent : ∀ {i}, i ≠ low → g.parent i = f.parent i
  rank_le : f.rank low ≤ f.rank high
  rank_high : g.rank high = if f.rank low = f.rank high then f.rank high + 1 else f.rank high
  rank : ∀ {i}, i ≠ high → g.rank i = f.rank i
  leader_high : g.leader high = leader
  leader : ∀ {i}, i ≠ high → g.leader i = f.leader i

/-- Give a number a new rank and a new leader. -/
def retitle (f : Forest) (i : Nat) (rank : Nat → Nat) (leader : Nat) : Forest :=
  ⟨f.nodes.modify i fun node => { node with rank := rank node.rank, leader }⟩

/-- A new title adds no number. -/
@[simp] lemma size_retitle (f : Forest) (i rank leader) :
    (f.retitle i rank leader).size = f.size := by
  simp [retitle, size]

/-- A new title keeps the parents. -/
@[simp] lemma parent_retitle (f : Forest) (i rank leader j) :
    (f.retitle i rank leader).parent j = f.parent j := by
  rw [parent_eq_read, parent_eq_read]
  exact read_modify fun _ => rfl

/-- A number with a new title has its new rank. -/
lemma rank_retitle_self {f : Forest} {i : Nat} (rank leader) (lt : i < f.size) :
    (f.retitle i rank leader).rank i = rank (f.rank i) := by
  rw [rank_eq_read, rank_eq_read]
  exact read_modify_self rank lt fun _ => rfl

/-- A new title keeps the ranks of the other numbers. -/
lemma rank_retitle_of_ne {f : Forest} {i j : Nat} (rank leader) (ne : j ≠ i) :
    (f.retitle i rank leader).rank j = f.rank j := by
  rw [rank_eq_read, rank_eq_read, retitle, read_modify_of_ne ne]

/-- A number with a new title has its new leader. -/
lemma leader_retitle_self {f : Forest} {i : Nat} (rank leader) (lt : i < f.size) :
    (f.retitle i rank leader).leader i = leader := by
  rw [leader_eq_read]
  exact read_modify_self (fun _ => leader) lt fun _ => rfl

/-- A new title keeps the leaders of the other numbers. -/
lemma leader_retitle_of_ne {f : Forest} {i j : Nat} (rank leader) (ne : j ≠ i) :
    (f.retitle i rank leader).leader j = f.leader j := by
  rw [leader_eq_read, leader_eq_read, retitle, read_modify_of_ne ne]

/-- Hanging one root below another of no lower rank, with the right new rank, links them. -/
lemma Links.of_retitle {f : Forest} {low high : Nat} (rank : Nat → Nat) (leader : Nat)
    (lt_low : low < f.size) (lt_high : high < f.size) (le : f.rank low ≤ f.rank high)
    (eq : rank (f.rank high) = if f.rank low = f.rank high then f.rank high + 1 else f.rank high) :
    f.Links ((f.setParent low high).retitle high rank leader) low high leader where
  size := by simp
  parent_low := by rw [parent_retitle, parent_setParent_self lt_low]
  parent ne := by rw [parent_retitle, parent_setParent_of_ne ne]
  rank_le := le
  rank_high := by rw [rank_retitle_self _ _ (by simpa using lt_high), rank_setParent, eq]
  rank ne := by rw [rank_retitle_of_ne _ _ ne, rank_setParent]
  leader_high := leader_retitle_self _ _ (by simpa using lt_high)
  leader ne := by rw [leader_retitle_of_ne _ _ ne, leader_setParent]

/-- A link hangs one of the two roots below the other. -/
lemma links_link {f : Forest} {x y : Nat} (leader : Nat) (ltx : x < f.size) (lty : y < f.size) :
    f.Links (f.link x y leader) x y leader ∨ f.Links (f.link x y leader) y x leader := by
  rcases Nat.lt_trichotomy (f.rank x) (f.rank y) with lt | eq | gt
  · left
    have h := Links.of_retitle id leader ltx lty lt.le (by simp [lt.ne])
    simpa [link, retitle, lt] using h
  · -- of two roots of one rank the second hangs below the first, whose rank goes up
    right
    have h := Links.of_retitle (· + 1) leader lty ltx eq.ge (by simp [eq])
    simpa [link, retitle, eq] using h
  · right
    have h := Links.of_retitle id leader lty ltx gt.le (by simp [gt.ne])
    simpa [link, retitle, gt, gt.le.not_gt] using h

/-- Ranks still grow along parents after a link. -/
lemma Links.ranked {f g : Forest} {low high leader : Nat} (lk : f.Links g low high leader)
    (rk : f.Ranked) (ne : low ≠ high) (lt_high : high < f.size)
    (root_high : f.parent high = high) : g.Ranked := by
  have grows : ∀ i, f.rank i ≤ g.rank i := by
    intro i
    by_cases e : i = high
    · subst e; rw [lk.rank_high]; split <;> omega
    · exact (lk.rank e).ge
  refine ⟨?_, ?_⟩
  · intro i lt
    by_cases e : i = low
    · subst e; rw [lk.parent_low, lk.size]; exact lt_high
    · rw [lk.parent e, lk.size]
      exact rk.parent_lt (lk.size ▸ lt)
  · intro i nei
    by_cases e : i = low
    · subst e
      have := lk.rank_le
      rw [lk.parent_low, lk.rank ne, lk.rank_high]
      split <;> omega
    · rw [lk.parent e] at nei ⊢
      have up := rk.rank_lt nei
      have ne_high : i ≠ high := by rintro rfl; exact nei root_high
      rw [lk.rank ne_high]
      exact up.trans_le (grows _)

/-- What hung below `low` hangs below `high` after a link. -/
lemma Links.path {f g : Forest} {low high leader k i r : Nat} (lk : f.Links g low high leader)
    (ne : low ≠ high) (root_low : f.parent low = low) (root_high : f.parent high = high)
    (p : f.Path k i r) : ∃ l, g.Path l i (if r = low then high else r) := by
  induction p with
  | @root r e =>
    by_cases h : r = low
    · subst h
      have top : g.parent high = high := (lk.parent ne.symm).trans root_high
      refine ⟨1, .up ?_ ?_⟩
      · rw [lk.parent_low]; exact ne.symm
      · rw [lk.parent_low, if_pos rfl]; exact .root top
    · rw [if_neg h]
      exact ⟨0, .root ((lk.parent h).trans e)⟩
  | @up k i r nei _ ih =>
    obtain ⟨l, q⟩ := ih
    have ne_low : i ≠ low := by rintro rfl; exact nei root_low
    have e := lk.parent ne_low
    exact ⟨l + 1, .up (e ▸ nei) (e ▸ q)⟩

/-- The roots after a link. -/
lemma Links.root_eq {f g : Forest} {low high leader : Nat} (lk : f.Links g low high leader)
    (rk : f.Ranked) (ne : low ≠ high) (lt_high : high < f.size)
    (root_low : f.parent low = low) (root_high : f.parent high = high) (i : Nat) :
    g.root i = if f.root i = low then high else f.root i := by
  obtain ⟨_, _, p⟩ := rk.path_root i
  obtain ⟨_, q⟩ := lk.path ne root_low root_high p
  exact q.root_eq (lk.ranked rk ne lt_high root_high)

/-! ## Leaders -/

/-- Every root stores the lowest number of its tree. -/
structure WellFormed (f : Forest) : Prop extends f.Ranked where
  root_leaderOf : ∀ i, f.root (f.leaderOf i) = f.root i
  leaderOf_le : ∀ i, f.leaderOf i ≤ i

/-- Numbers have one leader if they have one root. -/
lemma WellFormed.leaderOf_eq_iff {f : Forest} (wf : f.WellFormed) {i j : Nat} :
    f.leaderOf i = f.leaderOf j ↔ f.root i = f.root j := by
  constructor
  · intro e
    rw [← wf.root_leaderOf i, e, wf.root_leaderOf]
  · intro e
    rw [leaderOf, leaderOf, e]

/-- A leader leads itself. -/
lemma WellFormed.leaderOf_leaderOf {f : Forest} (wf : f.WellFormed) (i : Nat) :
    f.leaderOf (f.leaderOf i) = f.leaderOf i :=
  wf.leaderOf_eq_iff.2 (wf.root_leaderOf i)

/-- The leader that a root stores is the leader of its tree. -/
lemma WellFormed.leader_of_isRoot {f : Forest} (wf : f.WellFormed) {r : Nat}
    (e : f.parent r = r) : f.leader r = f.leaderOf r := by
  rw [leaderOf, wf.root_of_isRoot e]

/-- The leader of a number in the forest is in the forest. -/
lemma WellFormed.leaderOf_lt {f : Forest} (wf : f.WellFormed) {i : Nat} (lt : i < f.size) :
    f.leaderOf i < f.size :=
  (wf.leaderOf_le i).trans_lt lt

/-- A number that is not in the forest leads itself. -/
lemma leaderOf_of_size_le {f : Forest} {i : Nat} (le : f.size ≤ i) : f.leaderOf i = i := by
  have e : f.root i = i := (Path.root (parent_of_size_le le)).climb (Nat.zero_le _)
  rw [leaderOf, e, leader_of_size_le le]

/-- A forest without numbers is well-formed. -/
lemma empty_wellFormed : Forest.empty.WellFormed where
  parent_lt lt := absurd lt (by simp [empty, size])
  rank_lt ne := absurd (parent_of_size_le (by simp [empty, size])) ne
  root_leaderOf i := by rw [leaderOf_of_size_le (by simp [empty, size])]
  leaderOf_le i := by rw [leaderOf_of_size_le (by simp [empty, size])]

/-- A new number is a tree of its own. -/
lemma Ranked.push {f : Forest} (rk : f.Ranked) : f.push.Ranked := by
  refine ⟨?_, ?_⟩
  · intro i lt
    rw [parent_push, size_push]
    by_cases le : f.size ≤ i
    · rw [parent_of_size_le le]
      simpa using lt
    · have := rk.parent_lt (by omega : i < f.size)
      omega
  · intro i ne
    simp only [parent_push, rank_push] at ne ⊢
    exact rk.rank_lt ne

/-- No root changes when a number is added. -/
lemma Ranked.root_push {f : Forest} (rk : f.Ranked) (i : Nat) : f.push.root i = f.root i := by
  obtain ⟨_, _, p⟩ := rk.path_root i
  have q : ∀ {k i r}, f.Path k i r → f.push.Path k i r := by
    intro k i r p
    induction p with
    | root e => exact .root (by rw [parent_push, e])
    | up ne _ ih => exact .up (by rwa [parent_push]) (by rwa [parent_push])
  exact (q p).root_eq rk.push

/-- No leader changes when a number is added. -/
lemma Ranked.leaderOf_push {f : Forest} (rk : f.Ranked) (i : Nat) :
    f.push.leaderOf i = f.leaderOf i := by
  rw [leaderOf, rk.root_push, leader_push]
  rfl

/-- A forest with a new number is well-formed. -/
lemma WellFormed.push {f : Forest} (wf : f.WellFormed) : f.push.WellFormed where
  toRanked := wf.toRanked.push
  root_leaderOf i := by
    rw [wf.leaderOf_push, wf.root_push, wf.root_push, wf.root_leaderOf]
  leaderOf_le i := by
    rw [wf.leaderOf_push]
    exact wf.leaderOf_le i

/-- Compression keeps a forest well-formed. -/
lemma Compresses.wellFormed {f g : Forest} (cp : f.Compresses g) (wf : f.WellFormed) :
    g.WellFormed where
  toRanked := cp.ranked
  root_leaderOf i := by
    rw [cp.leaderOf_eq wf.toRanked, cp.root_eq wf.toRanked, cp.root_eq wf.toRanked,
      wf.root_leaderOf]
  leaderOf_le i := by
    rw [cp.leaderOf_eq wf.toRanked]
    exact wf.leaderOf_le i

/-- The leaders after a link under the lower one of two leaders. -/
lemma Links.leaderOf_eq {f g : Forest} {low high : Nat}
    (lk : f.Links g low high (min (f.leader low) (f.leader high)))
    (wf : f.WellFormed) (ne : low ≠ high) (lt_high : high < f.size)
    (root_low : f.parent low = low) (root_high : f.parent high = high) (i : Nat) :
    g.leaderOf i = if f.leaderOf i = max (f.leader low) (f.leader high)
      then min (f.leader low) (f.leader high) else f.leaderOf i := by
  have root := lk.root_eq wf.toRanked ne lt_high root_low root_high i
  have here : f.leaderOf i = f.leader (f.root i) := rfl
  have there : g.leaderOf i = g.leader (g.root i) := rfl
  by_cases in_low : f.root i = low
  · rw [in_low] at here
    rw [there, root, if_pos in_low, lk.leader_high]
    split <;> omega
  · rw [if_neg in_low] at root
    by_cases in_high : f.root i = high
    · rw [in_high] at here
      rw [there, root, in_high, lk.leader_high]
      split <;> omega
    · -- the tree takes no part in the link, and so its leader is none of the two
      have ne_low : f.leaderOf i ≠ f.leader low := by
        rw [wf.leader_of_isRoot root_low, Ne, wf.leaderOf_eq_iff, wf.root_of_isRoot root_low]
        exact in_low
      have ne_high : f.leaderOf i ≠ f.leader high := by
        rw [wf.leader_of_isRoot root_high, Ne, wf.leaderOf_eq_iff, wf.root_of_isRoot root_high]
        exact in_high
      rw [there, root, lk.leader in_high, ← here]
      split <;> omega

/-- A link under the lower one of two leaders keeps a forest well-formed. -/
lemma Links.wellFormed {f g : Forest} {low high : Nat}
    (lk : f.Links g low high (min (f.leader low) (f.leader high)))
    (wf : f.WellFormed) (ne : low ≠ high) (lt_high : high < f.size)
    (root_low : f.parent low = low) (root_high : f.parent high = high) : g.WellFormed := by
  have leaderOf := lk.leaderOf_eq wf ne lt_high root_low root_high
  have root := lk.root_eq wf.toRanked ne lt_high root_low root_high
  have at_low : f.root (f.leader low) = low := by
    rw [wf.leader_of_isRoot root_low, wf.root_leaderOf, wf.root_of_isRoot root_low]
  have at_high : f.root (f.leader high) = high := by
    rw [wf.leader_of_isRoot root_high, wf.root_leaderOf, wf.root_of_isRoot root_high]
  -- both leaders end up below `high`
  have top : ∀ {j}, j = f.leader low ∨ j = f.leader high → g.root j = high := by
    rintro j (rfl | rfl)
    · rw [root, at_low, if_pos rfl]
    · rw [root, at_high, if_neg ne.symm]
  refine ⟨lk.ranked wf.toRanked ne lt_high root_high, ?_, ?_⟩
  · intro i
    have same : g.root (f.leaderOf i) = g.root i := by rw [root, root, wf.root_leaderOf]
    rw [leaderOf]
    split
    · rename_i e
      rw [top (by omega), ← same, top (by omega)]
    · exact same
  · intro i
    have le := wf.leaderOf_le i
    rw [leaderOf]
    split <;> omega

/-- Linking two roots under the lower leader keeps a forest well-formed. -/
lemma WellFormed.link {f : Forest} (wf : f.WellFormed) {x y : Nat} (ne : x ≠ y)
    (ltx : x < f.size) (lty : y < f.size) (rx : f.parent x = x) (ry : f.parent y = y) :
    (f.link x y (min (f.leader x) (f.leader y))).WellFormed := by
  rcases links_link (min (f.leader x) (f.leader y)) ltx lty with lk | lk
  · exact lk.wellFormed wf ne lty rx ry
  · rw [min_comm] at lk ⊢
    exact lk.wellFormed wf ne.symm ltx ry rx

/-- After a link, who followed the higher one of the two leaders follows the lower one. -/
lemma WellFormed.leaderOf_link {f : Forest} (wf : f.WellFormed) {x y : Nat} (ne : x ≠ y)
    (ltx : x < f.size) (lty : y < f.size) (rx : f.parent x = x) (ry : f.parent y = y) (i : Nat) :
    (f.link x y (min (f.leader x) (f.leader y))).leaderOf i =
      if f.leaderOf i = max (f.leader x) (f.leader y) then min (f.leader x) (f.leader y)
      else f.leaderOf i := by
  rcases links_link (min (f.leader x) (f.leader y)) ltx lty with lk | lk
  · exact lk.leaderOf_eq wf ne lty rx ry i
  · rw [min_comm] at lk ⊢
    rw [max_comm]
    exact lk.leaderOf_eq wf ne.symm ltx ry rx i

/-- A link adds no number. -/
@[simp] lemma size_link {f : Forest} {x y : Nat} (leader : Nat) :
    (f.link x y leader).size = f.size := by
  simp only [link, size]
  split
  · simp [setParent]
  · split <;> simp [setParent]

end TypeRecovery.Forest
