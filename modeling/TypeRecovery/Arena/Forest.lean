/-!
# The forest of merged numbers

Numbers are merged by linking trees of parent pointers: by rank, and with paths compressed as they
are climbed. Every root stores the leader of its tree, which names the tree independently of its
form.
-/

namespace TypeRecovery

/-- A number's place in the forest. -/
structure Node where
  /-- The number above, or the number itself for a root. -/
  parent : Nat
  /-- A bound on the height of the tree below. -/
  rank : Nat
  /-- The name of the tree; only the one stored at a root counts. -/
  leader : Nat
  deriving DecidableEq, Repr, Inhabited

/-- A forest over the numbers below its size. -/
structure Forest where
  nodes : Array Node
  deriving Repr, Inhabited

namespace Forest

/-- No numbers. -/
def empty : Forest :=
  ⟨#[]⟩

/-- How many numbers there are. -/
def size (f : Forest) : Nat :=
  f.nodes.size

/-- The number above. -/
def parent (f : Forest) (i : Nat) : Nat :=
  match f.nodes[i]? with
  | some node => node.parent
  | none => i

/-- The rank stored for a number. -/
def rank (f : Forest) (i : Nat) : Nat :=
  match f.nodes[i]? with
  | some node => node.rank
  | none => 0

/-- The leader stored for a number. -/
def leader (f : Forest) (i : Nat) : Nat :=
  match f.nodes[i]? with
  | some node => node.leader
  | none => i

/-- Add the next number as a tree of its own. -/
def push (f : Forest) : Forest :=
  ⟨f.nodes.push ⟨f.size, 0, f.size⟩⟩

/-- Climb at most `steps` parents. -/
def climb (f : Forest) : (steps : Nat) → Nat → Nat
  | 0, i => i
  | steps + 1, i => if f.parent i = i then i else climb f steps (f.parent i)

/-- The root of a number's tree. No path is longer than the forest is large. -/
def root (f : Forest) (i : Nat) : Nat :=
  f.climb f.size i

/-- The leader of a number's tree. -/
def leaderOf (f : Forest) (i : Nat) : Nat :=
  f.leader (f.root i)

/-- Hang a number below another one. -/
def setParent (f : Forest) (i parent : Nat) : Forest :=
  ⟨f.nodes.modify i fun node => { node with parent }⟩

/-- Hang the numbers on the path from `i` below `root`, as far as `steps` parents up. -/
def hangPath (root : Nat) : (steps : Nat) → Nat → Forest → Forest
  | 0, _, f => f
  | steps + 1, i, f =>
    if f.parent i = root then f else hangPath root steps (f.parent i) (f.setParent i root)

/-- Compress the path from a number to its root. -/
def compress (f : Forest) (i : Nat) : Forest :=
  hangPath (f.root i) f.size i f

/-- Link two roots, the one of lower rank below the other, and name the tree. -/
def link (f : Forest) (x y leader : Nat) : Forest :=
  if f.rank x < f.rank y then
    ⟨(f.setParent x y).nodes.modify y fun node => { node with leader }⟩
  else if f.rank y < f.rank x then
    ⟨(f.setParent y x).nodes.modify x fun node => { node with leader }⟩
  else
    ⟨(f.setParent y x).nodes.modify x fun node => { node with rank := node.rank + 1, leader }⟩

end Forest

end TypeRecovery
