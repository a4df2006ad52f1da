/-!
# Ascending lists

Sorting, with repetitions or without. An order is given by its strict comparison where repetitions
are dropped, and by its reflexive one where they are kept.
-/

namespace TypeRecovery.Ascending

variable {α : Type}

/-- Put `x` in its place, unless it is there already. -/
def insertNew (lt : α → α → Bool) (x : α) : List α → List α
  | [] => [x]
  | y :: ys =>
    if lt x y then x :: y :: ys
    else if lt y x then y :: insertNew lt x ys
    else y :: ys

/-- The members of a list in ascending order, each of them once. -/
def ofList (lt : α → α → Bool) (xs : List α) : List α :=
  xs.foldr (insertNew lt) []

/-- Put `x` in front of the first member that it does not exceed. -/
def insert (le : α → α → Bool) (x : α) : List α → List α
  | [] => [x]
  | y :: ys => if le x y then x :: y :: ys else y :: insert le x ys

/-- The members of a list in ascending order; equal ones keep their order. -/
def sort (le : α → α → Bool) (xs : List α) : List α :=
  xs.foldr (insert le) []

/-- The members of a list in their order, without those that occurred before. -/
def distinct [DecidableEq α] : List α → List α
  | [] => []
  | x :: xs => x :: (distinct xs).filter (fun y => decide (y ≠ x))

/-- A list without the members that repeat the one in front of them. -/
def dropRepeated [DecidableEq α] : List α → List α
  | [] => []
  | [x] => [x]
  | x :: y :: ys => if x = y then dropRepeated (y :: ys) else x :: dropRepeated (y :: ys)

/-- Look for the member with a key in a list of ascending keys, by halving it at most `steps`
times. -/
def bisectWithin (key : α → Nat) (k : Nat) : (steps : Nat) → List α → Option α
  | _, [] => none
  | _, [x] => if key x = k then some x else none
  | 0, _ => none
  | steps + 1, xs =>
    let half := xs.length / 2
    match xs[half]? with
    | some middle =>
      if k < key middle then bisectWithin key k steps (xs.take (xs.length - half))
      else bisectWithin key k steps (xs.drop half)
    | none => none

/-- Look for the member with a key in a list of ascending keys. -/
def bisect (key : α → Nat) (k : Nat) (xs : List α) : Option α :=
  bisectWithin key k xs.length xs

/-- Lists in the order of their first difference, a shorter one before its continuations. -/
def lexLe : List Int → List Int → Bool
  | [], _ => true
  | _ :: _, [] => false
  | x :: xs, y :: ys => if x < y then true else if y < x then false else lexLe xs ys

end TypeRecovery.Ascending
