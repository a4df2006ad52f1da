/-!
# Alternatives

A list of alternatives that a partial merge cannot combine any further. A new alternative is merged
into the first one that accepts it, and stands at the end if none does, so the order in which
alternatives were first seen is kept.
-/

namespace TypeRecovery.Alternatives

variable {α : Type}

/-- Merge `x` into the first alternative that accepts it, or append it. -/
def insert (merge : α → α → Option α) (x : α) : List α → List α
  | [] => [x]
  | y :: ys =>
    match merge y x with
    | some z => z :: ys
    | none => y :: insert merge x ys

/-- Insert the members of `xs` one after the other. -/
def insertAll (merge : α → α → Option α) (acc xs : List α) : List α :=
  xs.foldl (fun acc x => insert merge x acc) acc

/-- Inserting nothing changes nothing. -/
@[simp] theorem insertAll_nil (merge : α → α → Option α) (acc : List α) :
    insertAll merge acc [] = acc := rfl

/-- The first of several alternatives is inserted first. -/
@[simp] theorem insertAll_cons (merge : α → α → Option α) (acc : List α) (x : α) (xs : List α) :
    insertAll merge acc (x :: xs) = insertAll merge (insert merge x acc) xs := rfl

/-- Inserting two lists in turn is inserting their concatenation. -/
theorem insertAll_append (merge : α → α → Option α) (acc xs ys : List α) :
    insertAll merge acc (xs ++ ys) = insertAll merge (insertAll merge acc xs) ys :=
  List.foldl_append

end TypeRecovery.Alternatives
