import TypeRecovery.Alternatives
import TypeRecovery.DataType.Basic

/-!
# Joining types

Two pieces of evidence about one value are joined to the least type that covers both. `void` is the
bottom, an integer absorbs booleans and narrower integers, the first of two pointers wins, and what
cannot be reconciled becomes a union whose alternatives keep the order in which they were seen.
-/

namespace TypeRecovery.DataType

mutual

/-- How deep arrays and functions are nested in one another; unions do not count. -/
def nesting : DataType → Nat
  | .array element _ => nesting element + 1
  | .union alternatives => nestingList alternatives
  | .function params result _ => max (nestingList params) (nesting result) + 1
  | _ => 0

/-- The deepest nesting in a list of types. -/
def nestingList : List DataType → Nat
  | [] => 0
  | t :: ts => max (nesting t) (nestingList ts)

end

mutual

/-- The alternatives that a type stands for: the members of its unions at any depth, without
`void`. -/
def leaves : DataType → List DataType
  | .void => []
  | .union alternatives => leavesList alternatives
  | t => [t]

/-- The alternatives that a list of types stands for. -/
def leavesList : List DataType → List DataType
  | [] => []
  | t :: ts => leaves t ++ leavesList ts

end

/-- The type with the given alternatives: `void` for none, and no union around a single one. -/
def ofAlternatives : List DataType → DataType
  | [] => .void
  | [t] => t
  | ts => .union ts

/-- The union of a list of types, whose alternatives are combined by `merge` where it applies. -/
def unionWith (merge : DataType → DataType → Option DataType) (ts : List DataType) : DataType :=
  ofAlternatives (Alternatives.insertAll merge [] (leavesList ts))

/-- The join of two types, given how alternatives are combined. -/
def joinWith (merge : DataType → DataType → Option DataType) (a b : DataType) : DataType :=
  if a.isUnion || b.isUnion then unionWith merge [a, b]
  else (merge a b).getD (unionWith merge [a, b])

/-- Merging that looks through `depth` levels of arrays and functions. -/
def mergeWithin (depth : Nat) (a b : DataType) : Option DataType :=
  if a = .void then some b
  else if b = .void then some a
  else if a = b then some a
  else match depth, a, b with
    | _, .integer w s, .integer w' s' => some (.integer (max w w') (s.merge s'))
    | _, .boolean, .integer w s => some (.integer w s)
    | _, .integer w s, .boolean => some (.integer w s)
    | _, .pointer target, .pointer _ => some (.pointer target)
    | depth + 1, .array element length, .array element' length' =>
      (mergeWithin depth element element').map fun joined =>
        .array joined (if length = length' then length else none)
    | depth + 1, .function params result untyped, .function params' result' untyped' =>
      if untyped || untyped' || params.length != params'.length then some untypedFunction
      else
        let join := joinWith (mergeWithin depth)
        some (.function (List.zipWith join params params') (join result result') false)
    | _, _, _ => none

/-- The join of two types if it needs no union.

Arrays join element by element and lose a length that they disagree on; functions join parameter by
parameter, and become untyped when one of them is or when they differ in arity. -/
def merge? (a b : DataType) : Option DataType :=
  mergeWithin (max a.nesting b.nesting) a b

/-- The union of a list of types: nested unions are flattened, alternatives that can be merged are,
and the order of first sight is kept. -/
def unionOf (ts : List DataType) : DataType :=
  unionWith merge? ts

/-- The least type that covers both types. -/
def join (a b : DataType) : DataType :=
  joinWith merge? a b

/-- The join of a list of types. -/
def joinAll (ts : List DataType) : DataType :=
  ts.foldl join .void

end TypeRecovery.DataType
