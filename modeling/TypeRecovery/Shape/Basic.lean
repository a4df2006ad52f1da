import TypeRecovery.Alternatives
import TypeRecovery.DataType.Text

/-!
# Shapes

Class numbers belong to the analysis of one function, so types that mention classes cannot be
compared between functions. A shape keeps of a type what two analyses can agree on.
-/

namespace TypeRecovery

/-- A type without class references. -/
inductive Shape where
  | unknown
  | boolean
  | integer (width : UInt8) (sign : Signedness)
  | pointer
  | code
  | array (element : Shape) (length : Option UInt64)
  | aggregate (size : UInt64)
  | union (alternatives : List Shape)
  deriving Repr, Inhabited

namespace Shape

/-! ## Equality -/

mutual

/-- Equality of shapes as a test. -/
def beq : Shape → Shape → Bool
  | .unknown, .unknown => true
  | .boolean, .boolean => true
  | .integer w s, .integer w' s' => w == w' && s == s'
  | .pointer, .pointer => true
  | .code, .code => true
  | .array t n, .array t' n' => beq t t' && n == n'
  | .aggregate n, .aggregate n' => n == n'
  | .union ts, .union ts' => beqList ts ts'
  | _, _ => false

/-- Equality of lists of shapes as a test. -/
def beqList : List Shape → List Shape → Bool
  | [], [] => true
  | t :: ts, t' :: ts' => beq t t' && beqList ts ts'
  | _, _ => false

end

mutual

/-- The test of equality succeeds exactly on equal shapes. -/
theorem beq_iff_eq : ∀ a b : Shape, beq a b = true ↔ a = b
  | .unknown, b => by cases b <;> simp [beq]
  | .boolean, b => by cases b <;> simp [beq]
  | .integer _ _, b => by cases b <;> simp [beq]
  | .pointer, b => by cases b <;> simp [beq]
  | .code, b => by cases b <;> simp [beq]
  | .array t _, b => by cases b <;> simp [beq, beq_iff_eq t]
  | .aggregate _, b => by cases b <;> simp [beq]
  | .union ts, b => by cases b <;> simp [beq, beqList_iff_eq ts]

/-- The test of equality succeeds exactly on equal lists of shapes. -/
theorem beqList_iff_eq : ∀ a b : List Shape, beqList a b = true ↔ a = b
  | [], b => by cases b <;> simp [beqList]
  | t :: ts, b => by cases b <;> simp [beqList, beq_iff_eq t, beqList_iff_eq ts]

end

instance : DecidableEq Shape := fun a b => decidable_of_iff _ (beq_iff_eq a b)

/-! ## Erasure -/

mutual

/-- Forget the classes that a type mentions. -/
def ofType : DataType → Shape
  | .void => .unknown
  | .boolean => .boolean
  | .integer width sign => .integer width sign
  | .pointer _ => .pointer
  | .array element length => .array (ofType element) length
  | .struct size _ => .aggregate size
  | .union alternatives => .union (ofTypes alternatives)
  | .function .. => .code

/-- Forget the classes in a list of types. -/
def ofTypes : List DataType → List Shape
  | [] => []
  | t :: ts => ofType t :: ofTypes ts

end

/-! ## Join -/

mutual

/-- The alternatives that a shape stands for, without `unknown`. -/
def leaves : Shape → List Shape
  | .unknown => []
  | .union alternatives => leavesList alternatives
  | s => [s]

/-- The alternatives that a list of shapes stands for. -/
def leavesList : List Shape → List Shape
  | [] => []
  | s :: ss => leaves s ++ leavesList ss

end

/-- The join of two shapes if it needs no union. -/
def merge? (a b : Shape) : Option Shape :=
  if a = .unknown then some b
  else if b = .unknown then some a
  else if a = b then some a
  else match a, b with
    | .integer w s, .integer w' s' => some (.integer (max w w') (s.merge s'))
    | .boolean, .integer w s => some (.integer w s)
    | .integer w s, .boolean => some (.integer w s)
    | .array element length, .array element' length' =>
      (merge? element element').map fun joined =>
        .array joined (if length = length' then length else none)
    | .aggregate size, .aggregate size' => some (.aggregate (max size size'))
    | _, _ => none

/-- The shape with the given alternatives: `unknown` for none, and no union around a single one. -/
def ofAlternatives : List Shape → Shape
  | [] => .unknown
  | [s] => s
  | ss => .union ss

/-- The least shape that covers both shapes. -/
def join (a b : Shape) : Shape :=
  ofAlternatives (Alternatives.insertAll merge? [] (leavesList [a, b]))

/-- The join of a list of shapes. -/
def joinAll (ss : List Shape) : Shape :=
  ss.foldl join .unknown

/-- Whether the evidence could not be reconciled. -/
def isConflict : Shape → Bool
  | .union _ => true
  | _ => false

/-! ## Written form -/

mutual

/-- How a shape is written. -/
def text : Shape → String
  | .unknown => "?"
  | .boolean => "bool"
  | .integer width sign => sign.integerText width
  | .pointer => "ptr"
  | .code => "code"
  | .array element length => text element ++ lengthText length
  | .aggregate size => "struct(" ++ Nat.repr size.toNat ++ ")"
  | .union alternatives => "union \x7b " ++ " | ".intercalate (texts alternatives) ++ " \x7d"

/-- How each of a list of shapes is written. -/
def texts : List Shape → List String
  | [] => []
  | s :: ss => text s :: texts ss

end

end Shape

end TypeRecovery
