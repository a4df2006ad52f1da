import TypeRecovery.Ident

/-!
# Recovered types

The type of a class of variables. A pointer names the class that it points into and does not embed
that class's type, so a type stays valid while its target is still being recovered, and recursive
data needs no infinite term.
-/

namespace TypeRecovery

/-- What is known of the sign of an integer. -/
inductive Signedness where
  | unknown
  | signed
  | unsigned
  deriving DecidableEq, Repr, Inhabited

/-- A known sign beats an unknown one, and a disagreement leaves the sign unknown. -/
def Signedness.merge : Signedness → Signedness → Signedness
  | .unknown, s => s
  | s, .unknown => s
  | .signed, .signed => .signed
  | .unsigned, .unsigned => .unsigned
  | _, _ => .unknown

/-- A member of a structure, whose type is drawn from `τ`. -/
structure Field (τ : Type) where
  /-- Byte offset from the start of the structure. -/
  offset : Int64
  type : τ
  /-- Whether the field only fills the space between observed ones. -/
  padding : Bool
  deriving DecidableEq, Repr

/-- A recovered type. -/
inductive DataType where
  /-- No evidence, or the result of a function that returns nothing. -/
  | void
  /-- The result of a comparison. -/
  | boolean
  /-- An integer of `width` bytes. -/
  | integer (width : UInt8) (sign : Signedness)
  /-- A pointer into another class. -/
  | pointer (target : ClassId)
  /-- Elements in a row, `none` standing for an unknown number of them. -/
  | array (element : DataType) (length : Option UInt64)
  /-- Fields at fixed offsets. -/
  | struct (size : UInt64) (fields : List (Field DataType))
  /-- Types that share their storage. -/
  | union (alternatives : List DataType)
  /-- Code; an untyped function has parameters that nobody could agree on. -/
  | function (params : List DataType) (result : DataType) (untyped : Bool)
  deriving Repr, Inhabited

namespace DataType

/-! ## Equality -/

mutual

/-- Equality of types as a test. -/
def beq : DataType → DataType → Bool
  | .void, .void => true
  | .boolean, .boolean => true
  | .integer w s, .integer w' s' => w == w' && s == s'
  | .pointer c, .pointer c' => c == c'
  | .array t n, .array t' n' => beq t t' && n == n'
  | .struct n fs, .struct n' fs' => n == n' && beqFields fs fs'
  | .union ts, .union ts' => beqList ts ts'
  | .function ts t u, .function ts' t' u' => beqList ts ts' && beq t t' && u == u'
  | _, _ => false

/-- Equality of lists of types as a test. -/
def beqList : List DataType → List DataType → Bool
  | [], [] => true
  | t :: ts, t' :: ts' => beq t t' && beqList ts ts'
  | _, _ => false

/-- Equality of lists of fields as a test. -/
def beqFields : List (Field DataType) → List (Field DataType) → Bool
  | [], [] => true
  | ⟨o, t, p⟩ :: fs, f :: fs' => o == f.offset && beq t f.type && p == f.padding && beqFields fs fs'
  | _, _ => false

end

mutual

/-- The test of equality succeeds exactly on equal types. -/
theorem beq_iff_eq : ∀ a b : DataType, beq a b = true ↔ a = b
  | .void, b => by cases b <;> simp [beq]
  | .boolean, b => by cases b <;> simp [beq]
  | .integer _ _, b => by cases b <;> simp [beq]
  | .pointer _, b => by cases b <;> simp [beq]
  | .array t _, b => by cases b <;> simp [beq, beq_iff_eq t]
  | .struct _ fs, b => by cases b <;> simp [beq, beqFields_iff_eq fs]
  | .union ts, b => by cases b <;> simp [beq, beqList_iff_eq ts]
  | .function ts t _, b => by
    cases b <;> simp [beq, beqList_iff_eq ts, beq_iff_eq t, and_assoc]

/-- The test of equality succeeds exactly on equal lists of types. -/
theorem beqList_iff_eq : ∀ a b : List DataType, beqList a b = true ↔ a = b
  | [], b => by cases b <;> simp [beqList]
  | t :: ts, b => by cases b <;> simp [beqList, beq_iff_eq t, beqList_iff_eq ts]

/-- The test of equality succeeds exactly on equal lists of fields. -/
theorem beqFields_iff_eq : ∀ a b : List (Field DataType), beqFields a b = true ↔ a = b
  | [], b => by cases b <;> simp [beqFields]
  | ⟨o, t, p⟩ :: fs, [] => by simp [beqFields]
  | ⟨o, t, p⟩ :: fs, ⟨o', t', p'⟩ :: fs' => by
    simp [beqFields, beq_iff_eq t, beqFields_iff_eq fs, and_assoc]

end

instance : DecidableEq DataType := fun a b => decidable_of_iff _ (beq_iff_eq a b)

/-! ## Common types -/

/-- An integer of unknown sign. -/
def word (width : UInt8) : DataType :=
  .integer width .unknown

/-- A one-byte integer of unknown sign. -/
def byte : DataType :=
  word 1

/-- A function whose parameters and result are unknown. -/
def untypedFunction : DataType :=
  .function [] .void true

/-- A field that was accessed. -/
def observed (offset : Int64) (type : DataType) : Field DataType :=
  ⟨offset, type, false⟩

/-- A field of `length` bytes that was never accessed. -/
def filler (offset : Int64) (length : UInt64) : Field DataType :=
  ⟨offset, .array byte (some length), true⟩

/-! ## Classification -/

/-- The name of a type's kind. -/
def kindName : DataType → String
  | .void => "void"
  | .boolean => "boolean"
  | .integer .. => "integer"
  | .pointer _ => "pointer"
  | .array .. => "array"
  | .struct .. => "struct"
  | .union _ => "union"
  | .function .. => "function"

def isVoid : DataType → Bool
  | .void => true
  | _ => false

def isPointer : DataType → Bool
  | .pointer _ => true
  | _ => false

def isUnion : DataType → Bool
  | .union _ => true
  | _ => false

/-- Booleans and integers. -/
def isScalar : DataType → Bool
  | .boolean | .integer .. => true
  | _ => false

/-- Structures, arrays and unions. -/
def isAggregate : DataType → Bool
  | .struct .. | .array .. | .union _ => true
  | _ => false

/-! ## Size -/

mutual

/-- The size in bytes. Functions, arrays of unknown length, and arrays whose size does not fit into
64 bits have none; a union is as large as its largest alternative. -/
def size? (pointerWidth : UInt8) : DataType → Option Nat
  | .void => none
  | .boolean => some 1
  | .integer width _ => some width.toNat
  | .pointer _ => some pointerWidth.toNat
  | .array element length =>
    match size? pointerWidth element, length with
    | some s, some n => if s * n.toNat < UInt64.size then some (s * n.toNat) else none
    | _, _ => none
  | .struct size _ => some size.toNat
  | .union alternatives => largest? pointerWidth alternatives
  | .function .. => none

/-- The largest of the known sizes. -/
def largest? (pointerWidth : UInt8) : List DataType → Option Nat
  | [] => none
  | t :: ts => max (size? pointerWidth t) (largest? pointerWidth ts)

end

/-! ## Class references -/

mutual

/-- Rename every class that a type mentions. -/
def mapClasses (f : ClassId → ClassId) : DataType → DataType
  | .void => .void
  | .boolean => .boolean
  | .integer width sign => .integer width sign
  | .pointer target => .pointer (f target)
  | .array element length => .array (mapClasses f element) length
  | .struct size fields => .struct size (mapClassesFields f fields)
  | .union alternatives => .union (mapClassesList f alternatives)
  | .function params result untyped =>
    .function (mapClassesList f params) (mapClasses f result) untyped

/-- Rename every class in a list of types. -/
def mapClassesList (f : ClassId → ClassId) : List DataType → List DataType
  | [] => []
  | t :: ts => mapClasses f t :: mapClassesList f ts

/-- Rename every class in a list of fields. -/
def mapClassesFields (f : ClassId → ClassId) : List (Field DataType) → List (Field DataType)
  | [] => []
  | ⟨offset, type, padding⟩ :: fields =>
    ⟨offset, mapClasses f type, padding⟩ :: mapClassesFields f fields

end

end DataType

/-- The fields that were accessed. -/
def Field.observed {τ : Type} (fields : List (Field τ)) : List (Field τ) :=
  fields.filter (fun field => !field.padding)

/-- The first field that starts at an offset. -/
def Field.at? {τ : Type} (fields : List (Field τ)) (offset : Int64) : Option (Field τ) :=
  fields.find? (fun field => field.offset == offset)

end TypeRecovery
