/-!
# JSON values

A JSON text as a tree. The members of an object keep their order and their repetitions, and whole
numbers are told from other ones, because the readers of typed data look at both.
-/

namespace TypeRecovery

/-- A JSON value. -/
inductive Json where
  | null
  | bool (value : Bool)
  /-- A number that is written as an integer and fits into 64 bits, signed or unsigned. -/
  | integer (value : Int)
  /-- Any other number, by the way it is written. -/
  | decimal (literal : String)
  | string (value : String)
  | array (items : List Json)
  | object (members : List (String × Json))
  /-- A value that obeys the grammar and can be skipped, but that denotes nothing: a number too
  large for any double, a string with half of a surrogate pair, or an object with such a key. -/
  | unreadable
  deriving Repr, Inhabited

namespace Json

mutual

/-- Whether every part of a value denotes something and lies within `room` levels of nesting. -/
def isReadable (room : Nat) : Json → Bool
  | .array items => 0 < room && areReadable (room - 1) items
  | .object members => 0 < room && membersReadable (room - 1) members
  | .unreadable => false
  | _ => true

/-- Whether every value of a list is readable. -/
def areReadable (room : Nat) : List Json → Bool
  | [] => true
  | item :: items => isReadable room item && areReadable room items

/-- Whether every member of an object is readable. -/
def membersReadable (room : Nat) : List (String × Json) → Bool
  | [] => true
  | (_, value) :: members => isReadable room value && membersReadable room members

end

/-- The integers that a JSON number denotes exactly: those of 64 bits, signed or unsigned. -/
def FitsInteger (n : Int) : Prop :=
  Int64.minValue.toInt ≤ n ∧ n < UInt64.size

instance (n : Int) : Decidable (FitsInteger n) :=
  inferInstanceAs (Decidable (_ ∧ _))

/-- A natural number as JSON. -/
def ofNat (n : Nat) : Json :=
  .integer n

/-- A list as JSON, item by item. -/
def ofList {α : Type} (encode : α → Json) (xs : List α) : Json :=
  .array (xs.map encode)

/-- An optional value as JSON, `null` standing for none. -/
def ofOption {α : Type} (encode : α → Json) : Option α → Json
  | some x => encode x
  | none => .null

/-- A value under a tag. -/
def tagged (tag : String) (body : Json) : Json :=
  .object [(tag, body)]

/-- A value under a tag, where the value is a record. -/
def taggedRecord (tag : String) (members : List (String × Json)) : Json :=
  tagged tag (.object members)

/-- A member that is left out when there is no value. -/
def memberIfSome {α : Type} (key : String) (encode : α → Json) : Option α → List (String × Json)
  | some x => [(key, encode x)]
  | none => []

/-- A flag that is left out when it is false. -/
def memberIfTrue (key : String) (flag : Bool) : List (String × Json) :=
  if flag then [(key, .bool true)] else []

end Json

end TypeRecovery
