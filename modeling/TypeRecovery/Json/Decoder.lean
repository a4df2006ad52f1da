import TypeRecovery.Json.Basic

/-!
# Reading typed data out of JSON

A decoder reads a value of some type out of a JSON value. It never looks deeper than the nesting
that is allowed, and never at members that it does not know.

- Numbers are integers of a stated range; nothing is converted.
- A record is an object, or an array of its members in their declared order.
- A choice is the name of its alternative, or an object whose only member has that name.
-/

namespace TypeRecovery

/-- A way to read an `α`, given how many levels of nesting may still be entered. -/
def Decoder (α : Type) : Type :=
  Nat → Json → Option α

namespace Decoder

variable {α β : Type}

/-- The levels of nesting that a text may have. -/
def depthLimit : Nat :=
  127

/-- Read a whole value. -/
def run (d : Decoder α) (j : Json) : Option α :=
  d depthLimit j

/-- Change what was read. -/
def map (f : α → β) (d : Decoder α) : Decoder β :=
  fun room j => (d room j).map f

/-- Change what was read, where that may fail. -/
def filterMap (f : α → Option β) (d : Decoder α) : Decoder β :=
  fun room j => (d room j).bind f

/-! ## Scalars -/

/-- A natural number below `bound`. -/
def nat (bound : Nat) : Decoder Nat
  | _, .integer n => if 0 ≤ n ∧ n < bound then some n.toNat else none
  | _, _ => none

def uint8 : Decoder UInt8 :=
  (nat UInt8.size).map UInt8.ofNat

def uint32 : Decoder UInt32 :=
  (nat UInt32.size).map UInt32.ofNat

def uint64 : Decoder UInt64 :=
  (nat UInt64.size).map UInt64.ofNat

def int64 : Decoder Int64
  | _, .integer n =>
    if Int64.minValue.toInt ≤ n ∧ n ≤ Int64.maxValue.toInt then some (Int64.ofInt n) else none
  | _, _ => none

/-- A position or a count. -/
def count : Decoder Nat :=
  nat UInt64.size

def bool : Decoder Bool
  | _, .bool b => some b
  | _, _ => none

def string : Decoder String
  | _, .string s => some s
  | _, _ => none

/-! ## Composites -/

/-- A value that may be `null`. -/
def option (d : Decoder α) : Decoder (Option α)
  | _, .null => some none
  | room, j => (d room j).map some

/-- An array whose items all have one type. -/
def list (d : Decoder α) : Decoder (List α)
  | room + 1, .array items => items.mapM (d room)
  | _, _ => none

/-- What the text of a record says about one of its members. -/
inductive Member where
  | given (value : Json)
  /-- An object without the member. -/
  | omitted
  /-- An array that ends before the member. -/
  | cutOff

/-- The member of an object under a key: given at most once. -/
def lookup (members : List (String × Json)) (key : String) : Option Member :=
  match members.filter (fun member => member.1 == key) with
  | [] => some .omitted
  | [(_, value)] => some (.given value)
  | _ => none

/-- The first `n` items of an array, which has no more than those. -/
def inOrder : Nat → List Json → Option (List Member)
  | 0, [] => some []
  | 0, _ :: _ => none
  | n + 1, [] => (inOrder n []).map (.cutOff :: ·)
  | n + 1, item :: items => (inOrder n items).map (.given item :: ·)

/-- What a value says about the members of a record. -/
def members? (keys : List String) : Json → Option (List Member)
  | .object members => keys.mapM (lookup members)
  | .array items => inOrder keys.length items
  | _ => none

/-- A record with the given keys, put together by `build` from what is said about its members. -/
def record (keys : List String) (build : Nat → List Member → Option α) : Decoder α
  | room + 1, j => (members? keys j).bind (build room)
  | 0, _ => none

/-- A member that has to be there. -/
def required (d : Decoder α) (room : Nat) : Member → Option α
  | .given j => d room j
  | _ => none

/-- A member that an object may leave out. -/
def optional (d : Decoder α) (room : Nat) : Member → Option (Option α)
  | .given j => option d room j
  | .omitted => some none
  | .cutOff => none

/-- A member with a value for when it is left out. -/
def defaulted (d : Decoder α) (fallback : α) (room : Nat) : Member → Option α
  | .given j => d room j
  | _ => some fallback

/-- A choice: `build` gets the name of the alternative, and its body if it has one. -/
def choice (build : Nat → String → Option Json → Option α) : Decoder α
  | room, .string tag => build room tag none
  | room + 1, .object [(tag, body)] => build room tag (some body)
  | _, _ => none

/-- An alternative without data. -/
def plain (x : α) : Option Json → Option α
  | none => some x
  | some .null => some x
  | some _ => none

/-- An alternative with data. -/
def carrying (d : Decoder α) (room : Nat) : Option Json → Option α
  | some body => d room body
  | none => none

/-- A choice between names. -/
def oneOf (names : List (String × α)) : Decoder α :=
  choice fun _ tag body => (names.lookup tag).bind fun x => plain x body

end Decoder

end TypeRecovery
