import TypeRecovery.Json.Basic
import TypeRecovery.Json.Decimal

/-!
# Reading JSON text

The strict grammar: no trailing commas, no comments, no leading zeros, no raw control characters in
strings, and nothing but blanks after the value. A reader takes the characters in front of it and
returns what it read together with the characters that are left.
-/

namespace TypeRecovery.Json.Reader

/-- The characters that may stand between tokens. -/
def isBlank (c : Char) : Bool :=
  c = ' ' || c = '\t' || c = '\n' || c = '\r'

/-- Drop the blanks in front. -/
def skipBlanks (cs : List Char) : List Char :=
  cs.dropWhile isBlank

/-! ## Numbers -/

/-- The value of a row of decimal digits. -/
def decimalValue (digits : List Char) : Nat :=
  digits.foldl (fun n d => 10 * n + Decimal.digitValue d) 0

/-- One digit or more. -/
def digits (cs : List Char) : Option (List Char × List Char) :=
  match cs.span Char.isDigit with
  | ([], _) => none
  | (ds, rest) => some (ds, rest)

/-- The integral part: no zero stands in front of another digit. -/
def integralPart (cs : List Char) : Option (List Char × List Char) :=
  match cs with
  | '0' :: rest => some (['0'], rest)
  | cs => digits cs

/-- A decimal point and digits, if there is a point. -/
def fractionPart (cs : List Char) : Option (List Char × List Char) :=
  match cs with
  | '.' :: rest => digits rest
  | cs => some ([], cs)

/-- An exponent mark, a sign and digits, if there is a mark. -/
def exponentPart (cs : List Char) : Option (Option Int × List Char) :=
  match cs with
  | [] => some (none, [])
  | c :: rest =>
    if c = 'e' || c = 'E' then
      match rest with
      | '-' :: rest => (digits rest).map fun (ds, rest) => (some (-(decimalValue ds : Int)), rest)
      | '+' :: rest => (digits rest).map fun (ds, rest) => (some (decimalValue ds : Int), rest)
      | rest => (digits rest).map fun (ds, rest) => (some (decimalValue ds : Int), rest)
    else some (none, c :: rest)

/-- The value of a number literal: an integer only if it has neither fraction nor exponent, fits
into 64 bits, and is not a negative zero. -/
def numberValue (negative : Bool) (whole fraction : List Char) (exponent : Option Int)
    (literal : String) : Json :=
  let n := decimalValue whole
  let i : Int := if negative then -(n : Int) else n
  if fraction = [] ∧ exponent = none ∧ FitsInteger i ∧ ¬ (negative ∧ n = 0) then .integer i
  else if (Decimal.ofDigits whole fraction (exponent.getD 0)).fitsDouble then .decimal literal
  else .unreadable

/-- A number without its sign. -/
def unsignedNumber (negative : Bool) (cs : List Char) : Option (Json × List Char) := do
  let (whole, afterWhole) ← integralPart cs
  let (fraction, afterFraction) ← fractionPart afterWhole
  let (exponent, rest) ← exponentPart afterFraction
  let literal := (if negative then "-" else "") ++
    String.ofList (cs.take (cs.length - rest.length))
  return (numberValue negative whole fraction exponent literal, rest)

/-- A number. -/
def number (cs : List Char) : Option (Json × List Char) :=
  match cs with
  | '-' :: rest => unsignedNumber true rest
  | cs => unsignedNumber false cs

/-! ## Strings -/

/-- The value of a hexadecimal digit. -/
def hexDigit? (c : Char) : Option Nat :=
  if '0' ≤ c ∧ c ≤ '9' then some (c.toNat - '0'.toNat)
  else if 'a' ≤ c ∧ c ≤ 'f' then some (c.toNat - 'a'.toNat + 10)
  else if 'A' ≤ c ∧ c ≤ 'F' then some (c.toNat - 'A'.toNat + 10)
  else none

/-- The code unit that four hexadecimal digits name. -/
def codeUnit? (a b c d : Char) : Option Nat := do
  return 4096 * (← hexDigit? a) + 256 * (← hexDigit? b) + 16 * (← hexDigit? c) + (← hexDigit? d)

/-- The character that a one-letter escape stands for. -/
def escape? : Char → Option Char
  | '"' => some '"'
  | '\\' => some '\\'
  | '/' => some '/'
  | 'b' => some '\x08'
  | 'f' => some '\x0c'
  | 'n' => some '\n'
  | 'r' => some '\r'
  | 't' => some '\t'
  | _ => none

/-- The character that a surrogate pair stands for. -/
def ofSurrogates (high low : Nat) : Char :=
  Char.ofNat (0x10000 + 0x400 * (high - 0xD800) + (low - 0xDC00))

/-- The part of a string that was read. -/
structure Scanned where
  /-- Its characters, last one first. -/
  reversed : List Char
  /-- The first half of a surrogate pair that waits for the second one. -/
  high : Option Nat
  /-- Whether every other half of a pair found its partner. -/
  sound : Bool

namespace Scanned

/-- Nothing was read. -/
def empty : Scanned :=
  ⟨[], none, true⟩

/-- A character follows, so a waiting half of a pair stays alone. -/
def push (p : Scanned) (c : Char) : Scanned :=
  ⟨c :: p.reversed, none, p.sound && p.high.isNone⟩

/-- A code unit follows, which may be the first or the second half of a pair. -/
def pushUnit (p : Scanned) (unit : Nat) : Scanned :=
  if unit < 0xD800 ∨ 0xE000 ≤ unit then p.push (Char.ofNat unit)
  else if unit < 0xDC00 then ⟨p.reversed, some unit, p.sound && p.high.isNone⟩
  else match p.high with
    | some high => ⟨ofSurrogates high unit :: p.reversed, none, p.sound⟩
    | none => ⟨p.reversed, none, false⟩

/-- The text, unless half of a pair stood alone in it. -/
def text? (p : Scanned) : Option String :=
  if p.sound && p.high.isNone then some (String.ofList p.reversed.reverse) else none

end Scanned

/-- What is left of a string, up to its closing quote. -/
def stringRest (p : Scanned) : List Char → Option (Option String × List Char)
  | [] => none
  | '"' :: rest => some (p.text?, rest)
  | '\\' :: 'u' :: a :: b :: c :: d :: rest =>
    match codeUnit? a b c d with
    | some unit => stringRest (p.pushUnit unit) rest
    | none => none
  | '\\' :: e :: rest =>
    match escape? e with
    | some c => stringRest (p.push c) rest
    | none => none
  | c :: rest => if c.toNat < 0x20 then none else stringRest (p.push c) rest

/-- A string after its opening quote, `none` standing for one that denotes nothing. -/
def string (cs : List Char) : Option (Option String × List Char) :=
  stringRest .empty cs

/-! ## Values -/

/-- A member whose key is readable makes the object readable. -/
def consMember (key : Option String) (value : Json) : Option (List (String × Json)) →
    Option (List (String × Json))
  | some members => key.map fun key => (key, value) :: members
  | none => none

/-- The object with the given members, where `none` says that a key was not readable. -/
def ofMembers : Option (List (String × Json)) → Json
  | some members => .object members
  | none => .unreadable

mutual

/-- A value, after blanks. Every value takes at least one character, so the length of the text is
enough `fuel`. -/
def value (fuel : Nat) (cs : List Char) : Option (Json × List Char) :=
  match fuel with
  | 0 => none
  | fuel + 1 =>
    match skipBlanks cs with
    | 'n' :: 'u' :: 'l' :: 'l' :: rest => some (.null, rest)
    | 't' :: 'r' :: 'u' :: 'e' :: rest => some (.bool true, rest)
    | 'f' :: 'a' :: 'l' :: 's' :: 'e' :: rest => some (.bool false, rest)
    | '"' :: rest => do
      let (text, rest) ← string rest
      return (match text with | some s => .string s | none => .unreadable, rest)
    | '[' :: rest =>
      match skipBlanks rest with
      | ']' :: rest => some (.array [], rest)
      | rest => do
        let (items, rest) ← items fuel rest
        return (.array items, rest)
    | '\x7b' :: rest =>
      match skipBlanks rest with
      | '\x7d' :: rest => some (.object [], rest)
      | rest => do
        let (members, rest) ← members fuel rest
        return (ofMembers members, rest)
    | rest => number rest

/-- The items of an array, up to its closing bracket. -/
def items (fuel : Nat) (cs : List Char) : Option (List Json × List Char) :=
  match fuel with
  | 0 => none
  | fuel + 1 => do
    let (item, rest) ← value fuel cs
    match skipBlanks rest with
    | ',' :: rest => do
      let (others, rest) ← items fuel rest
      return (item :: others, rest)
    | ']' :: rest => return ([item], rest)
    | _ => none

/-- The members of an object, up to its closing brace. -/
def members (fuel : Nat) (cs : List Char) : Option (Option (List (String × Json)) × List Char) :=
  match fuel with
  | 0 => none
  | fuel + 1 =>
    match skipBlanks cs with
    | '"' :: rest => do
      let (key, rest) ← string rest
      match skipBlanks rest with
      | ':' :: rest => do
        let (item, rest) ← value fuel rest
        match skipBlanks rest with
        | ',' :: rest => do
          let (others, rest) ← members fuel rest
          return (consMember key item others, rest)
        | '\x7d' :: rest => return (consMember key item (some []), rest)
        | _ => none
      | _ => none
    | _ => none

end

end Reader

/-- The value of a JSON text, if it is one. -/
def read (text : String) : Option Json :=
  let cs := text.toList
  match Reader.value (cs.length + 1) cs with
  | some (value, rest) => if Reader.skipBlanks rest = [] then some value else none
  | none => none

end TypeRecovery.Json
