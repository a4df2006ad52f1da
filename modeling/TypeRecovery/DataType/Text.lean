import TypeRecovery.DataType.Basic
import TypeRecovery.Text.Hex

/-!
# The written form of types

Integers of unknown sign are words counted in bits, a pointer names its class, and the fields of a
structure stand behind their hexadecimal offsets.
-/

namespace TypeRecovery

/-- How an integer type is written. -/
def Signedness.integerText (sign : Signedness) (width : UInt8) : String :=
  match sign with
  | .unknown => if width = 1 then "byte" else "word" ++ Nat.repr (8 * width.toNat)
  | .signed => "int" ++ Nat.repr (8 * width.toNat)
  | .unsigned => "uint" ++ Nat.repr (8 * width.toNat)

/-- How the length of an array is written. -/
def lengthText (length : Option UInt64) : String :=
  match length with
  | some n => "[" ++ Nat.repr n.toNat ++ "]"
  | none => "[]"

namespace DataType

mutual

/-- How a type is written. -/
def text : DataType → String
  | .void => "void"
  | .boolean => "bool"
  | .integer width sign => sign.integerText width
  | .pointer target => target.text ++ "*"
  | .array element length => text element ++ lengthText length
  | .struct _ fields => "struct \x7b" ++ String.join (fieldTexts fields) ++ " \x7d"
  | .union alternatives => "union \x7b " ++ " | ".intercalate (texts alternatives) ++ " \x7d"
  | .function _ result true => text result ++ " (...)"
  | .function params result false => text result ++ " (" ++ ", ".intercalate (texts params) ++ ")"

/-- How each of a list of types is written. -/
def texts : List DataType → List String
  | [] => []
  | t :: ts => text t :: texts ts

/-- How each of a list of fields is written. -/
def fieldTexts : List (Field DataType) → List String
  | [] => []
  | ⟨offset, type, _⟩ :: fields =>
    (" " ++ Hex.signed offset.toInt ++ ": " ++ text type ++ ";") :: fieldTexts fields

end

end DataType

end TypeRecovery
