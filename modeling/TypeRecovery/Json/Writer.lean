import TypeRecovery.Json.Basic

/-!
# Writing JSON text

Two layouts of the same tokens: a compact one on a single line, and an indented one with one item or
member a line. Strings escape quotes, backslashes and control characters and nothing else.
-/

namespace TypeRecovery.Json

namespace Writer

/-- The hexadecimal digit of a number below sixteen. -/
def hexDigit (n : Nat) : Char :=
  Nat.digitChar n

/-- How a character is written inside a string. -/
def escaped (c : Char) : List Char :=
  match c with
  | '"' => ['\\', '"']
  | '\\' => ['\\', '\\']
  | '\x08' => ['\\', 'b']
  | '\x0c' => ['\\', 'f']
  | '\n' => ['\\', 'n']
  | '\r' => ['\\', 'r']
  | '\t' => ['\\', 't']
  | c =>
    if c.toNat < 0x20 then ['\\', 'u', '0', '0', hexDigit (c.toNat / 16), hexDigit (c.toNat % 16)]
    else [c]

/-- A string between quotes. -/
def quoted (s : String) : String :=
  "\"" ++ String.ofList (s.toList.flatMap escaped) ++ "\""

/-- An integer in decimal. -/
def integer (n : Int) : String :=
  if n < 0 then "-" ++ Nat.repr n.natAbs else Nat.repr n.natAbs

/-- The start of a line that is indented by `depth` levels of two spaces. -/
def newline (depth : Nat) : String :=
  "\n" ++ String.ofList (List.replicate (2 * depth) ' ')

end Writer

open Writer (quoted newline)

mutual

/-- The text of a value on one line, without blanks. -/
def compact : Json → String
  | .null => "null"
  | .bool true => "true"
  | .bool false => "false"
  | .integer n => Writer.integer n
  | .decimal literal => literal
  | .string s => quoted s
  | .array items => "[" ++ ",".intercalate (compactItems items) ++ "]"
  | .object members => "\x7b" ++ ",".intercalate (compactMembers members) ++ "\x7d"
  | .unreadable => "null"

/-- The texts of the items of an array. -/
def compactItems : List Json → List String
  | [] => []
  | item :: items => compact item :: compactItems items

/-- The texts of the members of an object. -/
def compactMembers : List (String × Json) → List String
  | [] => []
  | (key, value) :: members => (quoted key ++ ":" ++ compact value) :: compactMembers members

end

mutual

/-- The text of a value that stands `depth` levels deep, with one item or member a line. -/
def prettyAt (depth : Nat) : Json → String
  | .null => "null"
  | .bool true => "true"
  | .bool false => "false"
  | .integer n => Writer.integer n
  | .decimal literal => literal
  | .string s => quoted s
  | .array [] => "[]"
  | .array items =>
    "[" ++ ",".intercalate (prettyItems (depth + 1) items) ++ newline depth ++ "]"
  | .object [] => "\x7b\x7d"
  | .object members =>
    "\x7b" ++ ",".intercalate (prettyMembers (depth + 1) members) ++ newline depth ++ "\x7d"
  | .unreadable => "null"

/-- The texts of the items of an array, each on its line. -/
def prettyItems (depth : Nat) : List Json → List String
  | [] => []
  | item :: items => (newline depth ++ prettyAt depth item) :: prettyItems depth items

/-- The texts of the members of an object, each on its line. -/
def prettyMembers (depth : Nat) : List (String × Json) → List String
  | [] => []
  | (key, value) :: members =>
    (newline depth ++ quoted key ++ ": " ++ prettyAt depth value) :: prettyMembers depth members

end

/-- The indented text of a value. -/
def pretty (value : Json) : String :=
  prettyAt 0 value

end TypeRecovery.Json
