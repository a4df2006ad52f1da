/-!
# Hexadecimal numerals

The three ways a number is written in base sixteen: a magnitude, a signed magnitude, and the bit
pattern of a 64-bit word.
-/

namespace TypeRecovery.Hex

/-- A magnitude: `0x` and its lower-case digits. -/
def magnitude (n : Nat) : String :=
  "0x" ++ String.ofList (Nat.toDigits 16 n)

/-- A signed number: the sign stands before the magnitude. -/
def signed (i : Int) : String :=
  if i < 0 then "-" ++ magnitude i.natAbs else magnitude i.natAbs

/-- The bit pattern of a word, so that a negative number shows its two's complement. -/
def pattern (i : Int64) : String :=
  magnitude i.toUInt64.toNat

end TypeRecovery.Hex
