/-!
# Decimal numerals

A numeral with a fraction or an exponent stands for a binary floating-point number, which is found
with a fixed precision. Its digits make a significand of 64 bits, and what does not fit is left out.
The significand and the power of ten that scales it are rounded to the 53 bits of a double, and so
is their product. Only the range matters here: a numeral whose product is too large stands for
nothing.
-/

namespace TypeRecovery.Json

/-- The natural number of `bits` significant bits that is nearest to `n`; of two that are equally
near it is the even one. -/
def nearest (bits n : Nat) : Nat :=
  let excess := n.log2 + 1 - bits
  let unit := 1 <<< excess
  let below := n / unit
  let rest := 2 * (n % unit)
  if rest < unit || (rest == unit && below % 2 == 0) then below * unit else (below + 1) * unit

/-- The double nearest to a natural number, or what it would be if doubles had no largest one. -/
def nearestDouble (n : Nat) : Nat :=
  nearest 53 n

/-- The number `significand * 10 ^ exponent`. -/
structure Decimal where
  significand : Nat
  exponent : Int
  deriving DecidableEq, Repr, Inhabited

namespace Decimal

/-- The value of a decimal digit. -/
def digitValue (d : Char) : Nat :=
  d.toNat - '0'.toNat

/-- Append digits to a significand as long as it stays within 64 bits; the digits from the first one
on that does not fit are left over. -/
def append (significand : Nat) : List Char → Nat × List Char
  | [] => (significand, [])
  | d :: ds =>
    if 10 * significand + digitValue d < UInt64.size then
      append (10 * significand + digitValue d) ds
    else (significand, d :: ds)

/-- The number that a numeral stands for, given the digits before and behind its point and its
exponent. A digit that is left out before the point still counts as a place, one behind it does
not. -/
def ofDigits (whole fraction : List Char) (exponent : Int) : Decimal :=
  let (front, places) := append 0 whole
  let (significand, unused) := append front fraction
  ⟨significand, exponent + places.length - (fraction.length - unused.length : Nat)⟩

/-- The exponent of the largest power of ten that is a double. -/
def maxExponent : Int :=
  308

/-- All doubles are below this number. -/
def doubleLimit : Nat :=
  1 <<< 1024

/-- Whether a number is within the range of doubles. Its significand has 64 bits, so a number with a
negative exponent always is. -/
def fitsDouble (d : Decimal) : Bool :=
  d.significand == 0 || d.exponent < 0 ||
    (d.exponent ≤ maxExponent &&
      nearestDouble
        (nearestDouble d.significand * nearestDouble (Nat.pow 10 d.exponent.toNat)) < doubleLimit)

end Decimal

end TypeRecovery.Json
