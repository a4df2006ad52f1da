import TypeRecovery.Json.Decoder
import TypeRecovery.Json.Reader

/-!
# Configuration

What an analysis has to know of the machine, and how eager it is to see arrays.
-/

namespace TypeRecovery

/-- The settings of an analysis. -/
structure Config where
  /-- The size of a pointer in bytes. -/
  pointerWidth : UInt8
  /-- The size of an integer of which nothing else is known. -/
  wordWidth : UInt8
  /-- Whether equal fields in a row become an array. -/
  collapseArrays : Bool
  /-- How many equal fields in a row make an array. -/
  minArrayElements : UInt64
  deriving DecidableEq, Repr, Inhabited

namespace Config

/-- A machine with words and pointers of `width` bytes. -/
def machine (pointerWidth wordWidth : UInt8) : Config :=
  ⟨pointerWidth, wordWidth, true, 2⟩

/-- Eight-byte pointers and words. -/
def lp64 : Config :=
  machine 8 8

/-- Four-byte pointers and words. -/
def ilp32 : Config :=
  machine 4 4

/-- Two-byte pointers and one-byte words. -/
def micro8 : Config :=
  machine 2 1

/-- The settings for a machine by its name, in upper or lower case. -/
def preset? (name : String) : Option Config :=
  let name := String.ofList (name.toList.map Char.toLower)
  if name ∈ ["lp64", "64", "x86_64", "aarch64"] then some lp64
  else if name ∈ ["ilp32", "32", "x86", "arm"] then some ilp32
  else if name ∈ ["micro8", "8", "i8051", "avr"] then some micro8
  else none

/-- At least one element makes an array. -/
def withMinArrayElements (c : Config) (n : UInt64) : Config :=
  { c with minArrayElements := max n 1 }

/-- Settings as JSON. -/
def toJson (c : Config) : Json :=
  .object
    [("pointer_width", .ofNat c.pointerWidth.toNat),
      ("word_width", .ofNat c.wordWidth.toNat),
      ("collapse_uniform_arrays", .bool c.collapseArrays),
      ("min_array_elements", .ofNat c.minArrayElements.toNat)]

/-- Read settings; those left out are those of `lp64`. -/
def decoder : Decoder Config :=
  .record ["pointer_width", "word_width", "collapse_uniform_arrays", "min_array_elements"]
    fun room members =>
      match members with
      | [pointerWidth, wordWidth, collapseArrays, minArrayElements] => do
        let pointerWidth ← Decoder.defaulted .uint8 lp64.pointerWidth room pointerWidth
        let wordWidth ← Decoder.defaulted .uint8 lp64.wordWidth room wordWidth
        let collapseArrays ← Decoder.defaulted .bool lp64.collapseArrays room collapseArrays
        let minArrayElements ←
          Decoder.defaulted .uint64 lp64.minArrayElements room minArrayElements
        return { pointerWidth, wordWidth, collapseArrays, minArrayElements }
      | _ => none

/-- Settings from a JSON text. -/
def ofText? (text : String) : Option Config :=
  (Json.read text).bind decoder.run

end Config

end TypeRecovery
