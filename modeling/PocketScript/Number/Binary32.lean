/-! # Binary32 numbers, exactly

Every finite binary32 number is a whole number of units of 2⁻¹⁴⁹. This module
reads that number off the bits and rounds a quotient of natural numbers back to
the nearest binary32 number, a half going to the even neighbour.
-/

namespace PocketScript.Binary32

/-- One over the unit in which every finite number is whole. -/
def unitsPerOne : Nat := Nat.pow 2 149

/-- The bits of positive infinity; those of every finite magnitude are below. -/
def infinityBits : Nat := 0x7f800000

/-- The bit of the sign. -/
def signBit : Nat := 0x80000000

/-- How many numbers there are from one power of two up to the next. -/
def fractions : Nat := 0x800000

/-- The bits of a number without its sign. -/
def magnitudeBits (number : Float32) : Nat :=
  number.toBits.toNat % signBit

/-- Whether the sign bit is set. -/
def isNegative (number : Float32) : Bool :=
  signBit ≤ number.toBits.toNat

/-- The number with the given sign and magnitude bits. -/
def ofMagnitude (negative : Bool) (bits : Nat) : Float32 :=
  Float32.ofBits (UInt32.ofNat (if negative then bits + signBit else bits))

/-- The magnitude in units of 2⁻¹⁴⁹. Bits below 2²³ count units themselves; from
    there on the upper bits are a power of two and the lower ones a fraction
    above a leading one. -/
def unitsOfBits (bits : Nat) : Nat :=
  if bits < fractions then bits
  else (bits % fractions + fractions) * Nat.pow 2 (bits / fractions - 1)

/-- The exact magnitude of a finite number, in units of 2⁻¹⁴⁹. -/
def units (number : Float32) : Nat :=
  unitsOfBits (magnitudeBits number)

/-- The natural number nearest to `numerator / denominator`, the even one of
    two that are equally near. -/
def roundDiv (numerator denominator : Nat) : Nat :=
  let quotient := numerator / denominator
  let remainder := numerator % denominator
  if 2 * remainder < denominator then quotient
  else if denominator < 2 * remainder then quotient + 1
  else quotient + quotient % 2

/-- The magnitude bits of the binary32 number nearest to a quotient, infinity
    beyond the largest. A significand that rounds up to the next power of two
    carries into the exponent field, as it should. -/
def nearestBits (numerator denominator : Nat) : Nat :=
  let scaled := numerator * unitsPerOne
  let scale := (scaled / denominator).log2 - 23
  min (scale * fractions + roundDiv scaled (denominator * Nat.pow 2 scale)) infinityBits

end PocketScript.Binary32
