import PocketScript.Number.Binary32

/-! # Writing numbers

The two spellings of numbers: `writeNumber`, with at most four decimals, which
programs print and convert with, and `writeShortest`, with just enough digits to
read back the same number, which fills in a number where a text is asked for.
-/

namespace PocketScript

/-- The decimal digits of a natural number. -/
def decimalDigits (number : Nat) : List Char :=
  Nat.toDigits 10 number

/-- Digits with zeros in front up to a width. -/
def padZeros (width : Nat) (digits : List Char) : List Char :=
  List.replicate (width - digits.length) '0' ++ digits

/-- Digits without the zeros at their end. -/
def dropTrailingZeros (digits : List Char) : List Char :=
  (digits.reverse.dropWhile (· == '0')).reverse

/-- A magnitude in units of 2⁻¹⁴⁹ as the nearest number of ten-thousandths, a
    half going to the even one. -/
def tenThousandths (units : Nat) : Nat :=
  Binary32.roundDiv (units * 10000) Binary32.unitsPerOne

/-- Four decimals, all of them written. -/
def writeFixed (count : Nat) : List Char :=
  decimalDigits (count / 10000) ++ '.' :: padZeros 4 (decimalDigits (count % 10000))

/-- At most four decimals, without zeros at the end or a bare point. -/
def writeTrimmed (count : Nat) : List Char :=
  let decimals := dropTrailingZeros (padZeros 4 (decimalDigits (count % 10000)))
  decimalDigits (count / 10000) ++ (if decimals.isEmpty then [] else '.' :: decimals)

/-- A minus sign in front if asked for. -/
def withSign (negative : Bool) (text : List Char) : List Char :=
  if negative then '-' :: text else text

/-- No finite binary32 number is further than this many powers of ten from one. -/
def decadeLimit : Nat := 64

/-- Divide by ten until the number is below ten, counting the divisions. -/
def divideToUnit : (limit : Nat) → (number : Float32) → (count : Int) → Float32 × Int
  | 0, number, count => (number, count)
  | limit + 1, number, count =>
    if 10.0 ≤ number then divideToUnit limit (number / 10.0) (count + 1) else (number, count)

/-- Multiply by ten until the number is at least one, counting down. -/
def multiplyToUnit : (limit : Nat) → (number : Float32) → (count : Int) → Float32 × Int
  | 0, number, count => (number, count)
  | limit + 1, number, count =>
    if number < 1.0 then multiplyToUnit limit (number * 10.0) (count - 1) else (number, count)

/-- A positive number as one between one and ten and a power of ten. Each step
    rounds to binary32. -/
def toScientific (magnitude : Float32) : Float32 × Int :=
  let (number, count) := divideToUnit decadeLimit magnitude 0
  multiplyToUnit decadeLimit number count

/-- Whether a magnitude is written with an exponent. -/
def isScientific (magnitude : Float32) : Bool :=
  decide (10000000.0 < magnitude) || decide (magnitude < 0.001)

/-- The text of an exponent. -/
def writeExponent (exponent : Int) : List Char :=
  withSign (exponent < 0) (decimalDigits exponent.natAbs)

/-- The text of a number: four decimals without trailing zeros, and a power of
    ten outside the range from 0.001 to 10⁷. -/
def writeNumber (number : Float32) : String :=
  if number.isNaN then "nan"
  else if number.isInf then if Binary32.isNegative number then "-inf" else "inf"
  else if number == 0.0 then "0"
  else
    let negative := Binary32.isNegative number
    if isScientific number.abs then
      let (mantissa, exponent) := toScientific number.abs
      String.ofList (withSign negative (writeFixed (tenThousandths (Binary32.units mantissa)) ++
        'e' :: writeExponent exponent))
    else String.ofList (withSign negative (writeTrimmed (tenThousandths (Binary32.units number))))

/-- A coefficient times a power of ten, written without an exponent. -/
def writePositional (coefficient : Nat) (exponent : Int) : List Char :=
  let digits := decimalDigits coefficient
  if 0 ≤ exponent then digits ++ List.replicate exponent.toNat '0'
  else
    let places := exponent.natAbs
    let padded := padZeros (places + 1) digits
    padded.take (padded.length - places) ++ '.' :: padded.drop (padded.length - places)

/-- The quotient whose value is `units` in units of `10 ^ exponent`. -/
def inPowersOfTen (units : Nat) (exponent : Int) : Nat × Nat :=
  if 0 ≤ exponent then (units, Binary32.unitsPerOne * Nat.pow 10 exponent.toNat)
  else (units * Nat.pow 10 exponent.natAbs, Binary32.unitsPerOne)

/-- Whether `coefficient · 10 ^ exponent` rounds to the number with these bits. -/
def readsBack (bits : Nat) (coefficient : Nat) (exponent : Int) : Bool :=
  (if 0 ≤ exponent then Binary32.nearestBits (coefficient * Nat.pow 10 exponent.toNat) 1
    else Binary32.nearestBits coefficient (Nat.pow 10 exponent.natAbs)) == bits

/-- The least power of ten above a magnitude. -/
def decadeAbove (units : Nat) : Int :=
  let exponents := (List.range 90).map fun (step : Nat) => (step : Int) - 50
  (exponents.find? fun exponent =>
    let (numerator, denominator) := inPowersOfTen units exponent
    numerator < denominator).getD 40

/-- The multiple of `10 ^ exponent` that reads back as the number, if one of its
    two neighbours does: the nearer of both, the upper one if they are equally
    near. -/
def neighbour? (bits : Nat) (exponent : Int) : Option Nat :=
  let (numerator, denominator) := inPowersOfTen (Binary32.unitsOfBits bits) exponent
  let lower := numerator / denominator
  let lowerFits := readsBack bits lower exponent
  let upperFits := readsBack bits (lower + 1) exponent
  if upperFits && (!lowerFits || denominator ≤ 2 * (numerator % denominator)) then some (lower + 1)
  else if lowerFits then some lower
  else none

/-- The shortest coefficient and exponent that read back as a positive finite
    number. Nine digits always do. -/
def shortest (bits : Nat) : Nat × Int :=
  let top := decadeAbove (Binary32.unitsOfBits bits)
  ((List.range 9).findSome? fun (count : Nat) =>
    let exponent := top - (count + 1)
    (neighbour? bits exponent).map fun coefficient =>
      if coefficient = Nat.pow 10 (count + 1) then (1, top)
      else (coefficient, exponent)).getD (0, 0)

/-- The text of a number with the fewest digits that read back, never with an
    exponent. -/
def writeShortest (number : Float32) : String :=
  if number.isNaN then "NaN"
  else
    let bits := Binary32.magnitudeBits number
    let text :=
      if bits = Binary32.infinityBits then ['i', 'n', 'f']
      else if bits = 0 then ['0']
      else
        let (coefficient, exponent) := shortest bits
        writePositional coefficient exponent
    String.ofList (withSign (Binary32.isNegative number) text)

end PocketScript
