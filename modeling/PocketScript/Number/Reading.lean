import PocketScript.Number.Binary32
import PocketScript.Symbol

/-! # Reading numbers

A text is read as the number its longest numeric beginning spells: blanks, a
sign, digits with an optional point, and an exponent if it has digits. A text
that begins with no number reads as zero.
-/

namespace PocketScript

/-- A spelled number: the digits before and after the point and the exponent of
    ten. -/
structure Numeral where
  negative : Bool
  integer : List UInt8
  fraction : List UInt8
  exponent : Int
  deriving DecidableEq, Repr

namespace Numeral

/-- Space, tab, line feed, form feed and carriage return. -/
def isBlank (byte : UInt8) : Bool :=
  byte == 0x20 || byte == 0x09 || byte == 0x0a || byte == 0x0c || byte == 0x0d

/-- The number that ASCII digits spell. -/
def ofDigits (digits : List UInt8) : Nat :=
  digits.foldl (fun value digit => value * 10 + (digit.toNat - 0x30)) 0

/-- Take an optional sign off a text. -/
def splitSign : List UInt8 → Bool × List UInt8
  | byte :: rest =>
    if byte = 0x2d then (true, rest)
    else if byte = 0x2b then (false, rest)
    else (false, byte :: rest)
  | [] => (false, [])

/-- The digits a text starts with, and the rest. -/
def splitDigits (text : List UInt8) : List UInt8 × List UInt8 :=
  (text.takeWhile Symbol.isDigit, text.dropWhile Symbol.isDigit)

/-- The digits after a point that a text starts with, and the rest. -/
def splitFraction : List UInt8 → List UInt8 × List UInt8
  | byte :: rest => if byte = 0x2e then splitDigits rest else ([], byte :: rest)
  | [] => ([], [])

/-- The number that the digits of an exponent spell. From 65536 on the digits
    that are left are passed over. -/
def ofExponentDigits (digits : List UInt8) : Nat :=
  digits.foldl
    (fun value digit => if value < 65536 then value * 10 + (digit.toNat - 0x30) else value) 0

/-- The exponent a text starts with; a mark without digits is none. -/
def readExponent : List UInt8 → Int
  | byte :: rest =>
    if byte = 0x65 ∨ byte = 0x45 then
      let (negative, rest) := splitSign rest
      let value : Int := ofExponentDigits (splitDigits rest).1
      if negative then -value else value
    else 0
  | [] => 0

/-- The number a text begins with. -/
def ofText? (text : List UInt8) : Option Numeral :=
  let (negative, rest) := splitSign (text.dropWhile isBlank)
  let (integer, rest) := splitDigits rest
  let (fraction, rest) := splitFraction rest
  if integer.isEmpty && fraction.isEmpty then none
  else some ⟨negative, integer, fraction, readExponent rest⟩

/-- All digits as one number. -/
def coefficient (numeral : Numeral) : Nat :=
  ofDigits (numeral.integer ++ numeral.fraction)

/-- The power of ten that the coefficient is multiplied by. -/
def scale (numeral : Numeral) : Int :=
  numeral.exponent - numeral.fraction.length

/-- How many digits the coefficient has. -/
def width (numeral : Numeral) : Nat :=
  ((numeral.integer ++ numeral.fraction).dropWhile (· == 0x30)).length

/-- The magnitude bits of the nearest binary32 number. Numbers from 10⁴⁰ on are
    infinite and those below 10⁻⁶⁰ vanish, whatever their digits. -/
def nearestBits (numeral : Numeral) : Nat :=
  let top := numeral.width + numeral.scale
  if numeral.coefficient = 0 then 0
  else if 40 < top then Binary32.infinityBits
  else if top < -60 then 0
  else if 0 ≤ numeral.scale then
    Binary32.nearestBits (numeral.coefficient * Nat.pow 10 numeral.scale.toNat) 1
  else Binary32.nearestBits numeral.coefficient (Nat.pow 10 (-numeral.scale).toNat)

/-- The nearest binary32 number. -/
def toFloat32 (numeral : Numeral) : Float32 :=
  Binary32.ofMagnitude numeral.negative numeral.nearestBits

end Numeral

/-- The number a text begins with, zero if it begins with none. -/
def readNumber (text : List UInt8) : Float32 :=
  match Numeral.ofText? text with
  | some numeral => numeral.toFloat32
  | none => 0.0

end PocketScript
