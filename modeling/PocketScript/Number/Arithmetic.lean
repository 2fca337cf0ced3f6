import PocketScript.Number.Binary32
import PocketScript.Symbol

/-! # Arithmetic

The numeric operators and functions. Numbers are binary32; the bitwise and
remainder operators work on their truncation to 32-bit integers, and truth is
being different from zero.
-/

namespace PocketScript

/-- Truncation to 32 bits: toward zero, saturating, and zero for what is not a
    number. -/
def truncate (number : Float32) : Int32 :=
  if number.isNaN then 0
  else
    let whole := Binary32.units number / Binary32.unitsPerOne
    if Binary32.isNegative number then Int32.ofInt (-(min whole (Nat.pow 2 31) : Nat))
    else Int32.ofInt (min whole (Nat.pow 2 31 - 1) : Nat)

/-- Anything but zero is true. -/
def isTrue (number : Float32) : Bool :=
  number != 0.0

/-- The number of a truth value. -/
def ofTruth (truth : Bool) : Float32 :=
  if truth then 1.0 else 0.0

/-- The number of a count. -/
def ofCount (count : Nat) : Float32 :=
  (UInt64.ofNat count).toFloat32

/-- The value of a combination; none if it divides by zero. Shift amounts count
    modulo 32. -/
def Combination.apply (operator : Combination) (left right : Float32) : Option Float32 :=
  match operator with
  | .add => some (left + right)
  | .subtract => some (left - right)
  | .multiply => some (left * right)
  | .divide => if right == 0.0 then none else some (left / right)
  | .remainder =>
    if truncate right = 0 then none else some (truncate left % truncate right).toFloat32
  | .both => some (ofTruth (isTrue left && isTrue right))
  | .either => some (ofTruth (isTrue left || isTrue right))
  | .exactlyOne => some (ofTruth (isTrue left ^^ isTrue right))
  | .bitAnd => some (truncate left &&& truncate right).toFloat32
  | .bitOr => some (truncate left ||| truncate right).toFloat32
  | .bitXor => some (truncate left ^^^ truncate right).toFloat32
  | .shiftLeft => some (truncate left <<< truncate right).toFloat32
  | .shiftRight => some (truncate left >>> truncate right).toFloat32

/-- The value an update stores. A divisor of zero is turned away before the operator is
    applied. -/
def Combination.update (operator : Combination) (left right : Float32) : Option Float32 :=
  if (operator = .divide ∨ operator = .remainder) ∧ right == 0.0 then none
  else operator.apply left right

/-- Whether a comparison holds. Nothing but `!=` holds of what is not a number. -/
def Comparison.holds (operator : Comparison) (left right : Float32) : Bool :=
  match operator with
  | .greater => decide (right < left)
  | .less => decide (left < right)
  | .atLeast => decide (right ≤ left)
  | .atMost => decide (left ≤ right)
  | .equal => left == right
  | .unequal => left != right

/-- From here on every binary32 number is whole. -/
def wholeFrom : Float32 := 8388608.0

/-- A zero with the sign of `number`; other results as they are. -/
def keepZeroSign (number result : Float32) : Float32 :=
  if result == 0.0 && Binary32.isNegative number then -0.0 else result

/-- The greatest whole number not above a number. -/
def floor (number : Float32) : Float32 :=
  if number.abs < wholeFrom then
    let whole := (truncate number).toFloat32
    keepZeroSign number (if number < whole then whole - 1.0 else whole)
  else number

/-- The least whole number not below a number. -/
def ceiling (number : Float32) : Float32 :=
  if number.abs < wholeFrom then
    let whole := (truncate number).toFloat32
    keepZeroSign number (if whole < number then whole + 1.0 else whole)
  else number

end PocketScript
