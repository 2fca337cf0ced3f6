/-! # Reading counts

A count is written in decimal digits, with a plus sign in front or without, and
is below a limit.
-/

namespace PocketScript

/-- The value of digits, the highest first. -/
def valueOfDigits (digits : List Char) : Nat :=
  digits.foldl (fun value digit => value * 10 + (digit.toNat - '0'.toNat)) 0

/-- The count that characters spell out, if they spell one. -/
def readCount? (limit : Nat) (characters : List Char) : Option Nat :=
  let digits :=
    match characters with
    | '+' :: rest => rest
    | _ => characters
  if digits.isEmpty || !digits.all Char.isDigit then none
  else
    let count := valueOfDigits digits
    if count < limit then some count else none

end PocketScript
