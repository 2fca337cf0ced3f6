import PocketScript.Memory.Handle
import PocketScript.Store

/-! # Values

What an expression yields. Strings and lists are held by the handle of a cell,
so copying a value shares the string or list.
-/

namespace PocketScript

/-- A value of the language. -/
inductive Value where
  /-- The result of a statement without one, and of a variable that is unbound. -/
  | missing
  | number (number : Float32)
  | string (cell : Handle)
  | list (cell : Handle)
  /-- A function, as the address of its definition. -/
  | function (header : Address)
  deriving DecidableEq, Inhabited

namespace Value

/-- How many bytes of memory a value counts for. -/
def size : Nat := 5

/-- The number that `type:` gives. -/
def typeNumber : Value → Nat
  | .missing => 0
  | .number _ => 1
  | .string _ => 2
  | .list _ => 3
  | .function _ => 4

/-- The name of a value's type. -/
def typeName : Value → String
  | .missing => "missing"
  | .number _ => "number"
  | .string _ => "string"
  | .list _ => "list"
  | .function _ => "function"

/-- Whether there is no value. -/
def isMissing : Value → Bool
  | .missing => true
  | _ => false

/-- The number, if the value is one. -/
def number? : Value → Option Float32
  | .number x => some x
  | _ => none

/-- The cell of a string or a list. -/
def cell? : Value → Option Handle
  | .string cell | .list cell => some cell
  | _ => none

end Value

end PocketScript
