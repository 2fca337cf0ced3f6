/-! # Memory errors -/

namespace PocketScript

/-- Why a memory operation is refused. -/
inductive MemoryError where
  /-- The scopes and the heap would overlap. -/
  | collision
  /-- An index or range lies outside the sequence. -/
  | badIndex
  /-- The operand is not the kind of sequence or element that is needed. -/
  | badType
  /-- The object was collected. -/
  | dangling
  deriving DecidableEq, Repr

/-- The text of a memory error. -/
def MemoryError.message : MemoryError → String
  | .collision => "stack-heap collision"
  | .badIndex => "index out of range"
  | .badType => "wrong sequence type"
  | .dangling => "reference to a collected object"

end PocketScript
