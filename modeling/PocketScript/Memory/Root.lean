import PocketScript.Value

/-! # Roots

The collector keeps what can be reached from the registered roots. Roots are
registered while a value is still needed and released, the latest first, when
the expression that needs it is left.
-/

namespace PocketScript

/-- One registration. -/
inductive Root where
  | value (value : Value)
  /-- Values that are added one by one, such as arguments. -/
  | values (values : List Value)
  /-- Every variable of the scope with this index. -/
  | scope (index : Nat)
  deriving DecidableEq

/-- The registrations, the oldest first. -/
abbrev Roots := Array Root

namespace Roots

/-- Drop every registration but the oldest `mark`. -/
def release (roots : Roots) (mark : Nat) : Roots :=
  roots.take mark

/-- Register a value. Values without an object on the heap need none. -/
def track (roots : Roots) (value : Value) : Roots :=
  if value.cell?.isSome then roots.push (.value value) else roots

/-- Add a value to the registration at an index, if that is one of values. -/
def trackIn (roots : Roots) (index : Nat) (value : Value) : Roots :=
  roots.modify index fun
    | .values values => .values (values ++ [value])
    | root => root

end Roots

end PocketScript
