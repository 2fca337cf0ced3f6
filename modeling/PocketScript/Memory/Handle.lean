/-! # Handles

Values never hold an object itself, only a handle that names it. The heap keeps
its objects in slots; a slot is used again once its object is gone, under the
next generation, so a handle of the object that is gone does not name the one
that comes after.
-/

namespace PocketScript

/-- The name of an object. -/
inductive Handle where
  /-- Names nothing, now or later. -/
  | dangling
  /-- A slot of the heap and which of its uses this is. -/
  | entry (slot : Nat) (generation : UInt32)
  deriving DecidableEq, Repr, Inhabited

end PocketScript
