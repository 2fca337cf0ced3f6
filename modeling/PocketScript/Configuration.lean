import PocketScript.Memory.Region

/-! # Configuration -/

namespace PocketScript

/-- The limits that programs run under. -/
structure Configuration where
  /-- How many bytes the scopes and the heap share. -/
  regionSize : Nat
  /-- How deeply expressions and calls may be nested. -/
  maxDepth : Nat
  /-- Collect once more objects than this were allocated since the last time. -/
  collectAfterAllocations : Nat
  /-- Collect once more statements than this ran since the last time. -/
  collectAfterStatements : Nat
  /-- The seed of the random draws, if they are to be repeatable. -/
  seed? : Option UInt64
  deriving DecidableEq, Repr

/-- The limits that hold unless others are given. -/
def Configuration.standard : Configuration :=
  ⟨Memory.defaultSize, 128, 5, 30, none⟩

end PocketScript
