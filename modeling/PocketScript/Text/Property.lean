/-! # Character properties

Properties of the Unicode character database are given by their ranges of code
points, from low to high and with both ends included.
-/

namespace PocketScript.Text

/-- Whether some range of a table holds a code point. -/
def inRanges (table : Array (Nat × Nat)) (code : Nat) : Bool :=
  table.any fun (lowest, highest) => lowest ≤ code && code ≤ highest

end PocketScript.Text
