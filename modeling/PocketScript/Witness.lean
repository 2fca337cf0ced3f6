import PocketScript.Fault

/-! # Witnesses

A console answers what a program asks. What else happens in a run, a witness may
take note of, and the evaluator tells it in the order in which it happens. No console
is a witness unless it is made one, and then all else goes on as before.
-/

namespace PocketScript

/-- What a witness is told. -/
inductive Note where
  /-- A fault was recorded, in place of what there was before. -/
  | failed (before? : Option Fault) (fault : Fault)
  /-- The store was worked on, and this is what became of it. -/
  | stored (store : Store)
  /-- Evaluation went one level deeper, to this depth. -/
  | entered (depth : Nat)

/-- Consoles that take note of what happens in a run. -/
class Witness (κ : Type) where
  note : Note → κ → κ

instance (priority := low) Witness.inattentive {κ : Type} : Witness κ where
  note _ console := console

end PocketScript
