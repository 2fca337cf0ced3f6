import PocketScript.Display.Cell
import PocketScript.Text.Blank

/-! # Screens

A screen keeps what was last written into each of its columns. Drawing on it
writes every cell but the covered ones: there the earlier text stays.
-/

namespace PocketScript

/-- What stands in the columns of a screen, line by line. -/
structure Screen where
  lines : List (List (List Char))
  deriving DecidableEq, Repr

namespace Screen

/-- A screen that nothing was drawn on. -/
def blank (width height : Nat) : Screen :=
  ⟨List.replicate height (List.replicate width [' '])⟩

/-- What stands in a column after a cell was drawn in it. -/
def write (column : List Char) : Cell → List Char
  | .holds cluster => cluster
  | .covered => column

/-- The screen after lines were drawn all over it. -/
def draw (screen : Screen) (drawn : List (List Cell)) : Screen :=
  ⟨List.zipWith (List.zipWith write) screen.lines drawn⟩

/-- The lines of a screen as texts, without the spaces at their ends. -/
def texts (screen : Screen) : List String :=
  screen.lines.map fun columns => String.ofList (Text.trimEnd (· == ' ') columns.flatten)

end Screen

end PocketScript
