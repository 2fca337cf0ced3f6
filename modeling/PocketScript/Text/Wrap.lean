/-! # Wrapping

A text is broken into lines at every line break and after every `width`
characters. A line break at the edge breaks once, and there is always at least
one line.
-/

namespace PocketScript.Text

/-- The rest of a line under way that holds `used` characters so far, and the
    lines after it. -/
def wrapFrom (width used : Nat) : List Char → List Char × List (List Char)
  | [] => ([], [])
  | character :: rest =>
    if character = '\n' then
      let (line, lines) := wrapFrom width 0 rest
      ([], line :: lines)
    else if used < width then
      let (line, lines) := wrapFrom width (used + 1) rest
      (character :: line, lines)
    else
      let (line, lines) := wrapFrom width 1 rest
      ([], (character :: line) :: lines)

/-- The lines of a text at a width. -/
def wrap (width : Nat) (text : String) : List String :=
  let (line, lines) := wrapFrom width 0 text.toList
  (line :: lines).map String.ofList

end PocketScript.Text
