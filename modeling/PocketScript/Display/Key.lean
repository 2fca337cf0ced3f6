/-! # Keys

The keys of the display, and how they are read from typed characters.
-/

namespace PocketScript

/-- A key that was pressed. -/
inductive Key where
  | types (character : Char)
  | enter
  | escape
  | backspace
  | up
  | down
  | left
  | right
  /-- A key with no meaning here. -/
  | other
  deriving DecidableEq, Repr

namespace Key

/-- The key that types a character. -/
def ofCharacter (character : Char) : Key :=
  if character = '\n' ∨ character = '\r' then .enter
  else if character = '\x1b' then .escape
  else if character = '\x08' ∨ character = '\x7f' then .backspace
  else if character = '\t' then .other
  else .types character

/-- The keys that type a text. An arrow key types an escape, a bracket and a
    letter. -/
def ofCharacters : List Char → List Key
  | '\x1b' :: '[' :: 'A' :: rest => .up :: ofCharacters rest
  | '\x1b' :: '[' :: 'B' :: rest => .down :: ofCharacters rest
  | '\x1b' :: '[' :: 'C' :: rest => .right :: ofCharacters rest
  | '\x1b' :: '[' :: 'D' :: rest => .left :: ofCharacters rest
  | character :: rest => ofCharacter character :: ofCharacters rest
  | [] => []

/-- The keys that type a line and end it. -/
def ofLine (line : String) : List Key :=
  ofCharacters line.toList ++ [.enter]

end Key

end PocketScript
