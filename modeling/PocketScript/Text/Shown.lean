import PocketScript.Text.Property.Visible

/-! # Characters in messages

How a character outside ASCII is quoted in a message: between apostrophes, as
itself if it can be seen on its own, otherwise by its code point.
-/

namespace PocketScript.Text

/-- A code point in lower-case hexadecimal, without padding. -/
def hexadecimal (code : Nat) : String :=
  String.ofList (Nat.toDigits 16 code)

/-- The quoted form of a character outside ASCII. A character that shows nothing,
    or that would attach to the apostrophe, is written by its code point. -/
def shown (character : Char) : String :=
  if isVisible character then String.ofList ['\'', character, '\'']
  else "'\\u\x7b" ++ hexadecimal character.toNat ++ "\x7d'"

end PocketScript.Text
