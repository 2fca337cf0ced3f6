import PocketScript.Text.Property.Width

/-! # The width of a cluster

How many columns a cluster takes on a screen. Most characters take one, many of
the East take two, marks take none; but a character that asks for a style, a
picture that is joined to another, or a letter that is stacked below another
changes what the characters before it take. So a cluster is measured from its
end.
-/

namespace PocketScript.Text

/-- What the characters to the left of a place have to know of those after it. -/
inductive Following where
  | plain
  /-- A request not to be shown as a picture. -/
  | textStyle
  /-- A request to be shown as a picture. -/
  | emojiStyle
  /-- A skin colour. -/
  | modifier
  | emoji
  /-- A letter that can be stacked below the one before it. -/
  | subscript
  /-- A picture that what is before it is joined to. -/
  | joined
  /-- The same, and a request to be shown as a picture. -/
  | joinedStyle
  /-- The same, and a key cap. -/
  | joinedKeycap
  /-- The same, and the right half of a flag. -/
  | joinedRegional
  /-- The same, and the end of the tags of a flag: letters, and digits before
      them. -/
  | joinedTags (letters digits : Nat)
  deriving DecidableEq, Repr

/-- The width of a character that nothing changes. -/
def plainWidth (character : Char) : Nat :=
  if isNarrowest character then 0
  else if isWide character then 2
  else if character.toNat = 0x17d8 then 3
  else 1

namespace Following

/-- What a character is to those before it. -/
def ofChar (character : Char) : Following :=
  if character.toNat = 0xfe0f then .emojiStyle
  else if character.toNat = 0xfe0e then .textStyle
  else if isModifier character then .modifier
  else if isEmoji character then .emoji
  else if isSubscript character then .subscript
  else .plain

/-- Whether tags end with a region, which is three digits or two letters, and
    what divides it. -/
def isRegion (letters digits : Nat) : Bool :=
  digits == 3 || (digits == 0 && 3 ≤ letters)

/-- The width after a character, and what it is to those before it, if the
    character is no matter of its own in front of what follows. -/
def absorb? (character : Char) (width : Nat) : Following → Option (Nat × Following)
  | .plain => none
  | .textStyle => if takesTextStyle character then some (width + 1, .plain) else none
  | .emojiStyle => if takesEmojiStyle character then some (width + 2, .emoji) else none
  | .modifier =>
    if isModifierBase character then some (width, .emoji)
    else if character.toNat = 0x200d then some (width, .joined)
    else none
  | .emoji => if character.toNat = 0x200d then some (width, .joined) else none
  | .subscript =>
    if character.toNat = 0x17d2 then some (width - 1, .plain)
    else if isStackTransparent character then some (width, .subscript)
    else none
  | .joined =>
    if character.toNat = 0xfe0f then some (width, .joinedStyle)
    else if character.toNat = 0x20e3 then some (width, .joinedKeycap)
    else if character.toNat = 0xe007f then some (width, .joinedTags 0 0)
    else if isRegional character then some (width + 1, .joinedRegional)
    else if isModifier character then some (width, .modifier)
    else if isEmoji character then some (width, .emoji)
    else none
  | .joinedStyle => if takesEmojiStyle character then some (width, .emoji) else none
  | .joinedKeycap => if character.toNat = 0xfe0f then some (width, .joinedStyle) else none
  | .joinedRegional => if isRegional character then some (width - 1, .plain) else none
  | .joinedTags letters digits =>
    if isTagLetter character && digits == 0 && letters < 6 then
      some (width, .joinedTags (letters + 1) 0)
    else if isTagDigit character && digits < 3 && letters ≤ 4 then
      some (width, .joinedTags letters (digits + 1))
    else if character.toNat = 0x1f3f4 && isRegion letters digits then some (width, .emoji)
    else none

/-- Add a character to the width of what follows it. Up to U+00A0 every character
    takes one column, unless it is asked to be shown as a picture. -/
def measure (character : Char) : Nat × Following → Nat × Following
  | (width, following) =>
    match following.absorb? character width with
    | some measured => measured
    | none =>
      if character.toNat ≤ 0xa0 then (width + 1, .plain)
      else (width + plainWidth character, ofChar character)

end Following

/-- How many columns a cluster takes. A line break takes none. -/
def width (cluster : List Char) : Nat :=
  if cluster.getLast? = some '\n' then 0
  else (cluster.foldr Following.measure (0, .plain)).1

end PocketScript.Text
