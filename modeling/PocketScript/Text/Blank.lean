/-! # Blanks around a text -/

namespace PocketScript.Text

/-- White_Space: characters that count as blank. -/
def isBlank (character : Char) : Bool :=
  let code := character.toNat
  (0x9 ≤ code && code ≤ 0xd) || code == 0x20 || code == 0x85 || code == 0xa0 || code == 0x1680 ||
    (0x2000 ≤ code && code ≤ 0x200a) || code == 0x2028 || code == 0x2029 || code == 0x202f ||
    code == 0x205f || code == 0x3000

/-- Characters without those at the end that a test holds of. -/
def trimEnd (test : Char → Bool) (characters : List Char) : List Char :=
  (characters.reverse.dropWhile test).reverse

/-- Characters without the blanks around them. -/
def trim (characters : List Char) : List Char :=
  trimEnd isBlank (characters.dropWhile isBlank)

/-- A text filled up with spaces on the right. -/
def padRight (width : Nat) (text : String) : String :=
  text ++ String.ofList (List.replicate (width - text.length) ' ')

/-- A text filled up with spaces on the left. -/
def padLeft (width : Nat) (text : String) : String :=
  String.ofList (List.replicate (width - text.length) ' ') ++ text

end PocketScript.Text
