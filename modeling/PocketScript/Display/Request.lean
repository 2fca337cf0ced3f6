import PocketScript.Console
import PocketScript.Display.Frame
import PocketScript.Display.Key
import PocketScript.Text.Wrap

/-! # Requests on the display

The display answers a request in turns: it draws a frame, takes a key, and the
key either changes what is shown or ends the request. Scrolling a text, editing
a line and choosing from a menu differ only in what they show and in what a key
does to them.
-/

namespace PocketScript

/-- What a key does to a request. -/
inductive Turn (σ α : Type) where
  | shows (state : σ)
  | ends (answer : α)
  deriving DecidableEq

/-- A request that was answered. -/
structure Attended (α : Type) where
  /-- Everything that was drawn, in order. -/
  frames : List Frame
  answer : α
  /-- The keys that were not taken. -/
  keys : List Key
  deriving DecidableEq

/-- Draw and take keys until one ends the request; `exhausted` is the answer if
    the keys run out. -/
def attend {σ α : Type} (view : σ → Frame) (press : σ → Key → Turn σ α) (exhausted : α) :
    σ → List Key → Attended α
  | state, [] => ⟨[view state], exhausted, []⟩
  | state, key :: keys =>
    match press state key with
    | .ends answer => ⟨[view state], answer, keys⟩
    | .shows next =>
      let attended := attend view press exhausted next keys
      { attended with frames := view state :: attended.frames }

namespace Scroll

/-- The frame that shows two lines of a text, `top` being the first. -/
def view (lines : List String) (top : Nat) : Frame :=
  .ofRows .message "Output" (lines[top]?.getD "") (lines[top + 1]?.getD "")

/-- What a key does while a text of `count` lines is shown from `top` on. The
    last line never leaves the lower row upwards. -/
def press (count top : Nat) : Key → Turn Nat Bool
  | .enter => .ends true
  | .escape => .ends false
  | .up => .shows (top - 1)
  | .down => .shows (if top + Frame.rowCount < count then top + 1 else top)
  | _ => .shows top

/-- Show a text until the user goes on. -/
def attend (text : String) (keys : List Key) : Attended Bool :=
  let lines := Text.wrap Frame.rowLength text
  PocketScript.attend (view lines) (press lines.length) false 0 keys

end Scroll

namespace Edit

/-- The frame that shows the end of a line and the cursor after it. -/
def view (line : List Char) : Frame :=
  let shown := line ++ ['_']
  .ofRows .input "Enter a value" (String.ofList (shown.drop (shown.length - Frame.rowLength))) ""

/-- What a key does to a line of at most `limit` characters. -/
def press (limit : Nat) (accepts : Char → Bool) (line : List Char) :
    Key → Turn (List Char) (Option String)
  | .enter => .ends (some (String.ofList line))
  | .escape => .ends none
  | .backspace => .shows line.dropLast
  | .types character =>
    .shows (if accepts character && line.length < limit then line ++ [character] else line)
  | _ => .shows line

/-- Whether a character may stand in a text: all but control characters may. -/
def isTextCharacter (character : Char) : Bool :=
  !(character.toNat < 0x20 || (0x7f ≤ character.toNat && character.toNat < 0xa0))

/-- Whether a character may stand in a number. -/
def isNumberCharacter (character : Char) : Bool :=
  character.isDigit || character == '.' || character == 'e' || character == '-'

/-- Let the user write a line. -/
def attend (limit : Nat) (accepts : Char → Bool) (keys : List Key) : Attended (Option String) :=
  PocketScript.attend view (press limit accepts) none [] keys

end Edit

namespace Choose

/-- The frame that shows a title and one option. -/
def view (title : String) (options : List String) (index : Nat) : Frame :=
  .ofRows .menu (toString options.length ++ " options") title ("*" ++ options[index]?.getD "")

/-- What a key does while one of `count` options is shown. After the last option
    comes the first. -/
def press (count index : Nat) : Key → Turn Nat MenuChoice
  | .up | .left => .shows ((index + count - 1) % count)
  | .down | .right => .shows ((index + 1) % count)
  | .enter => .ends (.selected index)
  | .escape => .ends .cancelled
  | _ => .shows index

/-- Let the user choose; without keys nothing can be chosen. -/
def attend (title : String) (options : List String) (keys : List Key) : Attended MenuChoice :=
  PocketScript.attend (view title options) (press options.length) .failed 0 keys

end Choose

end PocketScript
