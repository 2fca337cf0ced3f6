import PocketScript.Console
import PocketScript.Display.Request
import PocketScript.Display.Screen
import PocketScript.Number.Reading
import PocketScript.Text.Utf8

/-! # The display

The display is a console of two short rows and a few keys. It keeps every frame
that was drawn, with the screen as it was then; the latest one is still there.
-/

namespace PocketScript

/-- A frame and the screen that it was drawn on. -/
structure Drawing where
  frame : Frame
  screen : Screen
  deriving DecidableEq

/-- A display, the keys that are still to be pressed and what was drawn. -/
structure Display where
  /-- The columns of the screen. -/
  width : Nat
  /-- The lines of the screen. -/
  height : Nat
  keys : List Key
  /-- What was drawn, the latest first. -/
  drawings : List Drawing
  deriving DecidableEq

namespace Display

/-- A display that nothing was drawn on. -/
def ofKeys (width height : Nat) (keys : List Key) : Display :=
  ⟨width, height, keys, []⟩

/-- The two rows of the display. -/
def rows (display : Display) : String × String :=
  match display.drawings with
  | [] => ("", "")
  | drawing :: _ => (drawing.frame.upper, drawing.frame.lower)

/-- What is on the screen. -/
def screen (display : Display) : Screen :=
  match display.drawings with
  | [] => .blank display.width display.height
  | drawing :: _ => drawing.screen

/-- The display after a frame was drawn. -/
def draw (display : Display) (frame : Frame) : Display :=
  let screen := display.screen.draw (frame.draw display.width display.height)
  { display with drawings := ⟨frame, screen⟩ :: display.drawings }

/-- The display after a request. -/
def after {α : Type} (display : Display) (attended : Attended α) : α × Display :=
  (attended.answer, attended.frames.foldl draw { display with keys := attended.keys })

/-- Show a message in the status bar until a key is pressed; false if none is. -/
def awaitKey (display : Display) (message : String) : Bool × Display :=
  let (upper, lower) := display.rows
  let press (_ : Unit) (_ : Key) : Turn Unit Bool := .ends true
  display.after (attend (fun _ => ⟨.message, message, upper, lower⟩) press false () display.keys)

instance : Console Display where
  print display text := display.after (Scroll.attend text display.keys)
  askText display limit := display.after (Edit.attend limit Edit.isTextCharacter display.keys)
  askNumber display limit :=
    let (text?, display) := display.after (Edit.attend limit Edit.isNumberCharacter display.keys)
    (text?.map fun text => readNumber (Text.toBytes text), display)
  choose display title options :=
    if options.isEmpty then (.failed, display)
    else display.after (Choose.attend title options display.keys)
  escapes display :=
    match display.keys with
    | .escape :: keys => (true, { display with keys })
    | _ => (false, display)
  resume display := display.draw ⟨.running, "Running", "Running...", ""⟩

end Display

end PocketScript
