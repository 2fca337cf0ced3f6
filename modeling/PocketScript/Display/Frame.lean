import PocketScript.Display.Cell
import PocketScript.Text.Blank

/-! # Frames

A frame is everything the display shows at one moment: two rows of characters in
a bordered panel, and a status bar that says what the program is doing and which
keys it takes. `Frame.draw` lays a frame out for a screen of any size.
-/

namespace PocketScript

/-- What the display is showing a frame for. -/
inductive DisplayMode where
  | running
  /-- Showing a text. -/
  | message
  /-- Taking a text or a number. -/
  | input
  | menu
  deriving DecidableEq, Repr

/-- What the display shows at one moment. -/
structure Frame where
  mode : DisplayMode
  /-- The message in the status bar. -/
  status : String
  upper : String
  lower : String
  deriving DecidableEq, Repr

namespace DisplayMode

/-- The name of a mode in the status bar. -/
def label : DisplayMode → String
  | .running => " RUN "
  | .message => " PRINT "
  | .input => " INPUT "
  | .menu => " MENU "

/-- The keys that a mode takes, with what they do. -/
def keyHelp : DisplayMode → List (String × String)
  | .running => [("esc", "stop")]
  | .message => [("↑/↓", "scroll"), ("↵", "continue"), ("esc", "stop")]
  | .input => [("⌫", "erase"), ("↵", "accept"), ("esc", "stop")]
  | .menu => [("↑/↓", "choose"), ("↵", "select"), ("esc", "stop")]

end DisplayMode

namespace Frame

/-- How many characters a row of the display holds. -/
def rowLength : Nat := 16

/-- How many rows the display has. -/
def rowCount : Nat := 2

/-- A text cut to the length of a row. -/
def cut (text : String) : String :=
  String.ofList (text.toList.take rowLength)

/-- A frame with two texts cut to the length of a row. -/
def ofRows (mode : DisplayMode) (status upper lower : String) : Frame :=
  ⟨mode, status, cut upper, cut lower⟩

/-- A line that begins and ends with a character of its own. -/
def bordered (left : Char) (middle : Nat → List Cell) (right : Char) : (width : Nat) → List Cell
  | 0 => []
  | 1 => [.ofChar left]
  | width + 2 => .ofChar left :: middle width ++ [.ofChar right]

/-- The upper edge of the panel, with the title in the middle. -/
def upperEdge : (width : Nat) → List Cell :=
  bordered '┌'
    (fun width =>
      let title := Cell.ofTexts width [" ChipOS "]
      let before := (width - title.length) / 2
      List.replicate before (.ofChar '─') ++ title ++
        List.replicate (width - before - title.length) (.ofChar '─'))
    '┐'

/-- The lower edge of the panel. -/
def lowerEdge : (width : Nat) → List Cell :=
  bordered '└' (fun width => List.replicate width (.ofChar '─')) '┘'

/-- A line of the panel that shows a row, filled with spaces, one column away
    from the border. -/
def panelRow (row : String) : (width : Nat) → List Cell :=
  bordered '│'
    (fun width =>
      let cells := Cell.alignLeft (width - 2) [Text.padRight rowLength row]
      (Cell.blank :: cells ++ [Cell.blank]).take width)
    '│'

/-- The lines of the panel. One line is just the upper edge. -/
def panel (frame : Frame) (width : Nat) : (height : Nat) → List (List Cell)
  | 0 => []
  | 1 => [upperEdge width]
  | height + 2 =>
    let rows := [frame.upper, frame.lower].take height
    upperEdge width :: rows.map (panelRow · width) ++ [lowerEdge width]

/-- The width of the panel where there is room for it. -/
def panelWidth : Nat := rowLength + 4

/-- The height of the panel where there is room for it. -/
def panelHeight : Nat := rowCount + 2

/-- The panel in the middle of an area. -/
def panelArea (frame : Frame) (width height : Nat) : List (List Cell) :=
  let panelWidth := min panelWidth width
  let panelHeight := min panelHeight height
  let above := (height - panelHeight) / 2
  let before := (width - panelWidth) / 2
  let blanks (count : Nat) := List.replicate count Cell.blank
  let line (cells : List Cell) :=
    blanks before ++ cells ++ blanks (width - before - panelWidth)
  List.replicate above (blanks width) ++ (frame.panel panelWidth panelHeight).map line ++
    List.replicate (height - above - panelHeight) (blanks width)

/-- The status bar: the mode and the message on the left, the keys on the right.
    The left half is the wider one. -/
def statusBar (frame : Frame) (width : Nat) : List Cell :=
  let left := (width + 1) / 2
  let keys := frame.mode.keyHelp.map fun (key, effect) => " " ++ key ++ "  " ++ effect ++ " "
  Cell.alignLeft left [frame.mode.label, " | ", " " ++ frame.status ++ " "] ++
    Cell.alignRight (width - left) [String.intercalate "│ " keys]

/-- The lines that a frame puts on a screen. -/
def draw (frame : Frame) (width : Nat) : (height : Nat) → List (List Cell)
  | 0 => []
  | height + 1 => frame.panelArea width height ++ [frame.statusBar width]

end Frame

end PocketScript
