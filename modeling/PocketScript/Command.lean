import PocketScript.Command.Arguments
import PocketScript.Command.Folder
import PocketScript.Console.Lines
import PocketScript.Display
import PocketScript.Machine.Run
import PocketScript.Text.Blank

/-! # Commands

A command works on a folder and on input, and leaves a report: an exit status,
what it wrote, and the image it saves.
-/

namespace PocketScript

/-- What a command leaves behind. -/
structure Report where
  /-- Zero if everything went well. -/
  status : Nat
  output : String
  /-- What was written about errors. -/
  errors : String
  /-- The store to be saved, with the path of its image. -/
  saved? : Option (String × Store)
  /-- Whether the program asked for more input than there was. -/
  starved : Bool
  deriving DecidableEq

namespace Report

/-- A report of lines about what went wrong. -/
def ofErrors (lines : List String) : Report :=
  ⟨1, "", String.join (lines.map (· ++ "\n")), none, false⟩

/-- A report of lines that were asked for. -/
def ofLines (lines : List String) : Report :=
  ⟨0, String.join (lines.map (· ++ "\n")), "", none, false⟩

end Report

/-- Why a program is not run. -/
inductive StartError where
  | noFile (path : String)
  /-- The path names a folder. -/
  | isFolder
  /-- The program is not UTF-8. -/
  | notText
  | badName (name : String)
  | notEncoded (error : EncodeError)
  | notStored (error : FileError)
  deriving DecidableEq

/-- What is said about a program that is not run. -/
def StartError.message : StartError → String
  | .noFile path => "Error: File '" ++ path ++ "' not found"
  | .isFolder => "Error: Os \x7b code: 21, kind: IsADirectory, message: \"Is a directory\" \x7d"
  | .notText =>
    "Error: Error \x7b kind: InvalidData, message: \"stream did not contain valid UTF-8\" \x7d"
  | .badName name =>
    "Error: Program name '" ++ name ++ "' must be 1 to " ++ toString Store.nameLimit ++
      " characters"
  | .notEncoded error => "Encode error: " ++ error.message
  | .notStored error => "Error: Cannot store program: " ++ error.message

namespace Folder

/-- The store in an image; an erased one if there is no image yet. -/
def store (folder : Folder) (image : String) : Store :=
  match folder.read? image with
  | some bytes => .ofImage bytes.toArray
  | none => .erased

/-- The text of the program at a path. -/
def programText (folder : Folder) (path : String) : Except StartError String :=
  match folder.read? path with
  | none => .error .isFolder
  | some bytes =>
    match Text.ofBytes? bytes with
    | some text => .ok text
    | none => .error .notText

end Folder

namespace RunOptions

/-- The name that the program is stored under. -/
def programName (options : RunOptions) : String :=
  (pathStem? options.program).getD ""

/-- Load the store and put the program into it; its slot and the store. -/
def prepare (options : RunOptions) (folder : Folder) : Except StartError (Address × Store) := do
  if (folder.read? options.program).isNone && !folder.hasFolder options.program then
    throw (.noFile options.program)
  let name := Text.toBytes options.programName
  if name.isEmpty || Store.nameLimit < name.length then throw (.badName options.programName)
  let text ← folder.programText options.program
  let code ← (Symbol.encode text).mapError .notEncoded
  let store := (options.image?.map folder.store).getD .erased
  match Store.install name code store with
  | .ok slot store => return (slot, store)
  | .error error _ => throw (.notStored error)

/-- The report on a program that was run. -/
def report {κ : Type} (options : RunOptions) (outcome : Outcome) (machine : Machine κ)
    (output : String) (starved : Bool) : Report :=
  let saved? := options.image?.map fun image => (image, machine.store)
  match outcome with
  | .failed fault => ⟨1, output, "Runtime error: " ++ fault.describe ++ "\n", saved?, starved⟩
  | .finished | .quit | .unfinished => ⟨0, output, "", saved?, starved⟩

/-- The size of the screen where none is known. -/
def screenSize : Nat × Nat := (80, 24)

/-- What the status bar says at the end of a program. -/
def closing : Outcome → String
  | .finished => "Finished, press any key"
  | .failed _ => "Failed, press any key"
  | .quit | .unfinished => "Stopped, press any key"

/-- Run a program on lines of input. -/
def runOnLines (options : RunOptions) (store : Store) (slot : Address)
    (lines : List (List UInt8)) : Report :=
  let machine := Machine.start store (LineConsole.ofLines lines) options.configuration
  let (outcome, machine) := machine.runSlot Machine.patience slot
  options.report outcome machine machine.console.output machine.console.starved

/-- Run a program on the display with keys to be pressed; every frame is written. -/
def runOnDisplay (options : RunOptions) (store : Store) (slot : Address) (keys : List Key) :
    Report :=
  let (width, height) := screenSize
  let machine := Machine.start store (Display.ofKeys width height keys) options.configuration
  let (outcome, machine) := machine.runSlot Machine.patience slot
  let (answered, display) := machine.console.awaitKey (closing outcome)
  let drawn := display.drawings.reverse.flatMap fun drawing => drawing.screen.texts
  options.report outcome machine (String.join (drawn.map (· ++ "\n"))) !answered

end RunOptions

namespace Store

/-- One line about a file. -/
def describeFile (store : Store) (slot : Address) : String :=
  Text.padRight 16 (Text.ofBytes (store.fileName slot)) ++ " " ++
    Text.padLeft 5 (toString (store.fileSize slot)) ++ " bytes  (slot " ++ toString slot ++ ")"

end Store

namespace Command

/-- List the files in an image. -/
def listImage (folder : Folder) (image : String) : Report :=
  let store := folder.store image
  if store.files.isEmpty then .ofLines ["No files in " ++ image]
  else .ofLines (store.files.map store.describeFile)

/-- Execute a command. -/
def execute (command : Command) (folder : Folder) (lines : List (List UInt8)) : Report :=
  match command with
  | .list image => listImage folder image
  | .run options =>
    match options.prepare folder with
    | .error error => .ofErrors [error.message]
    | .ok (slot, store) =>
      if options.plain then options.runOnLines store slot lines
      else
        let keys := lines.flatMap fun line => Key.ofLine (Text.ofBytes line)
        options.runOnDisplay store slot keys

end Command

/-- What a command line does. -/
def executeArguments (arguments : List String) (folder : Folder) (lines : List (List UInt8)) :
    Report :=
  match Command.ofArguments arguments with
  | .error error => .ofErrors error.report
  | .ok command => command.execute folder lines

end PocketScript
