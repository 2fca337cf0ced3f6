import PocketScript.Console
import PocketScript.Number.Count
import PocketScript.Number.Reading
import PocketScript.Text.Blank
import PocketScript.Text.Utf8

/-! # Line console

A console that writes everything one after the other and reads its answers line
by line. The end of the input, and a line that is not UTF-8, stop the user's
part: texts and numbers are not given and menus are cancelled.
-/

namespace PocketScript

/-- The input that is left and what was written. -/
structure LineConsole where
  /-- The lines that were not read, without their line breaks. -/
  lines : List (List UInt8)
  /-- What was written, the latest first. -/
  written : List String
  /-- Whether a line was wanted when none was left. -/
  starved : Bool
  deriving DecidableEq

namespace LineConsole

/-- A console that reads the given lines. -/
def ofLines (lines : List (List UInt8)) : LineConsole :=
  ⟨lines, [], false⟩

/-- The rest of a line under way and the lines after it, if any. -/
def splitFrom : List UInt8 → List UInt8 × List (List UInt8)
  | [] => ([], [])
  | byte :: rest =>
    let (line, lines) := splitFrom rest
    if byte = 0x0a then ([], if rest.isEmpty then [] else line :: lines) else (byte :: line, lines)

/-- The lines of an input. A line break at the end begins no further line. -/
def linesOf (input : List UInt8) : List (List UInt8) :=
  if input.isEmpty then []
  else
    let (line, lines) := splitFrom input
    line :: lines

/-- A console that reads the lines of an input. -/
def ofInput (input : List UInt8) : LineConsole :=
  ofLines (linesOf input)

/-- Write a text. -/
def write (console : LineConsole) (text : String) : LineConsole :=
  { console with written := text :: console.written }

/-- Write a text and a line break. -/
def writeLine (console : LineConsole) (text : String) : LineConsole :=
  console.write (text ++ "\n")

/-- Everything that was written. -/
def output (console : LineConsole) : String :=
  String.join console.written.reverse

/-- The characters of a line, without the carriage returns at its end. -/
def charactersOf? (line : List UInt8) : Option (List Char) :=
  (Text.ofBytes? line).map fun text => Text.trimEnd (· == '\r') text.toList

/-- Write a prompt and read a line. -/
def readLine (console : LineConsole) (prompt : String) : Option (List Char) × LineConsole :=
  let console := console.write prompt
  match console.lines with
  | [] => (none, { console with starved := true })
  | line :: lines => (charactersOf? line, { console with lines })

/-- Which of `count` options a line picks. Options are counted from one. -/
def picked? (count : Nat) (line : List Char) : Option Nat := do
  let number ← readCount? UInt64.size (Text.trim line)
  if 1 ≤ number ∧ number ≤ count then some (number - 1) else none

/-- Ask for one of `count` options until a line picks one. -/
def pick (count : Nat) (written : List String) : List (List UInt8) → MenuChoice × LineConsole
  | [] => (.cancelled, ⟨[], "> " :: written, true⟩)
  | line :: lines =>
    let written := "> " :: written
    match charactersOf? line with
    | none => (.cancelled, ⟨lines, written, false⟩)
    | some characters =>
      match picked? count characters with
      | some index => (.selected index, ⟨lines, written, false⟩)
      | none => pick count (("Pick 1-" ++ toString count ++ "\n") :: written) lines

/-- Write the options of a menu with their numbers. -/
def writeOptions (console : LineConsole) (options : List String) : LineConsole :=
  options.zipIdx.foldl
    (fun console (option, index) =>
      console.writeLine ("  " ++ toString (index + 1) ++ ") " ++ option))
    console

instance : Console LineConsole where
  print console text := (true, console.writeLine text)
  askText console limit :=
    let (line?, console) := console.readLine "? "
    (line?.map fun line => String.ofList (line.take limit), console)
  askNumber console limit :=
    let (line?, console) := console.readLine "# "
    (line?.map fun line => readNumber (Text.toBytes (String.ofList (line.take limit))), console)
  choose console title options :=
    if options.isEmpty then (.failed, console)
    else
      let console := (console.writeLine title).writeOptions options
      pick options.length console.written console.lines
  escapes console := (false, console)
  resume console := console

end LineConsole

end PocketScript
