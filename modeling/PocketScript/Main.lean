import PocketScript.Command

/-! # The command line

Reads the files and the input that a command works on, executes it and writes
its report.
-/

namespace PocketScript.Host

/-- Read a line of input without its line break; none at the end. -/
partial def readInputLine (input : IO.FS.Stream) (line : List UInt8) :
    IO (Option (List UInt8)) := do
  let chunk ← input.read 1
  match chunk.toList with
  | [] => return if line.isEmpty then none else some line.reverse
  | byte :: _ =>
    if byte = 0x0a then return some line.reverse else readInputLine input (byte :: line)

/-- Read all lines of input. -/
partial def readInputLines (input : IO.FS.Stream) (lines : List (List UInt8)) :
    IO (List (List UInt8)) := do
  match ← readInputLine input [] with
  | none => return lines.reverse
  | some line => readInputLines input (line :: lines)

/-- Read the files at the paths that a command names. -/
def readFolder (paths : List String) : IO Folder := do
  let files ← paths.filterMapM fun (path : String) => do
    try return some (path, (← IO.FS.readBinFile path).toList) catch _ => return none
  return ⟨files⟩

/-- Execute a command on the lines typed so far and write what is new; go on with
    one more line for as long as the program asks for one. -/
partial def serve (command : Command) (folder : Folder) (lines : List (List UInt8))
    (written : Nat) : IO Report := do
  let report := command.execute folder lines
  (← IO.getStdout).putStr (String.ofList (report.output.toList.drop written))
  (← IO.getStdout).flush
  if report.starved then
    match ← readInputLine (← IO.getStdin) [] with
    | some line => serve command folder (lines ++ [line]) report.output.length
    | none => return report
  else return report

/-- Finish a command: write about errors and save the image. -/
def finish (report : Report) : IO UInt32 := do
  if let some (image, store) := report.saved? then
    IO.FS.writeBinFile image ⟨store.bytes.toArray⟩
  (← IO.getStderr).putStr report.errors
  return UInt32.ofNat report.status

/-- Execute a command with fresh random draws, unless it gives their seed. -/
def perform (command : Command) : IO UInt32 := do
  match command with
  | .list image => finish (← serve command (← readFolder [image]) [] 0)
  | .run options =>
    let folder ← readFolder (options.program :: options.image?.toList)
    let seed ← IO.rand 0 (UInt64.size - 1)
    let configuration := options.configuration
    let seed? := configuration.seed?.or (some (UInt64.ofNat seed))
    let command := Command.run { options with configuration := { configuration with seed? } }
    if options.plain then finish (← serve command folder [] 0)
    else
      let report := command.execute folder (← readInputLines (← IO.getStdin) [])
      (← IO.getStdout).putStr report.output
      finish report

end PocketScript.Host

/-- The command line. -/
def main (arguments : List String) : IO UInt32 := do
  match PocketScript.Command.ofArguments arguments with
  | .error error => PocketScript.Host.finish (.ofErrors error.report)
  | .ok command => PocketScript.Host.perform command
