import PocketScript.Configuration
import PocketScript.Number.Count

/-! # Arguments

What the words of a command line ask for, and what is said where they ask for
nothing.
-/

namespace PocketScript

/-- How a program is to be run. -/
structure RunOptions where
  /-- The path of the program. -/
  program : String
  /-- The path of the image that the store is kept in. -/
  image? : Option String
  /-- Whether lines are read and written in place of the display. -/
  plain : Bool
  configuration : Configuration
  deriving DecidableEq

/-- What a command line asks for. -/
inductive Command where
  | run (options : RunOptions)
  /-- List the files in an image. -/
  | list (image : String)
  deriving DecidableEq

/-- Why a command line asks for nothing. -/
inductive ArgumentError where
  | noCommand
  | noProgram
  | missingValue (option : String)
  | invalidValue (value option : String)
  | unknownOption (option : String)
  /-- Files are to be listed, but of no image. -/
  | noImage
  deriving DecidableEq, Repr

namespace ArgumentError

/-- What is wrong with the command line. -/
def message : ArgumentError → String
  | .noCommand => "No command provided"
  | .noProgram => "No program file provided"
  | .missingValue option => "Missing value for " ++ option
  | .invalidValue value option => "Invalid value '" ++ value ++ "' for " ++ option
  | .unknownOption option => "Unknown option '" ++ option ++ "'"
  | .noImage => "files needs --image <path>"

/-- The usage of the commands, by lines. -/
def usage : List String :=
  [ "Usage:",
    "  chipos run <program> [options]",
    "  chipos files --image <path>",
    "",
    "Options for run:",
    "  --image <path>    Load and save the file store image",
    "  --region <bytes>  Size of the scope/heap region",
    "  --depth <n>       Deepest expression and call nesting",
    "  --seed <n>        Seed for rand and randInt",
    "  --plain           Use standard input/output instead of the display",
    "",
    "Examples:",
    "  chipos run demos/guess.chp                  # Run on the display",
    "  chipos run demos/fizzbuzz.chp --plain       # Run on standard output" ]

/-- The lines that report an error. Where options are known, the usage follows. -/
def report (error : ArgumentError) : List String :=
  let line := "Error: " ++ error.message
  match error with
  | .noImage => [line]
  | _ => line :: "" :: usage

end ArgumentError

/-- The options that take a value. -/
inductive ValueOption where
  | image
  | region
  | depth
  | seed
  deriving DecidableEq, Repr

namespace ValueOption

/-- The option that a word names. -/
def ofWord? : String → Option ValueOption
  | "--image" => some .image
  | "--region" => some .region
  | "--depth" => some .depth
  | "--seed" => some .seed
  | _ => none

end ValueOption

namespace RunOptions

/-- The options that hold unless others are given. -/
def ofProgram (program : String) : RunOptions :=
  ⟨program, none, false, .standard⟩

/-- Set an option; none if the value is not one for it. -/
def set? (options : RunOptions) (option : ValueOption) (value : String) : Option RunOptions :=
  let configuration := options.configuration
  let count? := readCount? UInt64.size value.toList
  match option with
  | .image => some { options with image? := some value }
  | .region =>
    count?.map fun regionSize =>
      { options with configuration := { configuration with regionSize } }
  | .depth =>
    count?.map fun maxDepth => { options with configuration := { configuration with maxDepth } }
  | .seed =>
    count?.map fun seed =>
      { options with configuration := { configuration with seed? := some (UInt64.ofNat seed) } }

/-- Set the options that words give, the later ones last. -/
def read (options : RunOptions) : List String → Except ArgumentError RunOptions
  | [] => .ok options
  | word :: rest =>
    if word = "--plain" then read { options with plain := true } rest
    else
      match ValueOption.ofWord? word, rest with
      | none, _ => .error (.unknownOption word)
      | some _, [] => .error (.missingValue word)
      | some option, value :: rest =>
        match options.set? option value with
        | none => .error (.invalidValue value word)
        | some options => read options rest

end RunOptions

/-- What the words of a command line ask for. -/
def Command.ofArguments : List String → Except ArgumentError Command
  | "run" :: program :: rest => .run <$> (RunOptions.ofProgram program).read rest
  | "run" :: [] => .error .noProgram
  | "files" :: "--image" :: image :: _ => .ok (.list image)
  | "files" :: _ => .error .noImage
  | _ => .error .noCommand

end PocketScript
