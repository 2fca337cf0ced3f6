import PocketScript.Console
import PocketScript.Number.Reading
import PocketScript.Number.Writing
import PocketScript.Text.Utf8

/-! # Scripted console

A console that answers requests from a prepared script and keeps what was shown.
-/

namespace PocketScript

/-- A prepared answer. -/
inductive ScriptedAnswer where
  | text (text : String)
  | number (number : Float32)
  | choice (index : Nat)
  | cancel
  deriving DecidableEq

/-- A script and what was shown so far. -/
structure Script where
  answers : List ScriptedAnswer
  /-- The printed texts, the latest first. -/
  printed : List String
  /-- The menus, the latest first. -/
  menus : List (String × List String)
  /-- At which question about stopping the answer becomes yes. -/
  escapeAt? : Option Nat
  /-- How often the question was put. -/
  polls : Nat
  /-- Whether every print is answered by a stop. -/
  cancelsPrints : Bool
  deriving DecidableEq

namespace Script

/-- A script with the given answers. -/
def ofAnswers (answers : List ScriptedAnswer) : Script :=
  ⟨answers, [], [], none, 0, false⟩

/-- The next answer; none at the end of the script. -/
def next (script : Script) : Option ScriptedAnswer × Script :=
  match script.answers with
  | [] => (none, script)
  | answer :: rest => (some answer, { script with answers := rest })

/-- The first characters of a text. -/
def cut (limit : Nat) (text : String) : String :=
  String.ofList (text.toList.take limit)

/-- The text that an answer gives. Numbers are spelled out. -/
def textOf? (limit : Nat) : ScriptedAnswer → Option String
  | .text text => some (cut limit text)
  | .number number => some (writeShortest number)
  | .choice _ | .cancel => none

/-- The number that an answer gives. Texts are read. -/
def numberOf? (limit : Nat) : ScriptedAnswer → Option Float32
  | .number number => some number
  | .text text => some (readNumber (Text.toBytes (cut limit text)))
  | .choice _ | .cancel => none

/-- How an answer, or the end of the script, leaves a menu. -/
def choiceOf (count : Nat) : Option ScriptedAnswer → MenuChoice
  | some (.choice index) => if index < count then .selected index else .failed
  | some .cancel | none => .cancelled
  | some (.text _) | some (.number _) => .failed

/-- The lines of everything printed. -/
def output (script : Script) : List String :=
  script.printed.reverse.flatMap fun text => text.splitOn "\n"

instance : Console Script where
  print script text := (!script.cancelsPrints, { script with printed := text :: script.printed })
  askText script limit :=
    let (answer, script) := script.next
    (answer.bind (textOf? limit), script)
  askNumber script limit :=
    let (answer, script) := script.next
    (answer.bind (numberOf? limit), script)
  choose script title options :=
    let (answer, script) := script.next
    (choiceOf options.length answer, { script with menus := (title, options) :: script.menus })
  escapes script :=
    let polls := script.polls + 1
    (script.escapeAt?.any (· ≤ polls), { script with polls })
  resume script := script

end Script

end PocketScript
