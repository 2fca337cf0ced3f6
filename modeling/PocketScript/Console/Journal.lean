import PocketScript.Console

/-! # Journals

A journal wraps any console and keeps every request in order, with its answer
and the state the console was in afterwards. What a program did is read off its
journal.
-/

namespace PocketScript

/-- A request and its answer. -/
inductive Exchange where
  | print (text : String) (answer : Bool)
  | askText (limit : Nat) (answer : Option String)
  | askNumber (limit : Nat) (answer : Option Float32)
  | choose (title : String) (options : List String) (answer : MenuChoice)
  | escapes (answer : Bool)
  | resume
  deriving DecidableEq

namespace Exchange

/-- Whether the user was asked whether to stop. -/
def isPoll : Exchange → Bool
  | .escapes _ => true
  | _ => false

/-- Whether the program went on. -/
def isResume : Exchange → Bool
  | .resume => true
  | _ => false

end Exchange

/-- An exchange and the console after it. -/
structure JournalEntry (κ : Type) where
  exchange : Exchange
  console : κ

/-- A console and everything that was asked of it. -/
structure Journal (κ : Type) where
  console : κ
  /-- The entries, the latest first. -/
  entries : List (JournalEntry κ)

namespace Journal

variable {κ : Type}

/-- A console that nothing was asked of. -/
def start (console : κ) : Journal κ :=
  ⟨console, []⟩

/-- Add an exchange that left the console in a state. -/
def note (journal : Journal κ) (exchange : Exchange) (console : κ) : Journal κ :=
  ⟨console, ⟨exchange, console⟩ :: journal.entries⟩

/-- Everything that was asked, in order. -/
def exchanges (journal : Journal κ) : List Exchange :=
  journal.entries.reverse.map (·.exchange)

/-- How often a kind of exchange was held. -/
def count (journal : Journal κ) (test : Exchange → Bool) : Nat :=
  journal.entries.countP fun entry => test entry.exchange

/-- How often the user was asked whether to stop. -/
def polls (journal : Journal κ) : Nat :=
  journal.count Exchange.isPoll

/-- How often the program went on. -/
def resumes (journal : Journal κ) : Nat :=
  journal.count Exchange.isResume

/-- Every entry in order, each with the number of polls before it. -/
def numbered (journal : Journal κ) : List (Nat × JournalEntry κ) :=
  (journal.entries.foldl
    (fun (later, polls) entry =>
      let polls := if entry.exchange.isPoll then polls - 1 else polls
      ((polls, entry) :: later, polls))
    ([], journal.polls)).1

instance [Console κ] : Console (Journal κ) where
  print journal text :=
    let (answer, console) := Console.print journal.console text
    (answer, journal.note (.print text answer) console)
  askText journal limit :=
    let (answer, console) := Console.askText journal.console limit
    (answer, journal.note (.askText limit answer) console)
  askNumber journal limit :=
    let (answer, console) := Console.askNumber journal.console limit
    (answer, journal.note (.askNumber limit answer) console)
  choose journal title options :=
    let (answer, console) := Console.choose journal.console title options
    (answer, journal.note (.choose title options answer) console)
  escapes journal :=
    let (answer, console) := Console.escapes journal.console
    (answer, journal.note (.escapes answer) console)
  resume journal :=
    let console := Console.resume journal.console
    journal.note .resume console

end Journal

end PocketScript
