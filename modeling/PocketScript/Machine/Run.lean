import PocketScript.Machine.Evaluation
import PocketScript.Symbol.Encoding

/-! # Running programs

A run starts with empty memory and leaves it empty. A fault is reported on the
console by its message and the program line it arose in.
-/

namespace PocketScript

/-- How a run ends. -/
inductive Outcome where
  /-- The code ended, or a statement outside any function answered. -/
  | finished
  /-- The program or the user stopped it. -/
  | quit
  | failed (fault : Fault)
  /-- More statements were run than allowed for. -/
  | unfinished
  deriving DecidableEq, Repr

namespace Store

/-- Go back from an address to the start of its line, but not below `lowest`. -/
def lineStart (store : Store) (lowest : Address) : Address → Address
  | 0 => 0
  | address + 1 =>
    if lowest < address + 1 ∧ store.byte address ≠ 0x0a then lineStart store lowest address
    else address + 1

/-- The text of the program line that an address lies in. -/
def sourceLine (store : Store) (address : Address) : String :=
  let lowest := dataAddress (address - address % slotSize)
  Symbol.decode (store.lineFrom (store.lineStart lowest address))

end Store

namespace Machine

variable {κ : Type}

/-- A machine that never ran anything. Without a seed, the draws are those of
    seed zero. -/
def start (store : Store) (console : κ) (configuration : Configuration) : Machine κ :=
  { store
    console
    memory := .empty configuration.regionSize
    configuration
    draws := .ofSeed (configuration.seed?.getD 0)
    recentStatements := 0
    depth := 0
    fault? := none }

/-- Enough statements for every program that ends. -/
def patience : Nat := Nat.pow 2 62

variable [Console κ] [Witness κ]

/-- Run the program in a slot, in a global scope. -/
def runGlobal [Heeding κ] (steps : Nat) (slot : Address) : Eval κ Value := do
  let address := Store.dataAddress slot
  let scope ← Eval.onMemory address Memory.pushScope
  Eval.onMemory address (Memory.pushBranch .run 0)
  Eval.modifyRoots (·.push (.scope scope))
  let levels := (← get).configuration.maxDepth
  runCode (fun address => evaluate steps levels address Inner.statementCeiling true) steps address

/-- Show the message of a fault and its program line, whatever the user answers. -/
def report (machine : Machine κ) (fault : Fault) : Machine κ :=
  let console := (Console.print machine.console fault.kind.message).2
  { machine with console := (Console.print console (machine.store.sourceLine fault.address)).2 }

/-- Leave memory empty after a run, and report the fault if there was one. -/
def finish (machine : Machine κ) (outcome : Outcome) : Outcome × Machine κ :=
  let machine := { machine with memory := machine.memory.reset }
  match machine.fault? with
  | some fault => (.failed fault, machine.report fault)
  | none => (outcome, machine)

/-- What a run starts with. -/
def prepared (machine : Machine κ) : Machine κ :=
  { machine with
    fault? := none
    memory := machine.memory.reset
    recentStatements := 0
    depth := 0
    console := Console.resume machine.console }

/-- How a run ends, given how its code ended. -/
def ending : EStateM.Result Interrupt (Machine κ) Value → Outcome × Machine κ
  | .ok _ machine | .error (.answer _) machine => machine.finish .finished
  | .error .quit machine => machine.finish .quit
  | .error .unfinished machine => machine.finish .unfinished

/-- Run the program in a slot; no stretch of code runs more than `steps`
    statements. -/
def runSlot [Heeding κ] (steps : Nat) (machine : Machine κ) (slot : Address) : Outcome × Machine κ :=
  ending (runGlobal steps slot machine.prepared)

/-- Run the program with a name. -/
def runProgram [Heeding κ] (steps : Nat) (machine : Machine κ) (name : List UInt8) :
    Except FileError (Outcome × Machine κ) :=
  match machine.store.find? name with
  | some slot => .ok (machine.runSlot steps slot)
  | none => .error .missingFile

/-- Store a program under a name. -/
def install (machine : Machine κ) (name code : List UInt8) :
    Except FileError Address × Machine κ :=
  match Store.install name code machine.store with
  | .ok slot store => (.ok slot, { machine with store })
  | .error error store => (.error error, { machine with store })

end Machine

end PocketScript
