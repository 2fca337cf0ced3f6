import PocketScript.Machine.Run

/-! # Metered runs

A meter sits between a program and its console. It counts the expressions and
statements that a run begins, nested ones included, until a loop is opened, and
remembers whether one was. Evaluation with a meter is evaluation on another console,
with a mark set wherever an expression or a statement begins or ends.
-/

namespace PocketScript

variable {κ α β : Type}

/-- A console with a meter. -/
structure Metered (κ : Type) where
  console : κ
  /-- How many expressions and statements were begun before a loop was opened. -/
  begun : Nat
  /-- Whether a loop was opened. -/
  looped : Bool

namespace Metered

/-- Put a request to the console, past the meter. -/
def through (metered : Metered κ) (request : κ → α × κ) : α × Metered κ :=
  ((request metered.console).1, { metered with console := (request metered.console).2 })

instance [Console κ] : Console (Metered κ) where
  print metered text := metered.through (Console.print · text)
  askText metered limit := metered.through (Console.askText · limit)
  askNumber metered limit := metered.through (Console.askNumber · limit)
  choose metered title options := metered.through (Console.choose · title options)
  escapes metered := metered.through Console.escapes
  resume metered := { metered with console := Console.resume metered.console }

/-- Count one more, unless a loop was opened. -/
def count (metered : Metered κ) : Metered κ :=
  if metered.looped then metered else { metered with begun := metered.begun + 1 }

/-- Remember that a loop was opened, if one was. -/
def notice (metered : Metered κ) (opened : Bool) : Metered κ :=
  { metered with looped := metered.looped || opened }

end Metered

namespace Machine

/-- The machine without its meter. -/
def bare (machine : Machine (Metered κ)) : Machine κ :=
  { machine with console := machine.console.console }

/-- The machine with a meter. -/
def withMeter (machine : Machine κ) (meter : Metered κ) : Machine (Metered κ) :=
  { machine with console := { meter with console := machine.console } }

/-- Notice a loop that is the innermost block. -/
def notice (machine : Machine (Metered κ)) : Machine (Metered κ) :=
  { machine with console := machine.console.notice (machine.memory.stack.action == .loop) }

/-- Count one more. -/
def count (machine : Machine (Metered κ)) : Machine (Metered κ) :=
  { machine with console := machine.console.count }

end Machine

/-- Count an expression or a statement when it begins. A loop that it opens is noticed
    when it ends or when another one begins in it. -/
def Eval.metering (evaluation : Eval (Metered κ) α) : Eval (Metered κ) α := do
  modify fun machine => machine.notice.count
  let result ← evaluation
  modify Machine.notice
  return result

namespace Machine

variable [Console κ]

/-- An expression with a meter. -/
def evaluateMetered (steps : Nat) : (levels : Nat) → (start : Address) → (ceiling : Nat) →
    (isStatement : Bool) → Eval (Metered κ) Expression
  | 0, start, _, _ => Eval.metering (Eval.raise .expressionTooComplex start)
  | levels + 1, start, ceiling, isStatement =>
    let code (evaluate : Address → Nat → Bool → Eval (Metered κ) Expression) : Address → Eval (Metered κ) Value :=
      runCode (fun address => evaluate address Inner.statementCeiling true) steps
    let inner : Inner (Metered κ) :=
      { expression := evaluateMetered steps levels
        code := code (evaluateMetered steps levels)
        body? :=
          match levels with
          | 0 => none
          | deeper + 1 => some (code (evaluateMetered steps deeper)) }
    Eval.metering (Eval.nested (Eval.releasing (frame inner start ceiling isStatement)))

/-- The program in a slot with a meter. -/
def runGlobalMetered (steps : Nat) (slot : Address) : Eval (Metered κ) Value := do
  let address := Store.dataAddress slot
  let scope ← Eval.onMemory address Memory.pushScope
  Eval.onMemory address (Memory.pushBranch .run 0)
  Eval.modifyRoots (·.push (.scope scope))
  let levels := (← get).configuration.maxDepth
  runCode (fun address => evaluateMetered steps levels address Inner.statementCeiling true) steps address

/-- Run the program in a slot with a meter that starts at zero. -/
def runMetered (steps : Nat) (machine : Machine κ) (slot : Address) : Outcome × Machine (Metered κ) :=
  ending (runGlobalMetered steps slot (machine.withMeter ⟨machine.console, 0, false⟩).prepared)

end Machine

end PocketScript
