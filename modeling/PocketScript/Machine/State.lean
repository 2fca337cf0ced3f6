import PocketScript.Configuration
import PocketScript.Console
import PocketScript.Fault
import PocketScript.Memory.Collection
import PocketScript.Memory.Sequence
import PocketScript.Random
import PocketScript.Witness

/-! # The machine

A machine runs programs straight from the bytes of its store. This module holds
its state, the ways in which evaluation ends early, and the small steps that all
evaluation is made of: reading a program byte, asking the console, operating on
memory and recording a fault.
-/

namespace PocketScript

/-- Everything a program works on. -/
structure Machine (κ : Type) where
  store : Store
  console : κ
  memory : Memory
  configuration : Configuration
  draws : RandomSource
  /-- How many statements ran since the last collection. -/
  recentStatements : Nat
  /-- How deep evaluation is nested. -/
  depth : Nat
  /-- The fault that ended the program, if one did. -/
  fault? : Option Fault

namespace Machine

variable {κ : Type}

/-- Tell the witness what happened. -/
def noted [Witness κ] (machine : Machine κ) (note : Note) : Machine κ :=
  { machine with console := Witness.note note machine.console }

@[simp]
theorem noted_inattentive (machine : Machine κ) (note : Note) : machine.noted note = machine :=
  rfl

/-- Count one level of nesting. -/
def enter [Witness κ] (machine : Machine κ) : Machine κ :=
  { machine with depth := machine.depth + 1 }.noted (.entered (machine.depth + 1))

@[simp]
theorem enter_inattentive (machine : Machine κ) : machine.enter = { machine with depth := machine.depth + 1 } :=
  rfl

/-- Give one level of nesting back. -/
def leave (machine : Machine κ) : Machine κ :=
  { machine with depth := machine.depth - 1 }

end Machine

/-- Why evaluation ends early. -/
inductive Interrupt where
  /-- The whole program ends: it said so, the user did, or there was a fault. -/
  | quit
  /-- The function under way ends with a value. -/
  | answer (value : Value)
  /-- More statements were run than allowed for. -/
  | unfinished
  deriving DecidableEq

/-- Evaluation on a machine. The state of the machine outlives an interrupt. -/
abbrev Eval (κ : Type) := EStateM Interrupt (Machine κ)

namespace Eval

variable {κ α : Type} [Witness κ]

/-- Record a fault and end the program. -/
def fail (cause : FaultCause) (address : Address) : Eval κ α := fun machine =>
  let fault : Fault := ⟨cause, address⟩
  .error .quit ({ machine with fault? := some fault }.noted (.failed machine.fault? fault))

/-- Record a fault of the program itself. -/
def raise (kind : FaultKind) (address : Address) : Eval κ α :=
  fail (.program kind) address

/-- Operate on memory; a refusal is a fault at `address` with the given cause. -/
def onMemoryAs (cause : MemoryError → FaultCause) (address : Address) (operation : MemoryM α) :
    Eval κ α := fun machine =>
  match operation machine.memory with
  | .ok result memory => .ok result { machine with memory }
  | .error error memory => fail (cause error) address { machine with memory }

/-- Operate on memory; a refusal is a fault at `address`. -/
def onMemory (address : Address) (operation : MemoryM α) : Eval κ α :=
  onMemoryAs .memory address operation

/-- Look something up in memory; a refusal is a fault at `address`. -/
def viewMemory (address : Address) (view : Memory → Except MemoryError α) : Eval κ α :=
  onMemory address (Memory.look view)

/-- Change memory in a way that is never refused. -/
def modifyMemory (change : Memory → Memory) : Eval κ Unit :=
  modify fun machine => { machine with memory := change machine.memory }

/-- Change the scopes in a way that is never refused. -/
def onStack (operation : ScopeStack → α × ScopeStack) : Eval κ α :=
  modifyGet fun machine =>
    let (result, stack) := operation machine.memory.stack
    (result, { machine with memory := { machine.memory with stack } })

/-- Change the registered roots. -/
def modifyRoots (change : Roots → Roots) : Eval κ Unit :=
  modifyMemory fun memory => { memory with roots := change memory.roots }

/-- Register a value as a root. -/
def track (value : Value) : Eval κ Unit :=
  modifyRoots (·.track value)

/-- Start a registration of values that are added one by one; its index. -/
def trackValues : Eval κ Nat :=
  modifyGet fun machine =>
    let memory := machine.memory
    (memory.roots.size,
      { machine with memory := { memory with roots := memory.roots.push (.values []) } })

/-- Operate on the store; a refusal is a fault at `address`. -/
def onStore (address : Address) (operation : StoreM α) : Eval κ α := fun machine =>
  match operation machine.store with
  | .ok result store => .ok result ({ machine with store }.noted (.stored store))
  | .error error store => fail (.file error) address ({ machine with store }.noted (.stored store))

/-- Ask the console. -/
def ask (request : κ → α × κ) : Eval κ α :=
  modifyGet fun machine =>
    let (answer, console) := request machine.console
    (answer, { machine with console })

/-- Tell the console that the program goes on. -/
def resume [Console κ] : Eval κ Unit :=
  modify fun machine => { machine with console := Console.resume machine.console }

/-- The program byte at an address, zero past the end of the store. -/
def byteAt (address : Address) : Eval κ UInt8 := do
  return (← get).store.byte address

/-- Evaluate, and change the machine afterwards however evaluation ended. -/
def always (change : Machine κ → Machine κ) (evaluation : Eval κ α) : Eval κ α := fun machine =>
  match evaluation machine with
  | .ok result machine => .ok result (change machine)
  | .error interrupt machine => .error interrupt (change machine)

/-- Evaluate, and release the roots that were registered meanwhile however
    evaluation ended. -/
def releasing (evaluation : Eval κ α) : Eval κ α := do
  let mark := (← get).memory.roots.size
  always (fun machine =>
    { machine with
      memory := { machine.memory with roots := Roots.release machine.memory.roots mark } })
    evaluation

/-- Evaluate one level deeper, and give the level back however evaluation ended. -/
def nested (evaluation : Eval κ α) : Eval κ α := do
  modify Machine.enter
  always Machine.leave evaluation

end Eval

/-- Where an expression has its value from, if it can be written back. -/
inductive Destination where
  | variable (place : VariableRef)
  | element (list : Handle) (index : Nat)
  /-- A byte of a string, read and written as a number. -/
  | character (string : Handle) (index : Nat)
  deriving DecidableEq

/-- What is known to keep the string or list that a destination lies in. -/
inductive Hold where
  /-- The expression under way registered it. -/
  | kept
  /-- Only an expression that was left since had registered it. -/
  | passedOn
  /-- Nothing is known to: only an expression that was left since had registered it,
      and more was evaluated after that, or no notice is taken of it. -/
  | loose
  deriving DecidableEq, Repr

namespace Hold

/-- The hold on a destination that is taken over from an expression that was
    left. -/
def handOver : Hold → Hold
  | .kept | .passedOn => .passedOn
  | .loose => .loose

/-- The hold after something else was evaluated. -/
def outlast : Hold → Hold
  | .kept => .kept
  | .passedOn | .loose => .loose

/-- What an access under this hold that memory refuses is put down to. -/
def cause : Hold → MemoryError → FaultCause
  | .kept | .passedOn => .memory
  | .loose => .loose

end Hold

/-- Consoles under which notice is taken of what keeps destinations. -/
class Heeding (κ : Type) where
  /-- What is known to keep the string or list that a destination was just selected
      in, which is registered. -/
  selected : Hold

/-- No notice is taken, unless a console is made for it. -/
instance (priority := low) Heeding.careless {κ : Type} : Heeding κ where
  selected := .loose

@[simp, grind =]
theorem Heeding.selected_careless {κ : Type} : Heeding.selected κ = .loose :=
  rfl

/-- What is known of an expression while it is evaluated. -/
structure Expression where
  /-- Its first byte; faults name this address. -/
  start : Address
  /-- The first byte that was not consumed. -/
  code : Address
  value : Value
  destination? : Option Destination
  /-- What is known to keep the destination. -/
  hold : Hold
  deriving DecidableEq

namespace Expression

/-- An expression nothing was consumed of. -/
def starting (start : Address) : Expression :=
  ⟨start, start, .missing, none, .loose⟩

end Expression

namespace Destination

variable {κ : Type} [Witness κ]

/-- The value at a destination. -/
def read (destination : Destination) (hold : Hold) (address : Address) : Eval κ Value :=
  match destination with
  | .variable place =>
    Eval.onMemory address <| Memory.look fun memory =>
      match memory.variableValue? place with
      | some value => .ok value
      | none => .error .dangling
  | .element list index =>
    Eval.onMemoryAs hold.cause address (Memory.look (·.element list index))
  | .character string index => do
    let byte ← Eval.onMemoryAs hold.cause address (Memory.look (·.byte string index))
    return .number byte.toFloat32

/-- Store a value at a destination. A byte of a string takes numbers only. -/
def write (destination : Destination) (hold : Hold) (value : Value) (address : Address) :
    Eval κ Unit :=
  match destination with
  | .variable place => Eval.onMemory address (Memory.setVariable place value)
  | .element list index =>
    Eval.onMemoryAs hold.cause address (Memory.setElement list index value)
  | .character string index =>
    match value with
    | .number number =>
      Eval.onMemoryAs hold.cause address
        (Memory.setByte string index (Memory.byteOfNumber number))
    | _ => Eval.raise .badOperandType address

end Destination

/-- What evaluation can do one level further in. -/
structure Inner (κ : Type) where
  /-- Evaluate an expression, taking only operators that bind tighter than the
      ceiling. -/
  expression : (start : Address) → (ceiling : Nat) → (isStatement : Bool) → Eval κ Expression
  /-- Run the statements from an address on. -/
  code : Address → Eval κ Value
  /-- Run the statements of a function body; none if no level is left for it. -/
  body? : Option (Address → Eval κ Value)

namespace Inner

/-- Every binary operator binds tighter than this. -/
def statementCeiling : Nat := 99

/-- No binary operator binds tighter than this. -/
def operandCeiling : Nat := 0

/-- Evaluate an expression with all its operators. -/
def argument {κ : Type} (inner : Inner κ) (start : Address) : Eval κ Expression :=
  inner.expression start statementCeiling false

end Inner

end PocketScript
