import PocketScript.Memory.Heap
import PocketScript.Memory.Root
import PocketScript.Memory.Scope

/-! # Memory

One range of bytes with the scopes at its lower and the heap at its upper end.
Each side grows only as far as the other side's boundary.
-/

namespace PocketScript

/-- Scopes, heap and roots. -/
structure Memory where
  size : Nat
  heap : Heap
  stack : ScopeStack
  roots : Roots
  deriving DecidableEq

/-- An operation on memory that may be refused. What it did before it was
    refused stays done. -/
abbrev MemoryM := EStateM MemoryError Memory

namespace Memory

/-- How many bytes memory has unless said otherwise. -/
def defaultSize : Nat := 1200

/-- How many bytes the payload of a cell takes. -/
def pointerSize : Nat := 2

/-- Memory with nothing in it. -/
def empty (size : Nat) : Memory :=
  ⟨size, .empty size, .empty, #[]⟩

/-- Remove every object, scope and root. -/
def reset (memory : Memory) : Memory :=
  { memory with heap := memory.heap.reset, stack := .empty, roots := #[] }

/-- How many bytes lie between the scopes and the heap. -/
def freeBytes (memory : Memory) : Nat :=
  memory.heap.boundary - memory.stack.boundary

/-- Whether there is no object, no scope and no root. -/
def isClear (memory : Memory) : Bool :=
  memory.heap.highest.isNone && memory.stack.scopes.isEmpty && memory.roots.isEmpty &&
    memory.freeBytes == memory.size

/-- Run a heap operation, given the first byte above the scopes. -/
def onHeap {α : Type} (operation : Heap → (floor : Nat) → Except MemoryError (α × Heap)) :
    MemoryM α := fun memory =>
  match operation memory.heap memory.stack.boundary with
  | .ok (result, heap) => .ok result { memory with heap }
  | .error error => .error error memory

/-- Run a scope operation, given the lowest byte of the heap. -/
def onStack {α : Type}
    (operation : ScopeStack → (ceiling : Nat) → Except MemoryError (α × ScopeStack)) :
    MemoryM α := fun memory =>
  match operation memory.stack memory.heap.boundary with
  | .ok (result, stack) => .ok result { memory with stack }
  | .error error => .error error memory

/-- Place a new object on the heap. -/
def allocate (size : Nat) (payload : Payload) : MemoryM Handle :=
  onHeap fun heap floor => heap.allocate size payload floor

/-- Change how many bytes an object may fill. -/
def resize (handle : Handle) (size : Nat) : MemoryM Handle :=
  onHeap fun heap floor => heap.resize handle size floor

/-- Open a scope. -/
def pushScope : MemoryM Nat :=
  onStack ScopeStack.pushScope

/-- Add a variable to the innermost scope. -/
def createVariable (name : String) (value : Value) : MemoryM VariableRef :=
  onStack fun stack ceiling => stack.createVariable name value ceiling

/-- Open a block in the innermost scope. -/
def pushBranch (action : BranchAction) (address : Address) : MemoryM Unit :=
  onStack fun stack ceiling =>
    (stack.pushBranch action address ceiling).map fun stack => ((), stack)

/-- The value of the variable at a place. -/
def variableValue? (memory : Memory) (place : VariableRef) : Option Value :=
  (memory.stack.variableAt? place).map (·.value)

/-- Store a value in the variable at a place. -/
def setVariable (place : VariableRef) (value : Value) : MemoryM Unit := fun memory =>
  match memory.stack.variableAt? place with
  | some _ => .ok () { memory with stack := memory.stack.setVariable place value }
  | none => .error .dangling memory

end Memory

end PocketScript
