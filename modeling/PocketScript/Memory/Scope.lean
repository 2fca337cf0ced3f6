import PocketScript.Memory.Error
import PocketScript.Value

/-! # Scopes

One scope for each function call under way, the global scope first. A scope
holds variables and the open blocks of its code. Scopes occupy bytes at the
lower end of memory, each where the one before it ends; variables and block
records only add to the innermost scope, and everything a scope used is given
back when it is closed. No scope may grow into the heap.
-/

namespace PocketScript

/-- What happens to the statements of a block. -/
inductive BranchAction where
  | run
  /-- Skipped, but a later arm may still run. -/
  | ignoreSoft
  /-- Skipped up to the end of the block. -/
  | ignoreHard
  /-- Run, and at the end go back to the loop header. -/
  | loop
  deriving DecidableEq, Repr

/-- Whether statements are skipped. -/
def BranchAction.isIgnored : BranchAction → Bool
  | .ignoreSoft | .ignoreHard => true
  | .run | .loop => false

/-- An open block. The address is that of the loop header, if it is a loop. -/
structure Branch where
  action : BranchAction
  address : Address
  deriving DecidableEq, Repr

/-- A name with its value. -/
structure Variable where
  name : String
  value : Value
  deriving DecidableEq

/-- The place of a variable: its scope and its index there. -/
structure VariableRef where
  scope : Nat
  index : Nat
  deriving DecidableEq, Repr

/-- A scope. -/
structure Scope where
  /-- The first byte of the scope. -/
  base : Nat
  /-- How many bytes its variables and block records take. -/
  used : Nat
  /-- The variables, the oldest first. -/
  bindings : Array Variable
  /-- The open blocks, the innermost first. -/
  branches : List Branch
  /-- How many block records were allocated; those above the open blocks are
      used again. -/
  records : Nat
  deriving DecidableEq

/-- The scopes, the global one first. -/
structure ScopeStack where
  scopes : Array Scope
  deriving DecidableEq

namespace Scope

/-- How many bytes a scope takes by itself. -/
def headerSize : Nat := 6

/-- How many bytes a block record takes. -/
def branchSize : Nat := 9

/-- How many bytes a variable of this name takes: a link, its value and its name
    with the byte that closes it. -/
def variableSize (name : String) : Nat :=
  2 + Value.size + name.utf8ByteSize + 1

/-- A scope that starts at a byte. -/
def opened (base : Nat) : Scope :=
  ⟨base, 0, #[], [], 0⟩

/-- The first byte after a scope. -/
def top (scope : Scope) : Nat :=
  scope.base + headerSize + scope.used

/-- The latest variable of a name among the first `count`. -/
def findBelow (scope : Scope) (name : String) : (count : Nat) → Option Nat
  | 0 => none
  | index + 1 =>
    if scope.bindings[index]?.any (·.name == name) then some index
    else findBelow scope name index

/-- The index of the latest variable of a name. -/
def find? (scope : Scope) (name : String) : Option Nat :=
  scope.findBelow name scope.bindings.size

/-- Skip everything up to and including the innermost loop, if there is one. -/
def breakLoop : List Branch → List Branch × Bool
  | [] => ([], false)
  | branch :: outer =>
    let skipped := { branch with action := .ignoreHard }
    if branch.action = .loop then (skipped :: outer, true)
    else
      let (outer, found) := breakLoop outer
      (skipped :: outer, found)

/-- Close blocks down to and including the innermost loop and give the address
    of its header. The outermost block is never closed, so a loop there stays
    open. -/
def continueLoop : List Branch → List Branch × Option Address
  | [] => ([], none)
  | [branch] => ([branch], if branch.action = .loop then some branch.address else none)
  | branch :: next :: outer =>
    if branch.action = .loop then (next :: outer, some branch.address)
    else continueLoop (next :: outer)

end Scope

namespace ScopeStack

/-- No scope at all. -/
def empty : ScopeStack := ⟨#[]⟩

/-- How many scopes are open. -/
def depth (stack : ScopeStack) : Nat :=
  stack.scopes.size

/-- The innermost scope. -/
def innermost? (stack : ScopeStack) : Option Scope :=
  stack.scopes.back?

/-- The index of the innermost scope. -/
def current? (stack : ScopeStack) : Option Nat :=
  if stack.scopes.isEmpty then none else some (stack.scopes.size - 1)

/-- Whether no function call is under way. -/
def isGlobal (stack : ScopeStack) : Bool :=
  stack.scopes.size ≤ 1

/-- The first byte after the innermost scope. -/
def boundary (stack : ScopeStack) : Nat :=
  match stack.innermost? with
  | some scope => scope.top
  | none => 0

/-- Replace the innermost scope. -/
def setInnermost (stack : ScopeStack) (scope : Scope) : ScopeStack :=
  ⟨stack.scopes.pop.push scope⟩

/-- Open a scope below `ceiling`, the lowest byte of the heap. -/
def pushScope (stack : ScopeStack) (ceiling : Nat) : Except MemoryError (Nat × ScopeStack) :=
  let base := stack.boundary
  if ceiling < base + Scope.headerSize then .error .collision
  else .ok (stack.scopes.size, ⟨stack.scopes.push (Scope.opened base)⟩)

/-- Close the innermost scope. -/
def popScope (stack : ScopeStack) : ScopeStack :=
  ⟨stack.scopes.pop⟩

/-- The variable that a name means: the latest of the innermost scope, else the
    latest of the global one. -/
def find? (stack : ScopeStack) (name : String) : Option VariableRef :=
  match stack.current? with
  | none => none
  | some current =>
    let inScope (scope : Nat) : Option VariableRef :=
      (stack.scopes[scope]?.bind (·.find? name)).map (⟨scope, ·⟩)
    (inScope current).or (inScope 0)

/-- Add a variable to the innermost scope. It hides an earlier one of its name. -/
def createVariable (stack : ScopeStack) (name : String) (value : Value) (ceiling : Nat) :
    Except MemoryError (VariableRef × ScopeStack) :=
  match stack.innermost? with
  | none => .error .collision
  | some scope =>
    let size := Scope.variableSize name
    if ceiling < scope.top + size then .error .collision
    else
      .ok (⟨stack.scopes.size - 1, scope.bindings.size⟩,
        stack.setInnermost
          { scope with used := scope.used + size, bindings := scope.bindings.push ⟨name, value⟩ })

/-- The variable at a place. -/
def variableAt? (stack : ScopeStack) (place : VariableRef) : Option Variable :=
  stack.scopes[place.scope]?.bind (·.bindings[place.index]?)

/-- Store a value in the variable at a place. -/
def setVariable (stack : ScopeStack) (place : VariableRef) (value : Value) : ScopeStack :=
  ⟨stack.scopes.modify place.scope fun scope =>
    { scope with bindings := scope.bindings.modify place.index ({ · with value }) }⟩

/-- Open a block in the innermost scope. It takes the record of an earlier block
    at its depth, or a new one. -/
def pushBranch (stack : ScopeStack) (action : BranchAction) (address : Address) (ceiling : Nat) :
    Except MemoryError ScopeStack :=
  match stack.innermost? with
  | none => .error .collision
  | some scope =>
    let branches := ⟨action, address⟩ :: scope.branches
    if scope.branches.length < scope.records then .ok (stack.setInnermost { scope with branches })
    else if ceiling < scope.top + Scope.branchSize then .error .collision
    else
      .ok (stack.setInnermost
        { scope with
          branches
          used := scope.used + Scope.branchSize
          records := scope.records + 1 })

/-- Close the innermost block. The outermost block of a scope stays open. -/
def popBranch (stack : ScopeStack) : Bool × ScopeStack :=
  match stack.innermost? with
  | some scope =>
    match scope.branches with
    | _ :: next :: outer => (true, stack.setInnermost { scope with branches := next :: outer })
    | _ => (false, stack)
  | none => (false, stack)

/-- The innermost open block. -/
def branch? (stack : ScopeStack) : Option Branch :=
  stack.innermost?.bind (·.branches.head?)

/-- What happens to statements now; code outside any block runs. -/
def action (stack : ScopeStack) : BranchAction :=
  match stack.branch? with
  | some branch => branch.action
  | none => .run

/-- Change the blocks of the innermost scope. -/
def modifyBranches (stack : ScopeStack) (change : List Branch → List Branch) : ScopeStack :=
  match stack.innermost? with
  | some scope => stack.setInnermost { scope with branches := change scope.branches }
  | none => stack

/-- Change what happens to the statements of the innermost block. -/
def setAction (stack : ScopeStack) (action : BranchAction) : ScopeStack :=
  stack.modifyBranches (·.modifyHead ({ · with action }))

/-- Leave the innermost loop: everything up to its end is skipped. -/
def breakLoop (stack : ScopeStack) : Bool × ScopeStack :=
  match stack.innermost? with
  | some scope =>
    let (branches, found) := Scope.breakLoop scope.branches
    (found, stack.setInnermost { scope with branches })
  | none => (false, stack)

/-- Go back to the header of the innermost loop, closing it and the blocks in
    it. -/
def continueLoop (stack : ScopeStack) : Option Address × ScopeStack :=
  match stack.innermost? with
  | some scope =>
    let (branches, address) := Scope.continueLoop scope.branches
    (address, stack.setInnermost { scope with branches })
  | none => (none, stack)

end ScopeStack

end PocketScript
