import PocketScript.Machine.Literal

/-! # Blocks

Blocks are not found ahead of time. Opening one records what happens to the
statements up to its end; a statement that is skipped still opens and closes
blocks, so that each end finds its own beginning. A loop goes back by the
address of its header.
-/

namespace PocketScript

namespace Machine

variable {κ : Type} [Witness κ]

/-- Take an arm of a chain that was skipped up to here if its condition holds.
    While the condition is evaluated, the block counts as running. -/
def tryArm (inner : Inner κ) (expression : Expression) : Eval κ Expression := do
  let start := expression.start
  let setAction (action : BranchAction) (machine : Machine κ) : Machine κ :=
    let memory := machine.memory
    { machine with memory := { memory with stack := memory.stack.setAction action } }
  modify (setAction .run)
  let condition ← Eval.always (setAction .ignoreSoft) (inner.argument (start + 1))
  match condition.value with
  | .missing => Eval.raise .missingValue start
  | .number number =>
    if isTrue number then modify (setAction .run)
    return { expression with code := condition.code }
  | _ => Eval.raise .badArgumentType start

/-- Follow the block structure of a statement that is skipped, and go to the end
    of its line. -/
def skip (inner : Inner κ) (expression : Expression) : Eval κ Expression := do
  let start := expression.start
  let action := (← get).memory.stack.action
  let expression ←
    match Symbol.builtin? (← Eval.byteAt start) with
    | some (.control .whenTrue) | some (.control .loop) | some (.control .define) => do
      Eval.onMemory start (Memory.pushBranch .ignoreHard 0)
      pure expression
    | some (.control .otherwiseWhen) =>
      if action = .ignoreSoft then tryArm inner expression else pure expression
    | some (.control .otherwise) => do
      if action = .ignoreSoft then Eval.onStack fun stack => ((), stack.setAction .run)
      pure expression
    | some (.control .close) => do
      if ← Eval.onStack ScopeStack.popBranch then pure expression
      else Eval.raise .badEndStatement start
    | _ => pure expression
  return { expression with code := (← get).store.lineEnd expression.code }

/-- Open a block whose condition was evaluated. -/
def openBlock (start : Address) (condition : Value) (action : Bool → BranchAction)
    (address : Address) : Eval κ Unit :=
  match condition with
  | .number number =>
    let action := action (isTrue number)
    Eval.onMemory start (Memory.pushBranch action (if action = .loop then address else 0))
  | _ => Eval.raise .badArgumentType start

/-- End the innermost block. The end of a loop goes back to its header; the end
    of a function body leaves the function. -/
def closeBlock (expression : Expression) : Eval κ Expression := do
  let top := (← get).memory.stack.branch?
  if ← Eval.onStack ScopeStack.popBranch then
    match top with
    | some ⟨.loop, address⟩ => return { expression with code := address }
    | _ => return expression
  else if (← get).memory.stack.isGlobal then Eval.raise .badEndStatement expression.start
  else throw (.answer .missing)

/-- Bind the name of a definition to it, and skip its body. -/
def define (expression : Expression) : Eval κ Expression := do
  let start := expression.start
  let (name, _) ← readName (start + 1)
  let place ←
    match (← get).memory.stack.find? name with
    | some place => pure place
    | none => Eval.onMemory start (Memory.createVariable name .missing)
  (Destination.variable place).write .kept (.function start) start
  Eval.onMemory start (Memory.pushBranch .ignoreHard 0)
  return expression

/-- A control function with its evaluated argument. An arm that is reached while
    statements run comes after the arm that was taken, so it is skipped. -/
def control (function : Control) (argument : Value) (expression : Expression) :
    Eval κ Expression := do
  let start := expression.start
  match function with
  | .leave => throw (.answer .missing)
  | .answer => throw (.answer argument)
  | .quit => throw .quit
  | .whenTrue =>
    openBlock start argument (fun holds => if holds then .run else .ignoreSoft) start
    return expression
  | .loop =>
    openBlock start argument (fun holds => if holds then .loop else .ignoreHard) start
    return expression
  | .otherwiseWhen | .otherwise =>
    Eval.onStack fun stack => ((), stack.setAction .ignoreHard)
    return expression
  | .leaveLoop =>
    if ← Eval.onStack ScopeStack.breakLoop then return expression
    else Eval.raise .badBreakStatement start
  | .nextRound =>
    match ← Eval.onStack ScopeStack.continueLoop with
    | some address => return { expression with code := address }
    | none => Eval.raise .badContinueStatement start
  | .close => closeBlock expression
  | .define => define expression

end Machine

end PocketScript
