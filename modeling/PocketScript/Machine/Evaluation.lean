import PocketScript.Machine.Builtin
import PocketScript.Machine.Operator

/-! # Evaluation

Expressions are evaluated in one pass over the program bytes: first what an
expression starts with, then whatever binds to it from behind, as long as it
binds tighter than the ceiling. There is no other reading of the program, and
statements are expressions too.

Two things bound evaluation. Nesting is limited by the configuration: the machine
counts how deep it is, `evaluate` takes the number of levels that are left up to the
limit, and an expression one level further in, or a function body, has fewer.
Statements are limited by the `steps` that `runCode` takes, which only a loop can
use up.
-/

namespace PocketScript

namespace Machine

variable {κ : Type} [Console κ] [Witness κ]

/-- What an expression starts with. -/
def readPrimary (inner : Inner κ) (expression : Expression) (isStatement : Bool) :
    Eval κ Expression := do
  let byte ← Eval.byteAt expression.start
  if Symbol.isDigit byte || byte == 0x2e then readNumberLiteral expression
  else if Symbol.startsName byte then readVariable expression
  else if byte = 0x27 then readCharacterLiteral expression
  else if byte = 0x22 then readStringLiteral expression
  else if byte = 0x5b then readListLiteral inner expression
  else if byte = 0x28 then readParenthesis inner expression
  else
    match Symbol.builtin? byte, UnaryOperator.ofByte? byte with
    | some builtin, _ => applyBuiltin inner builtin expression isStatement
    | none, some operator => applyUnary inner operator expression
    | none, none => Eval.raise .badStartOfExpression expression.start

/-- What binds to an expression from behind: steps, indices and calls, and
    binary operators below the ceiling. Each consumes a byte, so `steps`
    suffices if it is more than the number of bytes left. -/
def readRest [Heeding κ] (inner : Inner κ) (ceiling : Nat) : (steps : Nat) → Expression → Eval κ Expression
  | 0, _ => throw .unfinished
  | steps + 1, expression => do
    Eval.track expression.value
    let byte ← Eval.byteAt expression.code
    match Step.ofByte? byte with
    | some direction => readRest inner ceiling steps (← applyStep direction expression)
    | none =>
      if byte = 0x5b then readRest inner ceiling steps (← applyIndex inner expression)
      else if byte = 0x3a ∨ byte = 0x3b then
        readRest inner ceiling steps (← applyCall inner expression)
      else
        match BinaryOperator.ofByte? byte with
        | some operator =>
          if operator.precedence < ceiling then
            readRest inner ceiling steps (← applyBinary inner operator expression)
          else return expression
        | none => return expression

/-- One expression. In a block that is skipped, only its structure is followed. -/
def frame [Heeding κ] (inner : Inner κ) (start : Address) (ceiling : Nat) (isStatement : Bool) :
    Eval κ Expression := do
  let expression := Expression.starting start
  if (← get).memory.stack.action.isIgnored then skip inner expression
  else
    let primary ← readPrimary inner expression isStatement
    readRest inner ceiling (Store.capacity + 1) primary

/-- Remove what no root reaches. -/
def collect : Eval κ Unit :=
  modify fun machine =>
    { machine with memory := machine.memory.collect.2, recentStatements := 0 }

/-- What happens between two statements: a collection if one is due, and the
    question whether the user wants to stop. -/
def betweenStatements : Eval κ Unit := do
  modify fun machine => { machine with recentStatements := machine.recentStatements + 1 }
  let machine ← get
  if machine.configuration.collectAfterAllocations < machine.memory.heap.recentAllocations ∨
      machine.configuration.collectAfterStatements < machine.recentStatements then
    collect
  if ← Eval.ask Console.escapes then throw .quit

/-- Evaluate a statement; if it answers, the code it is part of ends with the
    answer, and otherwise goes on with `next`. -/
def orAnswer (statement : Eval κ Expression) (next : Expression → Eval κ Value) : Eval κ Value :=
  fun machine =>
    match statement machine with
    | .ok expression machine => next expression machine
    | .error (.answer value) machine => .ok value machine
    | .error interrupt machine => .error interrupt machine

/-- Run the statements from an address on, until the code ends or one of them
    answers. -/
def runCode (statement : Address → Eval κ Expression) : (steps : Nat) → Address → Eval κ Value
  | 0, _ => throw .unfinished
  | steps + 1, address => do
    let byte ← Eval.byteAt address
    if byte = 0x0a then runCode statement steps (address + 1)
    else if byte = 0 then return .missing
    else
      orAnswer (statement address) fun expression => do
        betweenStatements
        runCode statement steps expression.code

/-- An expression one level deeper, given how many levels of nesting are left. A
    function body takes up a level of its own. -/
def evaluate [Heeding κ] (steps : Nat) : (levels : Nat) → (start : Address) → (ceiling : Nat) →
    (isStatement : Bool) → Eval κ Expression
  | 0, start, _, _ => Eval.raise .expressionTooComplex start
  | levels + 1, start, ceiling, isStatement =>
    let code (evaluate : Address → Nat → Bool → Eval κ Expression) : Address → Eval κ Value :=
      runCode (fun address => evaluate address Inner.statementCeiling true) steps
    let inner : Inner κ :=
      { expression := evaluate steps levels
        code := code (evaluate steps levels)
        body? :=
          match levels with
          | 0 => none
          | deeper + 1 => some (code (evaluate steps deeper)) }
    Eval.nested (Eval.releasing (frame inner start ceiling isStatement))

end Machine

end PocketScript
