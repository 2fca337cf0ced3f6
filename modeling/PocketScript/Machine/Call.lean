import PocketScript.Machine.Literal

/-! # Function calls

The value of a function is the address of its definition. A call evaluates one
argument for each parameter, opens a scope with the parameters bound and runs
the body until it answers or ends.
-/

namespace PocketScript

namespace Store

/-- How many parameters the definition at an address has: the commas on its
    line. The first name of the line is the function's own. -/
def parameterCount (store : Store) (header : Address) : Nat :=
  (store.lineFrom (header + 1)).count 0x2c

/-- Whether a byte ends a name on the line of a definition. -/
def endsParameter (byte : UInt8) : Bool :=
  byte == 0x2c || endsLine byte

/-- The bytes of a name on the line of a definition, and the address after it
    and the comma that may follow. -/
def parameterAt (store : Store) (address : Address) : List UInt8 × Address :=
  let name := store.scan endsParameter address
  let after := address + name.length
  (name, if store.byte after = 0x2c then after + 1 else after)

end Store

namespace Machine

variable {κ : Type} [Witness κ]

/-- Evaluate as many arguments as a function has parameters; the comma after
    each may be left out. -/
def readArguments (inner : Inner κ) (start : Address) (array : Nat) :
    (count : Nat) → Address → Eval κ (List Value × Address)
  | 0, address => return ([], address)
  | count + 1, address => do
    let argument ← inner.argument address
    if argument.value.isMissing then Eval.raise .missingValue start
    else
      Eval.modifyRoots (·.trackIn array argument.value)
      let after := if (← Eval.byteAt argument.code) = 0x2c then argument.code + 1 else argument.code
      let (rest, after) ← readArguments inner start array count after
      return (argument.value :: rest, after)

/-- Bind the names from an address on to values; the address after them. -/
def bindParameters (start : Address) : List Value → Address → Eval κ Address
  | [], address => return address
  | value :: rest, address => do
    let (bytes, after) := (← get).store.parameterAt address
    let name := nameOfBytes bytes
    if Store.variableNameLimit ≤ name.utf8ByteSize then Eval.raise .variableNameTooLong start
    else
      let _ ← Eval.onMemory start (Memory.createVariable name value)
      bindParameters start rest after

/-- Run the body of the function defined at `header` in a scope of its own. -/
def runBody (body : Address → Eval κ Value) (header : Address) (arguments : List Value)
    (start : Address) : Eval κ Value := do
  let scope ← Eval.onMemory start Memory.pushScope
  let popScope (machine : Machine κ) : Machine κ :=
    { machine with memory := { machine.memory with stack := machine.memory.stack.popScope } }
  Eval.always popScope do
    Eval.onMemory start (Memory.pushBranch .run 0)
    Eval.modifyRoots (·.push (.scope scope))
    let (_, first) := (← get).store.parameterAt (header + 1)
    let code ← bindParameters start arguments first
    body code

/-- A call behind the value of a function. -/
def applyCall (inner : Inner κ) (expression : Expression) : Eval κ Expression := do
  let start := expression.start
  match expression.value with
  | .missing => Eval.raise .missingValue start
  | .function header =>
    let count := (← get).store.parameterCount header
    let mark := (← get).memory.roots.size
    let array ← Eval.trackValues
    let (arguments, code) ← readArguments inner start array count (expression.code + 1)
    match inner.body? with
    | none => Eval.raise .expressionTooComplex start
    | some body =>
      let release (machine : Machine κ) : Machine κ :=
        { machine with
          memory := { machine.memory with roots := Roots.release machine.memory.roots mark } }
      let value ← Eval.always release (Eval.nested (runBody body header arguments start))
      Eval.track value
      return { expression with code, value, hold := expression.hold.outlast }
  | _ => Eval.raise .badOperandType start

end Machine

end PocketScript
