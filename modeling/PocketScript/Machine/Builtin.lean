import PocketScript.Machine.Block
import PocketScript.Machine.Call
import PocketScript.Number.Writing
import PocketScript.Text.Utf8

/-! # Built-in functions

A built-in function is one byte followed by its arguments, which commas divide.
The arguments are evaluated from left to right and registered as roots before
the function runs.
-/

namespace PocketScript

namespace Machine

variable {κ : Type} [Witness κ]

/-- The number of an argument that has to be one. -/
def numberOf (value : Value) (start : Address) : Eval κ Float32 :=
  match value with
  | .number number => return number
  | _ => Eval.raise .badArgumentType start

/-- The integer of an argument that has to be a number. -/
def indexOf (value : Value) (start : Address) : Eval κ Int := do
  return (truncate (← numberOf value start)).toInt

/-- The bytes of an argument that has to be a string. -/
def bytesOf (value : Value) (start : Address) : Eval κ (List UInt8) :=
  match value with
  | .string cell => Eval.viewMemory start (·.string cell)
  | _ => Eval.raise .badArgumentType start

/-- A random draw. -/
def draw : Eval κ Nat :=
  modifyGet fun machine =>
    let (draw, draws) := machine.draws.draw
    (draw, { machine with draws })

/-- A random whole number between two others, both included. Sums and
    differences wrap at 32 bits. -/
def randomBetween (lowest highest : Int32) (start : Address) : Eval κ Float32 := do
  let span := highest - lowest + 1
  if span ≤ 0 then Eval.raise .badValue start
  else return (lowest + Int32.ofNat (← draw) % span).toFloat32

/-- The functions on numbers. -/
def applyMath (function : MathFunction) (arguments : List Value) (start : Address) :
    Eval κ Value := do
  let argument (index : Nat) : Eval κ Float32 := numberOf (arguments.getD index .missing) start
  match function with
  | .random => return .number (ofCount ((← draw) % 10000) / 10000.0)
  | .randomInteger =>
    let lowest ← argument 0
    let highest ← argument 1
    return .number (← randomBetween (truncate lowest) (truncate highest) start)
  | .absolute => return .number (← argument 0).abs
  | .round => return .number (floor ((← argument 0) + 0.5))
  | .floor => return .number (floor (← argument 0))
  | .ceiling => return .number (ceiling (← argument 0))
  | .sine => return .number (← argument 0).sin
  | .cosine => return .number (← argument 0).cos
  | .tangent => return .number (← argument 0).tan
  | .squareRoot =>
    let x ← argument 0
    if x < 0.0 then Eval.raise .badValue start else return .number x.sqrt
  | .power =>
    let x ← argument 0
    let exponent ← argument 1
    if x < 0.0 ∧ floor exponent != exponent then Eval.raise .badValue start
    else return .number (x.pow exponent)
  | .logarithm =>
    let x ← argument 0
    let base ← argument 1
    if x ≤ 0.0 ∨ base ≤ 0.0 then Eval.raise .badValue start
    else return .number (x.log / base.log)

/-- A new string of a text. -/
def stringOf (text : String) (start : Address) : Eval κ Value := do
  return .string (← Eval.onMemory start (Memory.createString (Text.toBytes text)))

/-- The conversions and the functions on sequences. -/
def applyValue (function : ValueFunction) (arguments : List Value) (start : Address) :
    Eval κ Value := do
  let argument (index : Nat) : Value := arguments.getD index .missing
  let sequence := argument 0
  match function with
  | .number =>
    match sequence with
    | .number _ => return sequence
    | .string _ => return .number (readNumber (← bytesOf sequence start))
    | _ => Eval.raise .badArgumentType start
  | .string =>
    match sequence with
    | .number number => stringOf (writeNumber number) start
    | .string _ => return sequence
    | _ => Eval.raise .badArgumentType start
  | .type => return .number (ofCount sequence.typeNumber)
  | .length => return .number (ofCount (← Eval.viewMemory start (·.length sequence)))
  | .copy => Eval.onMemory start (Memory.copySequence sequence)
  | .insert =>
    let index ← indexOf (argument 1) start
    Eval.onMemory start (Memory.insertElement sequence index (argument 2))
    return .missing
  | .remove =>
    let index ← indexOf (argument 1) start
    Eval.onMemory start (Memory.removeSlice sequence index (index + 1))
    return .missing
  | .slice =>
    let first ← indexOf (argument 1) start
    let finish ← indexOf (argument 2) start
    Eval.onMemory start (Memory.copySlice sequence first finish)
  | .insertSlice =>
    let index ← indexOf (argument 1) start
    Eval.onMemory start (Memory.insertSequence sequence index (argument 2))
    return .missing
  | .removeSlice =>
    let first ← indexOf (argument 1) start
    let finish ← indexOf (argument 2) start
    Eval.onMemory start (Memory.removeSlice sequence first finish)
    return .missing
  | .sameReference =>
    match sequence, argument 1 with
    | .string a, .string b | .list a, .list b => return .number (ofTruth (a == b))
    | _, _ => Eval.raise .badArgumentType start

/-- The text that is shown for a value: of a number or a string only. -/
def shownText (value : Value) (start : Address) : Eval κ String :=
  match value with
  | .number number => return writeNumber number
  | .string _ => return Text.ofBytes (← bytesOf value start)
  | _ => Eval.raise .badArgumentType start

/-- Show a menu with a string as its title and the elements of a list as its
    options, of which there has to be one. -/
def showMenu [Console κ] (title options : Value) (start : Address) : Eval κ Value := do
  let title ←
    match title with
    | .string _ => shownText title start
    | _ => Eval.raise .badArgumentType start
  match options with
  | .list cell =>
    let values ← Eval.viewMemory start (·.list cell)
    if values.isEmpty then Eval.raise .badArgumentType start
    else
      let labels ← values.mapM (shownText · start)
      match ← Eval.ask (Console.choose · title labels) with
      | .selected index =>
        Eval.resume
        return .number (ofCount index)
      | .cancelled | .failed => throw .quit
  | _ => Eval.raise .badArgumentType start

/-- The most characters of a text that is asked for. -/
def askedTextLimit : Nat := 100

/-- The most characters of a number that is asked for. -/
def askedNumberLimit : Nat := 20

/-- The functions on the console. A user who stops ends the program. -/
def applyConsole [Console κ] (function : ConsoleFunction) (arguments : List Value)
    (start : Address) : Eval κ Value := do
  let argument (index : Nat) : Value := arguments.getD index .missing
  match function with
  | .print =>
    let text ← shownText (argument 0) start
    if ← Eval.ask (Console.print · text) then
      Eval.resume
      return .missing
    else throw .quit
  | .askText =>
    match ← Eval.ask (Console.askText · askedTextLimit) with
    | some text =>
      Eval.resume
      stringOf text start
    | none => throw .quit
  | .askNumber =>
    match ← Eval.ask (Console.askNumber · askedNumberLimit) with
    | some number =>
      Eval.resume
      return .number number
    | none => throw .quit
  | .menu => showMenu (argument 0) (argument 1) start

/-- The functions on files. Two of them work without a file of the given name. -/
def applyFile (inner : Inner κ) (function : FileFunction) (arguments : List Value)
    (start : Address) : Eval κ Value := do
  let argument (index : Nat) : Value := arguments.getD index .missing
  let name ← bytesOf (argument 0) start
  match function, (← get).store.find? name with
  | .exists, slot => return .number (ofTruth slot.isSome)
  | .create, _ =>
    let _ ← Eval.onStore start (Store.create name)
    return .missing
  | _, none => Eval.raise .missingFile start
  | .size, some slot => return .number (ofCount ((← get).store.fileSize slot))
  | .delete, some _ =>
    Eval.onStore start (Store.delete name)
    return .missing
  | .rename, some _ =>
    let newName ← bytesOf (argument 1) start
    Eval.onStore start (Store.rename name newName)
    return .missing
  | .read, some slot =>
    let index ← indexOf (argument 1) start
    let amount ← indexOf (argument 2) start
    match (← get).store.readData slot index amount with
    | .error error => Eval.fail (.file error) start
    | .ok data => return .string (← Eval.onMemory start (Memory.createString data))
  | .write, some slot =>
    let data ← bytesOf (argument 1) start
    Eval.onStore start (Store.writeData slot data)
    return .missing
  | .run, some slot =>
    let _ ← inner.code (Store.dataAddress slot)
    return .missing

/-- Evaluate `count` arguments with a comma between any two. Only a definition
    may have arguments without a value, its names. -/
def readFunctionArguments (inner : Inner κ) (start : Address) (array : Nat)
    (isDefinition : Bool) : (count : Nat) → Address → Eval κ (List Value × Address)
  | 0, address => return ([], address)
  | count + 1, address => do
    let argument ← inner.argument address
    if argument.value.isMissing && !isDefinition then Eval.raise .missingValue start
    else
      Eval.modifyRoots (·.trackIn array argument.value)
      if count = 0 then return ([argument.value], argument.code)
      else if (← Eval.byteAt argument.code) ≠ 0x2c then Eval.raise .missingComma start
      else
        let (rest, after) ←
          readFunctionArguments inner start array isDefinition count (argument.code + 1)
        return (argument.value :: rest, after)

/-- A built-in function and its arguments. -/
def applyBuiltin [Console κ] (inner : Inner κ) (builtin : Builtin) (expression : Expression)
    (isStatement : Bool) : Eval κ Expression := do
  let start := expression.start
  let count := builtin.arity?.getD ((← get).store.parameterCount start + 1)
  let array ← Eval.trackValues
  let (arguments, code) ←
    readFunctionArguments inner start array (builtin == .control .define) count (start + 1)
  let expression := { expression with code }
  match builtin with
  | .control function =>
    if isStatement then control function (arguments.headD .missing) expression
    else Eval.raise .notTopLevel start
  | .math function => return { expression with value := (← applyMath function arguments start) }
  | .value function => return { expression with value := (← applyValue function arguments start) }
  | .console function =>
    return { expression with value := (← applyConsole function arguments start) }
  | .file function =>
    return { expression with value := (← applyFile inner function arguments start) }

end Machine

end PocketScript
