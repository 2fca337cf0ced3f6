import PocketScript.Machine.Literal

/-! # Operators

The right operand of a binary operator is evaluated with the operator's own
precedence as its ceiling, so operators of one precedence group to the left. The
writing operators store through the destination of the left operand and leave
its value as it was.
-/

namespace PocketScript

namespace Machine

variable {κ : Type} [Witness κ]

/-- The result of a combination. Strings can be added, that is joined. -/
def combine (operator : Combination) (left right : Value) (start : Address) : Eval κ Value :=
  match left, right with
  | .missing, _ => Eval.raise .missingValue start
  | .number a, .number b =>
    match operator.apply a b with
    | some number => return .number number
    | none => Eval.raise .divideByZero start
  | .string a, .string b =>
    if operator = .add then Eval.onMemory start (Memory.concatenate a b)
    else Eval.raise .badOperandType start
  | _, _ => Eval.raise .badOperandType start

/-- The result of a comparison. Strings can be equal or not, by their bytes. -/
def compare (operator : Comparison) (left right : Value) (start : Address) : Eval κ Value :=
  match left, right with
  | .missing, _ => Eval.raise .missingValue start
  | .number a, .number b => return .number (ofTruth (operator.holds a b))
  | .string a, .string b =>
    let bytes (cell : Handle) : Eval κ (List UInt8) := Eval.viewMemory start (·.string cell)
    match operator with
    | .equal => return .number (ofTruth ((← bytes a) == (← bytes b)))
    | .unequal => return .number (ofTruth ((← bytes a) != (← bytes b)))
    | _ => Eval.raise .badOperandType start
  | _, _ => Eval.raise .badOperandType start

/-- Store a value through the left operand. A name without a variable gets one
    in the innermost scope. -/
def assign (expression : Expression) (value : Value) : Eval κ Expression := do
  let start := expression.start
  match expression.destination? with
  | some destination =>
    destination.write expression.hold value start
    return expression
  | none =>
    let (name, _) ← readName start
    let destination := .variable (← Eval.onMemory start (Memory.createVariable name .missing))
    destination.write .kept value start
    return { expression with destination? := some destination }

/-- Combine the value at the left operand's destination with another and store
    the result there. A string that is added to a string grows in place. -/
def update (operator : Combination) (expression : Expression) (right : Value) :
    Eval κ Expression := do
  let start := expression.start
  match expression.destination? with
  | none => Eval.raise .badDestination start
  | some destination =>
    let current ← destination.read expression.hold start
    match current, right with
    | .string _, .string _ =>
      if operator = .add then
        let length ← Eval.viewMemory start (·.length current)
        Eval.onMemory start (Memory.insertSequence current length right)
        return expression
      else Eval.raise .badOperandType start
    | .number a, .number b =>
      match operator.update a b with
      | some number =>
        destination.write expression.hold (.number number) start
        return expression
      | none => Eval.raise .divideByZero start
    | _, _ => Eval.raise .badOperandType start

/-- A binary operator and its right operand, after the left operand. -/
def applyBinary (inner : Inner κ) (operator : BinaryOperator) (left : Expression) :
    Eval κ Expression := do
  Eval.track left.value
  let right ← inner.expression (left.code + 1) operator.precedence false
  Eval.track right.value
  if right.value.isMissing then Eval.raise .missingValue left.start
  else
    let left := { left with code := right.code, hold := left.hold.outlast }
    match operator with
    | .assign => assign left right.value
    | .update operator => update operator left right.value
    | .combine operator =>
      let value ← combine operator left.value right.value left.start
      return { left with value, destination? := none }
    | .compare operator =>
      let value ← compare operator left.value right.value left.start
      return { left with value, destination? := none }

/-- An operator in front of its operand. A step yields what is stored after it,
    which for a byte of a string may have wrapped around. -/
def applyUnary (inner : Inner κ) (operator : UnaryOperator) (expression : Expression) :
    Eval κ Expression := do
  let start := expression.start
  let operand ← inner.expression (expression.code + 1) Inner.operandCeiling false
  let expression := { expression with code := operand.code }
  match operand.value with
  | .missing => Eval.raise .missingValue start
  | .number number =>
    match operator with
    | .negate => return { expression with value := .number (-number) }
    | .not => return { expression with value := .number (ofTruth (number == 0.0)) }
    | .complement => return { expression with value := .number (~~~truncate number).toFloat32 }
    | .step direction =>
      match operand.destination? with
      | none => Eval.raise .badDestination start
      | some destination =>
        let hold := operand.hold.handOver
        destination.write hold (.number (number + direction.amount)) start
        let value ← destination.read hold start
        return { expression with value, destination? := some destination, hold }
  | _ => Eval.raise .badOperandType start

/-- A step behind its operand, which keeps the value from before. -/
def applyStep (direction : Step) (expression : Expression) : Eval κ Expression := do
  let start := expression.start
  match expression.value with
  | .number number =>
    match expression.destination? with
    | none => Eval.raise .badDestination start
    | some destination =>
      destination.write expression.hold (.number (number + direction.amount)) start
      return { expression with code := expression.code + 1 }
  | _ => Eval.raise .badOperandType start

/-- An expression in parentheses, which can be written to like the one inside. -/
def readParenthesis (inner : Inner κ) (expression : Expression) : Eval κ Expression := do
  let start := expression.start
  let inside ← inner.argument (start + 1)
  if (← Eval.byteAt inside.code) ≠ 0x29 then Eval.raise .missingParenthesis start
  else return { inside with start, code := inside.code + 1, hold := inside.hold.handOver }

/-- The destination that an index selects in a sequence, if it has one there. -/
def select (sequence : Value) (index : Float32) (start : Address) : Eval κ Destination := do
  match sequence with
  | .string cell | .list cell =>
    let length ← Eval.viewMemory start (·.length sequence)
    let index := (truncate index).toInt
    if index < 0 ∨ (length : Int) ≤ index then Eval.raise .badIndex start
    else
      return match sequence with
        | .string _ => .character cell index.toNat
        | _ => .element cell index.toNat
  | _ => Eval.raise .badOperandType start

/-- An index behind a sequence. -/
def applyIndex [Heeding κ] (inner : Inner κ) (expression : Expression) : Eval κ Expression := do
  let start := expression.start
  let base := expression.value
  if base.isMissing then Eval.raise .missingValue start
  else
    let index ← inner.argument (expression.code + 1)
    if index.value.isMissing then Eval.raise .missingValue start
    else if (← Eval.byteAt index.code) ≠ 0x5d then Eval.raise .missingBracket start
    else
      match index.value with
      | .number number =>
        let destination ← select base number start
        Eval.track base
        let value ← destination.read .kept start
        return { expression with
          code := index.code + 1
          value
          destination? := some destination
          hold := Heeding.selected κ }
      | _ => Eval.raise .badOperandType start

end Machine

end PocketScript
