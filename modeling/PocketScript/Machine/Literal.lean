import PocketScript.Machine.State
import PocketScript.Number.Arithmetic
import PocketScript.Number.Reading

/-! # Literals and names

What an expression can start with, other than an operator, a parenthesis or a
function: numbers, names, characters, strings and lists.
-/

namespace PocketScript

namespace Store

/-- Whether a byte ends a line: a line feed, or the zero that ends the code. -/
def endsLine (byte : UInt8) : Bool :=
  byte == 0x0a || byte == 0

/-- The bytes from an address to the end of its line. -/
def lineFrom (store : Store) (address : Address) : List UInt8 :=
  store.scan endsLine address

/-- Where the line of an address ends. -/
def lineEnd (store : Store) (address : Address) : Address :=
  address + (store.lineFrom address).length

/-- A name is shorter than this. -/
def variableNameLimit : Nat := 15

/-- A number literal is shorter than this. -/
def numberLiteralLimit : Nat := 20

/-- The rest of a name, unless more than `room` bytes are left of it. -/
def restOfName? (store : Store) : (room : Nat) → Address → Option (List UInt8)
  | 0, _ => none
  | room + 1, address =>
    if Symbol.continuesName (store.byte address) then
      (restOfName? store room (address + 1)).map (store.byte address :: ·)
    else some []

/-- The name at an address, empty if there is none, unless it is too long. -/
def name? (store : Store) (address : Address) : Option (List UInt8) :=
  if Symbol.startsName (store.byte address) then
    (store.restOfName? (variableNameLimit - 1) (address + 1)).map (store.byte address :: ·)
  else some []

/-- Whether a byte goes on with a number literal; a minus sign does right after
    an exponent mark. -/
def continuesNumber (last byte : UInt8) : Bool :=
  Symbol.isDigit byte || byte == 0x2e || byte == 0x65 || (byte == 0x2d && last == 0x65)

/-- The rest of a number literal, unless it takes up all the room. -/
def restOfNumber? (store : Store) : (room : Nat) → (last : UInt8) → Address → Option (List UInt8)
  | 0, _, _ => none
  | room + 1, last, address =>
    let byte := store.byte address
    if continuesNumber last byte then
      (restOfNumber? store room byte (address + 1)).map (byte :: ·)
    else some []

/-- The byte that a byte after a backslash stands for: `N` is a line feed. -/
def unescape (byte : UInt8) : UInt8 :=
  if byte = 0x4e then 0x0a else byte

/-- The bytes of a string literal up to its closing quote, and the address after
    that; none if the code ends first. -/
def restOfString? (store : Store) : (count : Nat) → (escaped : Bool) → Address →
    Option (List UInt8 × Address)
  | 0, _, _ => none
  | count + 1, escaped, address =>
    let byte := store.byte address
    if byte = 0 then none
    else if escaped then
      (restOfString? store count false (address + 1)).map fun (rest, after) =>
        (unescape byte :: rest, after)
    else if byte = 0x5c then restOfString? store count true (address + 1)
    else if byte = 0x22 then some ([], address + 1)
    else
      (restOfString? store count false (address + 1)).map fun (rest, after) => (byte :: rest, after)

end Store

/-- The characters of bytes, one each. -/
def nameOfBytes (bytes : List UInt8) : String :=
  String.ofList (bytes.map fun byte => Char.ofNat byte.toNat)

namespace Machine

variable {κ : Type} [Witness κ]

/-- The name at an address and the address after it. -/
def readName (address : Address) : Eval κ (String × Address) := do
  match (← get).store.name? address with
  | none => Eval.raise .variableNameTooLong address
  | some [] => Eval.raise .badDestination address
  | some bytes => return (nameOfBytes bytes, address + bytes.length)

/-- A name: its variable, or nothing if it has none yet. -/
def readVariable (expression : Expression) : Eval κ Expression := do
  let (name, code) ← readName expression.start
  let memory := (← get).memory
  match memory.stack.find? name with
  | some place =>
    return { expression with
      code
      value := (memory.variableValue? place).getD .missing
      destination? := some (.variable place) }
  | none => return { expression with code }

/-- A number literal. -/
def readNumberLiteral (expression : Expression) : Eval κ Expression := do
  let store := (← get).store
  let first := store.byte expression.start
  match store.restOfNumber? (Store.numberLiteralLimit - 1) 0 (expression.start + 1) with
  | none => Eval.raise .numberLiteralTooLong expression.start
  | some rest =>
    return { expression with
      code := expression.start + 1 + rest.length
      value := .number (readNumber (first :: rest)) }

/-- A character literal: the number of its byte. -/
def readCharacterLiteral (expression : Expression) : Eval κ Expression := do
  let store := (← get).store
  let first := store.byte (expression.start + 1)
  let (character, close) :=
    if first = 0x5c then (Store.unescape (store.byte (expression.start + 2)), expression.start + 3)
    else (first, expression.start + 2)
  if store.byte close ≠ 0x27 then Eval.raise .missingApostrophe expression.start
  else return { expression with code := close + 1, value := .number character.toFloat32 }

/-- A string literal: a new string. -/
def readStringLiteral (expression : Expression) : Eval κ Expression := do
  let start := expression.start
  match (← get).store.restOfString? (Store.capacity - (start + 1)) false (start + 1) with
  | none => Eval.raise .missingQuotationMark start
  | some (bytes, code) =>
    let cell ← Eval.onMemory start (Memory.createString bytes)
    return { expression with code, value := .string cell }

/-- The elements of a list literal from an address on, put into the list from an
    index on; the address after the closing bracket. Every element consumes a
    byte, so `steps` suffices if it is the number of bytes left. -/
def readElements (inner : Inner κ) (start : Address) (list : Value) :
    (steps : Nat) → Address → (index : Nat) → Eval κ Address
  | 0, _, _ => throw .unfinished
  | steps + 1, address, index => do
    let byte ← Eval.byteAt address
    if Store.endsLine byte then Eval.raise .missingBracket start
    else if byte = 0x5d then return address + 1
    else
      let element ← inner.argument (if byte = 0x2c then address + 1 else address)
      if element.value.isMissing then Eval.raise .missingValue start
      else
        Eval.onMemory start (Memory.insertElement list index element.value)
        readElements inner start list steps element.code (index + 1)

/-- A list literal: a new list, which elements are added to one by one. -/
def readListLiteral (inner : Inner κ) (expression : Expression) : Eval κ Expression := do
  let start := expression.start
  let list := Value.list (← Eval.onMemory start (Memory.createList []))
  Eval.track list
  let code ← readElements inner start list (Store.capacity + 1) (start + 1) 0
  return { expression with code, value := list }

end Machine

end PocketScript
