import PocketScript.Memory.Region
import PocketScript.Number.Arithmetic

/-! # Strings and lists

A string or list is two objects: the cell that values hold and the payload that
the cell stands for. A change of length moves the payload only if it leaves the
band between a quarter of its capacity and all of it; then the cell stands for
the payload at its new place, so values that hold the cell see the change.
-/

namespace PocketScript

namespace Memory

/-- How many bytes a string takes: its length, its bytes and a closing byte. -/
def stringSize (length : Nat) : Nat :=
  2 + length + 1

/-- How many bytes a list takes: its length and its values. -/
def listSize (length : Nat) : Nat :=
  2 + length * Value.size

/-- The capacity a string gets when it is moved. -/
def grownStringSize (length : Nat) : Nat :=
  2 + (length + 1) * 2

/-- The capacity a list gets when it is moved. -/
def grownListSize (length : Nat) : Nat :=
  2 + length * Value.size * 2

/-- The range from `start` to `finish`, if it lies in a sequence and starts
    before its end. The length is taken for one of 32 bits. -/
def checkRange (start finish : Int) (length : Nat) : Except MemoryError (Nat × Nat) :=
  let length := (Int32.ofNat length).toInt
  if start < 0 ∨ length ≤ start ∨ finish < 0 ∨ length < finish ∨ finish < start then .error .badIndex
  else .ok (start.toNat, finish.toNat)

/-- The place to insert at, if it lies in a sequence or at its end. -/
def checkPlace (index : Int) (length : Nat) : Except MemoryError Nat :=
  if index < 0 ∨ (length : Int) < index then .error .badIndex else .ok index.toNat

/-- The elements of a list from `start` up to `finish`. -/
def slice {α : Type} (items : List α) (start finish : Nat) : List α :=
  (items.take finish).drop start

/-- A list without its elements from `start` up to `finish`. -/
def withoutSlice {α : Type} (items : List α) (start finish : Nat) : List α :=
  items.take start ++ items.drop finish

/-- A list with others put in at a place. -/
def spliced {α : Type} (items : List α) (index : Nat) (others : List α) : List α :=
  items.take index ++ others ++ items.drop index

/-- The payload that a cell stands for. -/
def payload (memory : Memory) (cell : Handle) : Except MemoryError Payload :=
  match (memory.heap.target? cell).bind memory.heap.get? with
  | some object => .ok object.payload
  | none => .error .dangling

/-- The bytes of a string. -/
def string (memory : Memory) (cell : Handle) : Except MemoryError (List UInt8) := do
  match ← memory.payload cell with
  | .bytes bytes => .ok bytes
  | _ => .error .badType

/-- The values of a list. -/
def list (memory : Memory) (cell : Handle) : Except MemoryError (List Value) := do
  match ← memory.payload cell with
  | .values values => .ok values
  | _ => .error .badType

/-- How many bytes the payload of a cell may fill. -/
def capacity (memory : Memory) (cell : Handle) : Except MemoryError Nat :=
  match (memory.heap.target? cell).bind memory.heap.get? with
  | some object => .ok object.size
  | none => .error .dangling

/-- The length of a string or list. -/
def length (memory : Memory) : Value → Except MemoryError Nat
  | .string cell => (memory.string cell).map List.length
  | .list cell => (memory.list cell).map List.length
  | _ => .error .badType

/-- A byte of a string. -/
def byte (memory : Memory) (cell : Handle) (index : Nat) : Except MemoryError UInt8 := do
  match (← memory.string cell)[index]? with
  | some byte => .ok byte
  | none => .error .badIndex

/-- An element of a list. -/
def element (memory : Memory) (cell : Handle) (index : Nat) : Except MemoryError Value := do
  match (← memory.list cell)[index]? with
  | some value => .ok value
  | none => .error .badIndex

/-- Look something up in memory. -/
def look {α : Type} (view : Memory → Except MemoryError α) : MemoryM α := fun memory =>
  match view memory with
  | .ok result => .ok result memory
  | .error error => .error error memory

/-- Replace the payload that a cell stands for. -/
def setPayload (cell : Handle) (payload : Payload) : MemoryM Unit :=
  modify fun memory =>
    match memory.heap.target? cell with
    | some object => { memory with heap := memory.heap.modify object ({ · with payload }) }
    | none => memory

/-- Let a cell stand for an object. -/
def setTarget (cell object : Handle) : MemoryM Unit :=
  modify fun memory => { memory with heap := memory.heap.setTarget cell object }

/-- Create a cell and the object it stands for. If only the object finds no
    place, the cell stays behind. -/
def createSequence (size : Nat) (payload : Payload) : MemoryM Handle := do
  let cell ← allocate pointerSize (.target .dangling)
  let object ← allocate size payload
  setTarget cell object
  return cell

/-- Create a string. -/
def createString (bytes : List UInt8) : MemoryM Handle :=
  createSequence (stringSize bytes.length) (.bytes bytes)

/-- Create a list. -/
def createList (values : List Value) : MemoryM Handle :=
  createSequence (listSize values.length) (.values values)

/-- Make room for `needed` bytes: a payload that is too small, or more than four
    times too large, gets the capacity `grown`. -/
def resizePayload (cell : Handle) (needed grown : Nat) : MemoryM Unit := do
  let capacity ← look (·.capacity cell)
  if capacity < needed ∨ needed < capacity / 4 then
    match (← get).heap.target? cell with
    | some object => setTarget cell (← resize object grown)
    | none => throw .dangling

/-- Make room for a string of a length. -/
def resizeString (cell : Handle) (length : Nat) : MemoryM Unit :=
  resizePayload cell (stringSize length) (grownStringSize length)

/-- Make room for a list of a length. -/
def resizeList (cell : Handle) (length : Nat) : MemoryM Unit :=
  resizePayload cell (listSize length) (grownListSize length)

/-- Lift a check that needs no memory. -/
def require {α : Type} (result : Except MemoryError α) : MemoryM α :=
  look fun _ => result

/-- The byte that a number becomes in a string: the lower eight bits of its
    truncation. -/
def byteOfNumber (number : Float32) : UInt8 :=
  (truncate number).toUInt32.toUInt8

/-- Replace a byte of a string. -/
def setByte (cell : Handle) (index : Nat) (byte : UInt8) : MemoryM Unit := do
  let bytes ← look (·.string cell)
  if index < bytes.length then setPayload cell (.bytes (bytes.set index byte))
  else throw .badIndex

/-- Replace an element of a list. -/
def setElement (cell : Handle) (index : Nat) (value : Value) : MemoryM Unit := do
  let values ← look (·.list cell)
  if index < values.length then setPayload cell (.values (values.set index value))
  else throw .badIndex

/-- Put bytes into a string. -/
def insertBytes (cell : Handle) (index : Int) (part : List UInt8) : MemoryM Unit := do
  let bytes ← look (·.string cell)
  let index ← require (checkPlace index bytes.length)
  resizeString cell (bytes.length + part.length)
  setPayload cell (.bytes (spliced bytes index part))

/-- Put values into a list. -/
def insertValues (cell : Handle) (index : Int) (part : List Value) : MemoryM Unit := do
  let values ← look (·.list cell)
  let index ← require (checkPlace index values.length)
  resizeList cell (values.length + part.length)
  setPayload cell (.values (spliced values index part))

/-- Put one element into a sequence. Strings take a number, as a byte. -/
def insertElement (sequence : Value) (index : Int) (element : Value) : MemoryM Unit :=
  match sequence, element with
  | .string cell, .number number => insertBytes cell index [byteOfNumber number]
  | .list cell, element => insertValues cell index [element]
  | _, _ => throw .badType

/-- Put the contents of one sequence into another of the same kind. -/
def insertSequence (sequence : Value) (index : Int) (other : Value) : MemoryM Unit :=
  match sequence, other with
  | .string cell, .string source => do insertBytes cell index (← look (·.string source))
  | .list cell, .list source => do insertValues cell index (← look (·.list source))
  | _, _ => throw .badType

/-- Remove the elements from `start` up to `finish`. -/
def removeSlice (sequence : Value) (start finish : Int) : MemoryM Unit :=
  match sequence with
  | .string cell => do
    let bytes ← look (·.string cell)
    let (start, finish) ← require (checkRange start finish bytes.length)
    setPayload cell (.bytes (withoutSlice bytes start finish))
    resizeString cell (bytes.length - (finish - start))
  | .list cell => do
    let values ← look (·.list cell)
    let (start, finish) ← require (checkRange start finish values.length)
    setPayload cell (.values (withoutSlice values start finish))
    resizeList cell (values.length - (finish - start))
  | _ => throw .badType

/-- A new sequence of the elements from `start` up to `finish`. -/
def copySlice (sequence : Value) (start finish : Int) : MemoryM Value :=
  match sequence with
  | .string cell => do
    let bytes ← look (·.string cell)
    let (start, finish) ← require (checkRange start finish bytes.length)
    return .string (← createString (slice bytes start finish))
  | .list cell => do
    let values ← look (·.list cell)
    let (start, finish) ← require (checkRange start finish values.length)
    return .list (← createList (slice values start finish))
  | _ => throw .badType

/-- A new sequence of the same elements. -/
def copySequence (sequence : Value) : MemoryM Value :=
  match sequence with
  | .string cell => do return .string (← createString (← look (·.string cell)))
  | .list cell => do return .list (← createList (← look (·.list cell)))
  | _ => throw .badType

/-- A new string of two others, one after the other. -/
def concatenate (left right : Handle) : MemoryM Value := do
  let front ← look (·.string left)
  let back ← look (·.string right)
  return .string (← createString (front ++ back))

end Memory

end PocketScript
