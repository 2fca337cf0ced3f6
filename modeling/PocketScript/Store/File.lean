import PocketScript.Store

/-! # Files

The store is divided into slots of equal size, each holding at most one file:

    offset 0    whether there is a file: 1 if so
    offset 1    the name, closed by a zero byte, at most 15 bytes
    offset 17   the size of the data in two bytes
    offset 19   the data, closed by a zero byte, at most 1000 bytes

A file is named by the address of its slot. Names are compared as bytes.
-/

namespace PocketScript

/-- Why a file operation is refused. -/
inductive FileError where
  | missingFile
  | nameTooLong
  | fileExists
  | storageFull
  | badIndex
  | badAmount
  deriving DecidableEq, Repr

namespace Store

/-- The size of a slot. -/
def slotSize : Nat := 1024

/-- How many slots a store has. -/
def slotCount : Nat := capacity / slotSize

/-- The most bytes a name may have. -/
def nameLimit : Nat := 15

/-- The most bytes the data of a file may have. -/
def fileLimit : Nat := 1000

/-- Marks a slot that holds a file. -/
def presentMark : UInt8 := 1

/-- Where the name starts in a slot. -/
def nameOffset : Nat := 1

/-- Where the size starts in a slot. -/
def sizeOffset : Nat := 17

/-- Where the data starts in a slot. -/
def dataOffset : Nat := 19

end Store

/-- The text of a file error. -/
def FileError.message : FileError → String
  | .missingFile => "file does not exist"
  | .nameTooLong => "name longer than 15 characters"
  | .fileExists => "file already exists"
  | .storageFull => "no free file slot"
  | .badIndex => "read position outside the file"
  | .badAmount => "amount outside the file's size limit"

/-- An operation on the store that may be refused. What it did before it was
    refused stays done. -/
abbrev StoreM := EStateM FileError Store

namespace Store

/-- The addresses of all slots, in order. -/
def slots : List Address :=
  (List.range slotCount).map (· * slotSize)

/-- Whether a slot holds a file. -/
def isPresent (store : Store) (slot : Address) : Bool :=
  store.byte slot == presentMark

/-- The name in a slot; one that is not closed ends where the size starts. -/
def fileName (store : Store) (slot : Address) : List UInt8 :=
  (store.read (slot + nameOffset) (nameLimit + 1)).takeWhile (· != 0)

/-- The size in a slot. -/
def fileSize (store : Store) (slot : Address) : Nat :=
  store.readWord (slot + sizeOffset)

/-- Where the data of a slot starts; programs run from here. -/
def dataAddress (slot : Address) : Address :=
  slot + dataOffset

/-- The slot of the file with a name. -/
def find? (store : Store) (name : List UInt8) : Option Address :=
  slots.find? fun slot => store.isPresent slot && store.fileName slot == name

/-- The slots that hold files, in order. -/
def files (store : Store) : List Address :=
  slots.filter store.isPresent

/-- The first slot without a file. -/
def freeSlot? (store : Store) : Option Address :=
  slots.find? fun slot => !store.isPresent slot

/-- Write a name and the byte that closes it. -/
def writeName (store : Store) (slot : Address) (name : List UInt8) : Store :=
  store.write (slot + nameOffset) (name ++ [0])

/-- Create an empty file in the first free slot. -/
def create (name : List UInt8) : StoreM Address := do
  if nameLimit < name.length then throw .nameTooLong
  let store ← get
  if (store.find? name).isSome then throw .fileExists
  match store.freeSlot? with
  | none => throw .storageFull
  | some slot =>
    let store := (store.write slot [presentMark]).writeName slot name
    let store := store.writeWord (slot + sizeOffset) 0
    set (store.write (dataAddress slot) [0])
    return slot

/-- Delete the file with a name; its bytes stay until the slot is used again. -/
def delete (name : List UInt8) : StoreM Unit := do
  match (← get).find? name with
  | none => throw .missingFile
  | some slot => modify (·.write slot [erasedByte])

/-- Give a file another name. -/
def rename (name newName : List UInt8) : StoreM Unit := do
  let store ← get
  match store.find? name with
  | none => throw .missingFile
  | some slot =>
    if nameLimit < newName.length then throw .nameTooLong
    if (store.find? newName).isSome then throw .fileExists
    set (store.writeName slot newName)

/-- The `amount` bytes of a file from `index` on. -/
def readData (store : Store) (slot : Address) (index amount : Int) :
    Except FileError (List UInt8) :=
  let size : Int := store.fileSize slot
  if index < 0 ∨ size ≤ index then .error .badIndex
  else if amount < 0 ∨ size - index < amount then .error .badAmount
  else .ok (store.read (dataAddress slot + index.toNat) amount.toNat)

/-- Replace the data of a file. -/
def writeData (slot : Address) (data : List UInt8) : StoreM Unit := do
  if fileLimit < data.length then throw .badAmount
  modify fun store =>
    (store.writeWord (slot + sizeOffset) data.length).write (dataAddress slot) (data ++ [0])

/-- Store a program under a name, in place of a file that has it. If the program
    is too long, a new file of its name is created all the same, and is empty. -/
def install (name code : List UInt8) : StoreM Address := do
  let slot ←
    match (← get).find? name with
    | some slot => pure slot
    | none => create name
  writeData slot code
  return slot

end Store

end PocketScript
