/-! # The byte store

Programs and files live in one flat store of bytes. Reading past the end gives
zeros and writing past it is lost, so no address is ever out of range.
-/

namespace PocketScript

/-- The place of a byte in the store. -/
abbrev Address := Nat

/-- A store of fixed size. -/
structure Store where
  bytes : Vector UInt8 32768
  deriving DecidableEq

namespace Store

/-- How many bytes a store holds. -/
def capacity : Nat := 32768

/-- The value of every byte before anything is written. -/
def erasedByte : UInt8 := 255

/-- A store that nothing was ever written to. -/
def erased : Store :=
  ⟨Vector.replicate 32768 erasedByte⟩

/-- A store that starts with the given bytes: what is missing is erased and what
    is too much is left out. -/
def ofImage (image : Array UInt8) : Store :=
  ⟨Vector.ofFn fun address => image.getD address erasedByte⟩

/-- The byte at an address, zero past the end. -/
def byte (store : Store) (address : Address) : UInt8 :=
  store.bytes[address]?.getD 0

/-- The bytes from an address on. -/
def read (store : Store) (address : Address) (count : Nat) : List UInt8 :=
  (List.range count).map fun offset => store.byte (address + offset)

/-- Replace the bytes from an address on. -/
def write (store : Store) (address : Address) : List UInt8 → Store
  | [] => store
  | byte :: rest => write ⟨store.bytes.setIfInBounds address byte⟩ (address + 1) rest

/-- The number in two bytes, the lower one first. -/
def readWord (store : Store) (address : Address) : Nat :=
  (store.byte address).toNat + 256 * (store.byte (address + 1)).toNat

/-- Write the lower sixteen bits of a number, the lower byte first. -/
def writeWord (store : Store) (address : Address) (number : Nat) : Store :=
  store.write address [UInt8.ofNat number, UInt8.ofNat (number / 256)]

/-- The bytes from an address up to the first that `stop` holds of, looking at
    `count` bytes at most. -/
def scanWithin (store : Store) (stop : UInt8 → Bool) : (count : Nat) → Address → List UInt8
  | 0, _ => []
  | count + 1, address =>
    if stop (store.byte address) then []
    else store.byte address :: scanWithin store stop count (address + 1)

/-- The bytes from an address up to the first that `stop` holds of or to the end
    of the store. -/
def scan (store : Store) (stop : UInt8 → Bool) (address : Address) : List UInt8 :=
  store.scanWithin stop (capacity - address) address

end Store

end PocketScript
