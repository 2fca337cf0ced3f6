import PocketScript.Memory.Error
import PocketScript.Value

/-! # The heap

Strings, lists and the cells that point at them occupy ranges of bytes at the
upper end of memory, a header in front of each. Objects live in slots and are
linked to their neighbours, the highest address first. A new object goes to the
top of the first gap, from above, that is wide enough, and otherwise right below
the lowest object; it may not reach down into the bytes that the scopes use.
-/

namespace PocketScript

/-- What an object holds. -/
inductive Payload where
  /-- The object that a cell stands for at present. -/
  | target (object : Handle)
  | bytes (bytes : List UInt8)
  | values (values : List Value)
  deriving DecidableEq, Inhabited

/-- The kinds of objects. -/
inductive ObjectKind where
  | cell
  | string
  | list
  deriving DecidableEq, Repr

/-- The kind of object that holds a payload. -/
def Payload.kind : Payload → ObjectKind
  | .target _ => .cell
  | .bytes _ => .string
  | .values _ => .list

/-- The object that the payload of a cell stands for. -/
def Payload.target? : Payload → Option Handle
  | .target object => some object
  | _ => none

/-- The values of a list. -/
def Payload.values? : Payload → Option (List Value)
  | .values items => some items
  | _ => none

/-- An object in memory. -/
structure HeapObject where
  /-- The first byte of the payload; the header is right below. -/
  address : Nat
  /-- How many bytes the payload may fill. -/
  size : Nat
  /-- Whether the collection under way has reached the object. -/
  reachable : Bool
  payload : Payload
  deriving DecidableEq, Inhabited

/-- An object with the slots of its neighbours. -/
structure HeapNode where
  object : HeapObject
  /-- The slot of the object at the next higher address. -/
  above : Option Nat
  /-- The slot of the object at the next lower address. -/
  below : Option Nat
  deriving DecidableEq

/-- A place for one object at a time. -/
structure HeapSlot where
  /-- How often the slot was given up, modulo 2³². -/
  generation : UInt32
  node? : Option HeapNode
  deriving DecidableEq

/-- What a sweep removed. -/
structure Swept where
  objects : Nat
  bytes : Nat
  deriving DecidableEq, Repr

/-- The heap. -/
structure Heap where
  /-- The end of memory, from where the heap grows down. -/
  limit : Nat
  slots : Array HeapSlot
  /-- The slots without an object, the one given up last in front. -/
  vacant : List Nat
  /-- The slot of the object at the highest address. -/
  highest : Option Nat
  /-- The slot of the object at the lowest address. -/
  lowest : Option Nat
  /-- How many objects were allocated since the last sweep. -/
  recentAllocations : Nat
  /-- How many objects were ever allocated. -/
  allocations : Nat
  deriving DecidableEq

namespace HeapObject

/-- How many bytes the header in front of an object takes. -/
def headerSize : Nat := 8

/-- How many bytes an object takes with its header. -/
def footprint (object : HeapObject) : Nat :=
  object.size + headerSize

/-- The first byte of the header. -/
def bottom (object : HeapObject) : Nat :=
  object.address - headerSize

/-- The first byte after an object. -/
def top (object : HeapObject) : Nat :=
  object.address + object.size

/-- How many bytes objects take with their headers. -/
def footprints : List HeapObject → Nat
  | [] => 0
  | object :: rest => object.footprint + footprints rest

end HeapObject

/-- Where an object can be placed: between which neighbours, and its address. -/
structure Gap where
  above : Option Nat
  below : Option Nat
  address : Nat
  deriving DecidableEq, Repr

namespace Heap

/-- A heap without objects in memory of a given size. -/
def empty (limit : Nat) : Heap :=
  ⟨limit, #[], [], none, none, 0, 0⟩

/-- The object in a slot, with its neighbours. -/
def node? (heap : Heap) (slot : Nat) : Option HeapNode :=
  heap.slots[slot]?.bind (·.node?)

/-- The slot and the object that a handle names. -/
def named? (heap : Heap) : Handle → Option (Nat × HeapNode)
  | .dangling => none
  | .entry slot generation =>
    (heap.slots[slot]?.filter (·.generation == generation)).bind fun entry =>
      entry.node?.map (slot, ·)

/-- The object that a handle names. -/
def get? (heap : Heap) (handle : Handle) : Option HeapObject :=
  (heap.named? handle).map (·.2.object)

/-- Whether a handle names an object. -/
def contains (heap : Heap) (handle : Handle) : Bool :=
  (heap.get? handle).isSome

/-- The handle of the object in a slot. -/
def handleOf (heap : Heap) (slot : Nat) : Handle :=
  .entry slot ((heap.slots[slot]?.map (·.generation)).getD 0)

/-- The lowest byte in use, or the end of memory. -/
def boundary (heap : Heap) : Nat :=
  match heap.lowest.bind heap.node? with
  | some node => node.object.bottom
  | none => heap.limit

/-- The slots of the objects from one on downwards. At most `count` are visited,
    which is enough if it is the number of slots. -/
def slotsFrom (heap : Heap) : (count : Nat) → Option Nat → List Nat
  | 0, _ | _, none => []
  | count + 1, some slot =>
    match heap.node? slot with
    | some node => slot :: heap.slotsFrom count node.below
    | none => []

/-- The slots of all objects, the one at the highest address first. -/
def order (heap : Heap) : List Nat :=
  heap.slotsFrom heap.slots.size heap.highest

/-- All objects with their handles, the one at the highest address first. -/
def objects (heap : Heap) : List (Handle × HeapObject) :=
  heap.order.filterMap fun slot => (heap.node? slot).map fun node => (heap.handleOf slot, node.object)

/-- How many bytes the objects take, headers included. -/
def usedBytes (heap : Heap) : Nat :=
  HeapObject.footprints (heap.objects.map (·.2))

/-- Change the object in a slot and its links. -/
def modifyNode (heap : Heap) (slot : Nat) (change : HeapNode → HeapNode) : Heap :=
  { heap with
    slots := heap.slots.modify slot fun entry => { entry with node? := entry.node?.map change } }

/-- Change the object that a handle names. -/
def modify (heap : Heap) (handle : Handle) (change : HeapObject → HeapObject) : Heap :=
  match heap.named? handle with
  | some (slot, _) => heap.modifyNode slot fun node => { node with object := change node.object }
  | none => heap

/-- Link an object to the one below it; if there is no such object, the one
    below is the highest. -/
def setBelow (heap : Heap) (slot? below : Option Nat) : Heap :=
  match slot?.filter fun slot => (heap.node? slot).isSome with
  | some slot => heap.modifyNode slot ({ · with below })
  | none => { heap with highest := below }

/-- Link an object to the one above it; if there is no such object, the one
    above is the lowest. -/
def setAbove (heap : Heap) (slot? above : Option Nat) : Heap :=
  match slot?.filter fun slot => (heap.node? slot).isSome with
  | some slot => heap.modifyNode slot ({ · with above })
  | none => { heap with lowest := above }

/-- Put an object into the slot given up last, or into a new one. -/
def occupy (heap : Heap) (node : HeapNode) : Nat × Heap :=
  match heap.vacant with
  | slot :: vacant =>
    (slot,
      { heap with slots := heap.slots.modify slot ({ · with node? := some node }), vacant })
  | [] => (heap.slots.size, { heap with slots := heap.slots.push ⟨0, some node⟩ })

/-- Give a slot up. It enters the next generation. -/
def vacate (heap : Heap) (slot : Nat) : Heap :=
  { heap with
    slots := heap.slots.modify slot fun entry => ⟨entry.generation + 1, none⟩
    vacant := slot :: heap.vacant }

/-- The byte above which the space under an object, or under the end of memory,
    starts. -/
def spaceUnder (heap : Heap) : Option Nat → Except MemoryError Nat
  | none => .ok heap.limit
  | some slot =>
    match heap.node? slot with
    | some node => .ok node.object.bottom
    | none => .error .dangling

/-- The first gap from `above` on downwards for `size` bytes and a header; the
    space below the lowest object counts as a gap of any width, without its
    header. At most `count` gaps are looked at, which is enough if it is more
    than the number of slots. -/
def findGap (heap : Heap) (size : Nat) :
    (count : Nat) → (above below : Option Nat) → Except MemoryError Gap
  | 0, _, _ => .error .dangling
  | count + 1, above, below => do
    let top ← heap.spaceUnder above
    match below with
    | none => if top < size then .error .collision else .ok ⟨above, none, top - size⟩
    | some slot =>
      match heap.node? slot with
      | none => .error .dangling
      | some node =>
        if size + HeapObject.headerSize ≤ top - node.object.top then
          .ok ⟨above, some slot, top - size⟩
        else heap.findGap size count (some slot) node.below

/-- Count one more allocation. -/
def counted (heap : Heap) : Heap :=
  { heap with
    recentAllocations := heap.recentAllocations + 1
    allocations := heap.allocations + 1 }

/-- Put an object into a gap. -/
def place (heap : Heap) (gap : Gap) (object : HeapObject) : Handle × Heap :=
  let (slot, heap) := heap.occupy ⟨object, gap.above, gap.below⟩
  let heap := ((heap.setBelow gap.above (some slot)).setAbove gap.below (some slot)).counted
  (heap.handleOf slot, heap)

/-- Place a new object of `size` bytes above `floor`, the first byte that the
    scopes do not use. -/
def allocate (heap : Heap) (size : Nat) (payload : Payload) (floor : Nat) :
    Except MemoryError (Handle × Heap) := do
  let gap ← heap.findGap size (heap.slots.size + 1) none heap.highest
  if gap.address < HeapObject.headerSize ∨ gap.address - HeapObject.headerSize < floor then
    .error .collision
  else .ok (heap.place gap ⟨gap.address, size, false, payload⟩)

/-- Remove the object that a handle names. -/
def deallocate (heap : Heap) (handle : Handle) : Heap :=
  match heap.named? handle with
  | some (slot, node) =>
    ((heap.vacate slot).setBelow node.above node.below).setAbove node.below node.above
  | none => heap

/-- An empty payload of the same kind; a cell stands for `handle` until then. -/
def placeholder (payload : Payload) (handle : Handle) : Payload :=
  match payload with
  | .target _ => .target handle
  | .bytes _ => .bytes []
  | .values _ => .values []

/-- Change how many bytes an object may fill. An object shrinks where it is; to
    grow, it moves to a new place and gets a new handle. -/
def resize (heap : Heap) (handle : Handle) (size floor : Nat) :
    Except MemoryError (Handle × Heap) :=
  match heap.get? handle with
  | none => .error .dangling
  | some object =>
    if size ≤ object.size then .ok (handle, heap.modify handle ({ · with size }))
    else do
      let (moved, heap) ← heap.allocate size (placeholder object.payload handle) floor
      pure (moved, (heap.deallocate handle).modify moved ({ · with payload := object.payload }))

/-- The object that a cell stands for. -/
def target? (heap : Heap) (cell : Handle) : Option Handle :=
  (heap.get? cell).bind (·.payload.target?)

/-- Let a cell stand for an object. -/
def setTarget (heap : Heap) (cell object : Handle) : Heap :=
  heap.modify cell ({ · with payload := .target object })

/-- Set or clear the mark of the object in a slot. -/
def setMark (heap : Heap) (reachable : Bool) (slot : Nat) : Heap :=
  heap.modifyNode slot fun node => { node with object := { node.object with reachable } }

/-- Forget what earlier collections reached. -/
def clearMarks (heap : Heap) : Heap :=
  heap.order.foldl (setMark · false) heap

/-- Whether a handle names an object that is marked. -/
def isMarked (heap : Heap) (handle : Handle) : Bool :=
  (heap.get? handle).any (·.reachable)

/-- Whether a handle names an object that is not marked yet. -/
def canMark (heap : Heap) (handle : Handle) : Bool :=
  (heap.get? handle).any (!·.reachable)

/-- Mark the object that a handle names. -/
def mark (heap : Heap) (handle : Handle) : Heap :=
  heap.modify handle ({ · with reachable := true })

/-- Remove objects, counting those that were still there. -/
def remove (heap : Heap) : List (Handle × HeapObject) → Swept × Heap
  | [] => (⟨0, 0⟩, heap)
  | (handle, object) :: rest =>
    if heap.contains handle then
      let (swept, heap) := (heap.deallocate handle).remove rest
      (⟨swept.objects + 1, swept.bytes + object.footprint⟩, heap)
    else heap.remove rest

/-- Remove every object that is not marked. -/
def sweep (heap : Heap) : Swept × Heap :=
  let (swept, heap) := heap.remove (heap.objects.filter fun (_, object) => !object.reachable)
  (swept, { heap with recentAllocations := 0 })

/-- The slots that hold an object. -/
def occupied (heap : Heap) : List Nat :=
  (List.range heap.slots.size).filter fun slot => (heap.node? slot).isSome

/-- Remove every object. -/
def reset (heap : Heap) : Heap :=
  { heap.occupied.foldl vacate heap with
    highest := none
    lowest := none
    recentAllocations := 0 }

/-- How many objects are not marked. -/
def unmarked (heap : Heap) : Nat :=
  heap.slots.toList.countP fun entry => entry.node?.any (!·.object.reachable)

/-- How many values the list in a slot holds. -/
def listLength (entry : HeapSlot) : Nat :=
  ((entry.node?.bind (·.object.payload.values?)).getD []).length

/-- How many values the longest list holds. -/
def longest (heap : Heap) : Nat :=
  heap.slots.toList.foldr (fun entry longest => max (listLength entry) longest) 0

end Heap

end PocketScript
