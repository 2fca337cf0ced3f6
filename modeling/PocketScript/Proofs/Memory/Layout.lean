import PocketScript.Proofs.Memory.Partition

/-! # The layout of memory

Whatever operations are performed on memory, and in whatever order, no two
objects overlap, the links visit every object, highest to lowest and back, the
scopes follow one another, and the scopes and the heap stay apart.
-/

namespace PocketScript

/-- What can be done to memory. -/
inductive MemoryOperation where
  | pushScope
  | popScope
  | pushBranch (action : BranchAction) (address : Address)
  | popBranch
  | setAction (action : BranchAction)
  | breakLoop
  | continueLoop
  | createVariable (name : String) (value : Value)
  | setVariable (place : VariableRef) (value : Value)
  | allocate (size : Nat) (payload : Payload)
  | resize (handle : Handle) (size : Nat)
  | deallocate (handle : Handle)
  | createString (bytes : List UInt8)
  | createList (values : List Value)
  | resizeString (cell : Handle) (length : Nat)
  | resizeList (cell : Handle) (length : Nat)
  | setByte (cell : Handle) (index : Nat) (byte : UInt8)
  | setElement (cell : Handle) (index : Nat) (value : Value)
  | insertElement (sequence : Value) (index : Int) (element : Value)
  | insertSequence (sequence : Value) (index : Int) (other : Value)
  | removeSlice (sequence : Value) (start finish : Int)
  | copySlice (sequence : Value) (start finish : Int)
  | copySequence (sequence : Value)
  | concatenate (left right : Handle)
  /-- Register and release roots in any way. -/
  | setRoots (roots : Roots)
  | collect
  | reset

namespace Memory

/-- Memory after an operation, also one that is refused. -/
def after {α : Type} (operation : MemoryM α) (memory : Memory) : Memory :=
  match operation memory with
  | .ok _ memory | .error _ memory => memory

/-- Memory after one operation. What the operation returns is left out. -/
def perform (memory : Memory) : MemoryOperation → Memory
  | .pushScope => memory.after pushScope
  | .popScope => { memory with stack := memory.stack.popScope }
  | .pushBranch action address => memory.after (pushBranch action address)
  | .popBranch => { memory with stack := memory.stack.popBranch.2 }
  | .setAction action => { memory with stack := memory.stack.setAction action }
  | .breakLoop => { memory with stack := memory.stack.breakLoop.2 }
  | .continueLoop => { memory with stack := memory.stack.continueLoop.2 }
  | .createVariable name value => memory.after (createVariable name value)
  | .setVariable place value => memory.after (setVariable place value)
  | .allocate size payload => memory.after (allocate size payload)
  | .resize handle size => memory.after (resize handle size)
  | .deallocate handle => { memory with heap := memory.heap.deallocate handle }
  | .createString bytes => memory.after (createString bytes)
  | .createList values => memory.after (createList values)
  | .resizeString cell length => memory.after (resizeString cell length)
  | .resizeList cell length => memory.after (resizeList cell length)
  | .setByte cell index byte => memory.after (setByte cell index byte)
  | .setElement cell index value => memory.after (setElement cell index value)
  | .insertElement sequence index element => memory.after (insertElement sequence index element)
  | .insertSequence sequence index other => memory.after (insertSequence sequence index other)
  | .removeSlice sequence start finish => memory.after (removeSlice sequence start finish)
  | .copySlice sequence start finish => memory.after (copySlice sequence start finish)
  | .copySequence sequence => memory.after (copySequence sequence)
  | .concatenate left right => memory.after (concatenate left right)
  | .setRoots roots => { memory with roots }
  | .collect => memory.collect.2
  | .reset => memory.reset

/-- Memory of a size after some operations, the first one first. -/
def performAll (size : Nat) (operations : List MemoryOperation) : Memory :=
  operations.foldl perform (.empty size)

/-- How the objects and the scopes lie in memory of a size. -/
structure LaidOut (size : Nat) (memory : Memory) : Prop where
  /-- The bytes of two objects, each from its header on, have none in common. -/
  disjoint : ∀ handle object handle' object', memory.heap.get? handle = some object →
    memory.heap.get? handle' = some object' → handle ≠ handle' →
    object.top ≤ object'.bottom ∨ object'.top ≤ object.bottom
  within : ∀ handle object, memory.heap.get? handle = some object →
    HeapObject.headerSize ≤ object.address ∧ memory.heap.boundary ≤ object.bottom ∧
      object.top ≤ size
  downwards : memory.heap.Walk (·.below) memory.heap.highest memory.heap.order
  upwards : memory.heap.Walk (·.above) memory.heap.lowest memory.heap.order.reverse
  /-- The slots visited are the occupied ones. -/
  visited : ∀ slot, slot ∈ memory.heap.order ↔ (memory.heap.node? slot).isSome
  descending : (memory.heap.order.filterMap memory.heap.object?).Pairwise
    fun upper lower => lower.address < upper.address
  contiguous : ∀ (index : Nat) (lower upper : Scope), memory.stack.scopes[index]? = some lower →
    memory.stack.scopes[index + 1]? = some upper → upper.base = lower.top
  used : ∀ (index : Nat) (scope : Scope), memory.stack.scopes[index]? = some scope →
    scope.used = (scope.bindings.toList.map fun binding => Scope.variableSize binding.name).sum +
      Scope.branchSize * scope.records
  apart : memory.stack.boundary ≤ memory.heap.boundary

variable {size : Nat} {memory : Memory}

theorem Partitioned.laidOut (parted : memory.Partitioned size) : memory.LaidOut size := by
  have wellFormed := parted.heap
  have chained := wellFormed.chained
  refine
    { disjoint := fun _ _ _ _ found found' different => wellFormed.disjoint found found' different
      within := fun handle object found => parted.limit ▸ wellFormed.bounds found
      downwards := chained.highest ▸ chained.linked.walk_below
      upwards := chained.lowest ▸ chained.linked.walk_above
      visited := fun slot => by rw [chained.mem_iff, Option.isSome_iff_exists]
      descending := ?_
      contiguous := parted.stack.next
      used := parted.stack.accounted
      apart := parted.apart }
  refine (List.pairwise_filterMap).mpr (wellFormed.spaced.pairwise.imp_of_mem ?_)
  intro upper lower memUpper memLower under u above l below
  obtain ⟨header, -, -⟩ := wellFormed.spaced.bounds memUpper above
  have := under u above l below
  simp only [HeapObject.top, HeapObject.bottom, HeapObject.headerSize] at *
  omega

/-- What holds however an operation ends holds after it. -/
theorem after_of_ends {α : Type} {invariant : Memory → Prop} {operation : MemoryM α}
    (ends : MemoryM.Ends operation memory (fun _ => invariant) fun _ => invariant) :
    invariant (memory.after operation) := by
  unfold MemoryM.Ends at ends
  unfold Memory.after
  cases ran : operation memory with
  | ok result memory => simpa only [ran] using ends
  | error error memory => simpa only [ran] using ends

theorem after_of_keeps {α : Type} {invariant : Memory → Prop} {operation : MemoryM α}
    (keeps : MemoryM.Keeps invariant operation) (holds : invariant memory) :
    invariant (memory.after operation) :=
  after_of_ends (keeps memory holds)

theorem Partitioned.after {α : Type} {operation : MemoryM α}
    (keeps : MemoryM.Keeps (Partitioned size) operation) (parted : memory.Partitioned size) :
    (memory.after operation).Partitioned size :=
  after_of_keeps keeps parted

/-- One operation keeps the two parts of memory apart. -/
theorem Partitioned.perform (parted : memory.Partitioned size) (operation : MemoryOperation) :
    (memory.perform operation).Partitioned size := by
  cases operation with
  | pushScope => exact parted.after keeps_pushScope
  | popScope =>
      obtain ⟨wellFormed, low⟩ := parted.stack.popScope
      exact parted.withStack ⟨wellFormed, Nat.le_trans low parted.apart⟩
  | pushBranch action address => exact parted.after (keeps_pushBranch action address)
  | popBranch => exact parted.withBlocks parted.stack.popBranch
  | setAction action => exact parted.withBlocks (parted.stack.modifyBranches _)
  | breakLoop => exact parted.withBlocks parted.stack.breakLoop
  | continueLoop => exact parted.withBlocks parted.stack.continueLoop
  | createVariable name value => exact parted.after (keeps_createVariable name value)
  | setVariable place value => exact parted.after (keeps_setVariable place value)
  | allocate bytes payload => exact parted.after (keeps_allocate bytes payload)
  | resize handle bytes => exact parted.after (keeps_resize handle bytes)
  | deallocate handle => exact parted.deallocate handle
  | createString bytes => exact parted.after ((stable_partitioned size).createSequence _ _)
  | createList values => exact parted.after ((stable_partitioned size).createSequence _ _)
  | resizeString cell length => exact parted.after ((stable_partitioned size).resizePayload cell _ _)
  | resizeList cell length => exact parted.after ((stable_partitioned size).resizePayload cell _ _)
  | setByte cell index byte => exact parted.after ((stable_partitioned size).setByte cell index byte)
  | setElement cell index value => exact parted.after ((stable_partitioned size).setElement cell index value)
  | insertElement sequence index element =>
      exact parted.after ((stable_partitioned size).insertElement sequence index element)
  | insertSequence sequence index other =>
      exact parted.after ((stable_partitioned size).insertSequence sequence index other)
  | removeSlice sequence start finish =>
      exact parted.after ((stable_partitioned size).removeSlice sequence start finish)
  | copySlice sequence start finish => exact parted.after ((stable_partitioned size).copySlice sequence start finish)
  | copySequence sequence => exact parted.after ((stable_partitioned size).copySequence sequence)
  | concatenate left right => exact parted.after ((stable_partitioned size).concatenate left right)
  | setRoots roots => exact ⟨parted.heap, parted.limit, parted.stack, parted.apart⟩
  | collect => exact parted.collect
  | reset => exact parted.reset

theorem partitioned_performAll (size : Nat) (operations : List MemoryOperation) :
    (performAll size operations).Partitioned size := by
  have keeps : ∀ memory : Memory, memory.Partitioned size →
      (operations.foldl perform memory).Partitioned size := by
    induction operations with
    | nil => exact fun _ parted => parted
    | cons operation rest ih => exact fun memory parted => ih _ (parted.perform operation)
  exact keeps (.empty size) (.empty size)

/-- After any operations on memory of any size, its objects and its scopes lie
    side by side. -/
theorem laidOut_performAll (size : Nat) (operations : List MemoryOperation) :
    (performAll size operations).LaidOut size :=
  (partitioned_performAll size operations).laidOut

end Memory

end PocketScript
