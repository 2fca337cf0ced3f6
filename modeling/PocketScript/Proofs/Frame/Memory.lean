import PocketScript.Proofs.Frame.Scopes
import PocketScript.Proofs.Memory.Outcome

/-! # Frames

The frame of an evaluation is what was there before it and is none of its business:
the scopes other than the innermost, but for the values of global variables, and
the roots registered so far. A frame can also fix the open blocks of the innermost
scope, in code that runs. No operation on strings and lists touches a frame, and one
on a variable does not if the variable is visible.
-/

namespace PocketScript

variable {κ α β : Type}

/-- What an evaluation leaves alone. -/
structure MemoryFrame where
  stack : ScopeStack
  roots : Roots
  /-- The open blocks, if they are fixed. -/
  blocks? : Option (List Branch)

namespace MemoryFrame

/-- Blocks may be opened and closed. -/
def Loose (frame : MemoryFrame) : Prop :=
  frame.blocks? = none

/-- The places of variables that can be written to. -/
def Visible (frame : MemoryFrame) : VariableRef → Prop :=
  VariableRef.Visible frame.stack.scopes.size

/-- The frame of an evaluation that starts with this memory. -/
def ofMemory (memory : Memory) (blocks? : Option (List Branch)) : MemoryFrame :=
  ⟨memory.stack, memory.roots, blocks?⟩

/-- Memory in which a frame is as it was. -/
structure Holds (frame : MemoryFrame) (memory : Memory) : Prop where
  stack : frame.stack.Framed memory.stack
  roots : memory.roots.release frame.roots.size = frame.roots
  blocks : ∀ blocks, frame.blocks? = some blocks →
    memory.stack.blocks = blocks ∧ memory.stack.action.isIgnored = false

end MemoryFrame

namespace Roots

variable {roots : Roots} {size : Nat}

theorem release_push (root : Root) (inside : size ≤ roots.size) :
    release (roots.push root) size = roots.release size := by
  simp only [release, Array.take_eq_extract]
  ext index
  · simp only [Array.size_extract, Array.size_push]
    omega
  · simp only [Array.getElem_extract, Array.getElem_push]
    rw [dif_pos]

theorem release_track (value : Value) (inside : size ≤ roots.size) :
    (roots.track value).release size = roots.release size := by
  unfold track
  split
  · exact release_push _ inside
  · rfl

/-- A registration that is among those to be dropped. -/
theorem release_trackIn {index : Nat} (value : Value) (above : size ≤ index) :
    (roots.trackIn index value).release size = roots.release size := by
  simp only [release, trackIn, Array.take_eq_extract]
  ext position
  · simp
  · simp only [Array.getElem_extract, Array.getElem_modify]
    rw [if_neg]
    simp only [Array.size_extract, Array.size_modify] at *
    omega

theorem release_release {mark : Nat} (inside : size ≤ mark) :
    (roots.release mark).release size = roots.release size := by
  simp only [release, Array.take_eq_extract, Array.extract_extract]
  congr 1
  omega

theorem release_size (roots : Roots) : roots.release roots.size = roots := by
  simp [release]

/-- As many registrations as were kept. -/
theorem size_le_of_release {kept : Roots} (same : roots.release kept.size = kept) : kept.size ≤ roots.size := by
  have size := congrArg Array.size same
  simp only [release, Array.take_eq_extract, Array.size_extract] at size
  omega

end Roots

namespace MemoryFrame

variable {frame : MemoryFrame} {memory : Memory}

namespace Holds

theorem ofMemory {blocks? : Option (List Branch)}
    (blocks : ∀ blocks, blocks? = some blocks → memory.stack.blocks = blocks ∧ memory.stack.action.isIgnored = false) :
    (MemoryFrame.ofMemory memory blocks?).Holds memory :=
  ⟨.refl _, Roots.release_size _, blocks⟩

theorem ofLoose (memory : Memory) : (MemoryFrame.ofMemory memory none).Holds memory :=
  ofMemory nofun

theorem size_le (holds : frame.Holds memory) : frame.roots.size ≤ memory.roots.size :=
  Roots.size_le_of_release holds.roots

theorem withHeap (holds : frame.Holds memory) (heap : Heap) : frame.Holds { memory with heap } :=
  ⟨holds.stack, holds.roots, holds.blocks⟩

theorem withRoots (holds : frame.Holds memory) {roots : Roots}
    (same : roots.release frame.roots.size = memory.roots.release frame.roots.size) :
    frame.Holds { memory with roots } :=
  ⟨holds.stack, same.trans holds.roots, holds.blocks⟩

/-- Other values of variables. -/
theorem withStack (holds : frame.Holds memory) {stack : ScopeStack} (framed : memory.stack.Framed stack)
    (blocks : stack.blocks = memory.stack.blocks) : frame.Holds { memory with stack } := by
  refine ⟨holds.stack.trans framed, holds.roots, fun fixed same => ?_⟩
  obtain ⟨here, runs⟩ := holds.blocks fixed same
  refine ⟨blocks.trans here, ?_⟩
  rw [ScopeStack.action_eq] at runs ⊢
  rw [blocks]
  exact runs

/-- Other blocks in the innermost scope. -/
theorem withBlocks (holds : frame.Holds memory) (loose : frame.Loose) {stack : ScopeStack}
    (framed : memory.stack.Framed stack) : frame.Holds { memory with stack } :=
  ⟨holds.stack.trans framed, holds.roots, fun fixed same => by rw [Loose] at loose; simp [loose] at same⟩

/-- An evaluation that leaves its own frame alone and releases what it registered. -/
theorem trans (holds : frame.Holds memory) {after : Memory}
    (inner : (MemoryFrame.ofMemory memory frame.blocks?).Holds after)
    (roots : after.roots = memory.roots) : frame.Holds after := by
  refine ⟨holds.stack.trans inner.stack, ?_, inner.blocks⟩
  rw [roots]
  exact holds.roots

end Holds

end MemoryFrame

/-- What a call does to the scopes and the roots that were there before it: no more
    than to give other values to global variables, and to register roots. -/
structure Memory.Called (memory after : Memory) : Prop where
  stack : memory.stack.Revalued after.stack
  roots : after.roots.release memory.roots.size = memory.roots

theorem MemoryFrame.Holds.called {frame : MemoryFrame} {memory after : Memory} (holds : frame.Holds memory)
    (called : memory.Called after) : frame.Holds after := by
  refine ⟨holds.stack.trans (.of_revalued called.stack), ?_, fun fixed same => ?_⟩
  · rw [← Roots.release_release holds.size_le, called.roots]
    exact holds.roots
  · obtain ⟨here, runs⟩ := holds.blocks fixed same
    rw [ScopeStack.action_eq] at runs ⊢
    rw [called.stack.blocks]
    exact ⟨here, runs⟩

namespace Memory

open MemoryM

variable {frame : MemoryFrame}

theorem holds_onHeap (operation : Heap → (floor : Nat) → Except MemoryError (α × Heap)) :
    Keeps frame.Holds (onHeap operation) :=
  fun _ holds => .onHeap (fun _ heap _ => holds.withHeap heap) fun _ _ => holds

/-- Strings and lists lie outside of every frame. -/
theorem stable_holds (frame : MemoryFrame) : Stable frame.Holds where
  allocate _ _ := holds_onHeap _
  resize _ _ := holds_onHeap _
  setTarget _ _ := .modify fun _ holds => holds.withHeap _
  setPayload _ _ := by
    refine .modify fun memory holds => ?_
    split
    · exact holds.withHeap _
    · exact holds

@[grind ←]
theorem holds_look (view : Memory → Except MemoryError α) : Keeps frame.Holds (look view) :=
  .look view

@[grind ←]
theorem holds_createString (bytes : List UInt8) : Keeps frame.Holds (createString bytes) :=
  (stable_holds frame).createSequence _ _

@[grind ←]
theorem holds_createList (values : List Value) : Keeps frame.Holds (createList values) :=
  (stable_holds frame).createSequence _ _

@[grind ←]
theorem holds_insertElement (sequence : Value) (index : Int) (element : Value) :
    Keeps frame.Holds (insertElement sequence index element) :=
  (stable_holds frame).insertElement sequence index element

@[grind ←]
theorem holds_insertSequence (sequence : Value) (index : Int) (other : Value) :
    Keeps frame.Holds (insertSequence sequence index other) :=
  (stable_holds frame).insertSequence sequence index other

@[grind ←]
theorem holds_removeSlice (sequence : Value) (start finish : Int) :
    Keeps frame.Holds (removeSlice sequence start finish) :=
  (stable_holds frame).removeSlice sequence start finish

@[grind ←]
theorem holds_setByte (cell : Handle) (index : Nat) (byte : UInt8) : Keeps frame.Holds (setByte cell index byte) :=
  (stable_holds frame).setByte cell index byte

@[grind ←]
theorem holds_setElement (cell : Handle) (index : Nat) (value : Value) :
    Keeps frame.Holds (setElement cell index value) :=
  (stable_holds frame).setElement cell index value

@[grind ←]
theorem holds_copySlice (sequence : Value) (start finish : Int) : Keeps frame.Holds (copySlice sequence start finish) :=
  (stable_holds frame).copySlice sequence start finish

@[grind ←]
theorem holds_copySequence (sequence : Value) : Keeps frame.Holds (copySequence sequence) :=
  (stable_holds frame).copySequence sequence

@[grind ←]
theorem holds_concatenate (left right : Handle) : Keeps frame.Holds (concatenate left right) :=
  (stable_holds frame).concatenate left right

theorem holds_setVariable {place : VariableRef} (visible : frame.Visible place) (value : Value) :
    Keeps frame.Holds (setVariable place value) := by
  intro memory holds
  unfold Ends setVariable
  cases memory.stack.variableAt? place with
  | none => exact holds
  | some _ =>
      have here : place.Visible memory.stack.scopes.size := by
        rw [holds.stack.depth]
        exact visible
      exact holds.withStack (.setVariable here value) (ScopeStack.blocks_setVariable _ _ _)

/-- A variable is created where it can be written to. -/
theorem holds_createVariable (name : String) (value : Value) (memory : Memory) (holds : frame.Holds memory) :
    Ends (createVariable name value) memory (fun place after => frame.Holds after ∧ frame.Visible place)
      fun _ => frame.Holds := by
  refine .onStack (fun place stack created => ?_) fun _ _ => holds
  obtain ⟨framed, visible⟩ := ScopeStack.Framed.createVariable created
  rw [holds.stack.depth] at visible
  exact ⟨holds.withStack framed (ScopeStack.blocks_createVariable created), visible⟩

theorem pushScope_eq (memory : Memory) : pushScope memory =
    if memory.heap.boundary < memory.stack.boundary + Scope.headerSize then .error .collision memory
    else .ok memory.stack.scopes.size
      { memory with stack := ⟨memory.stack.scopes.push (Scope.opened memory.stack.boundary)⟩ } := by
  unfold pushScope onStack ScopeStack.pushScope
  by_cases full : memory.heap.boundary < memory.stack.boundary + Scope.headerSize
  · simp only [if_pos full]
  · simp only [if_neg full]

theorem holds_pushBranch (loose : frame.Loose) (action : BranchAction) (address : Address) :
    Keeps frame.Holds (pushBranch action address) := by
  intro memory holds
  refine .onStack (fun result stack changed => ?_) fun _ _ => holds
  exact holds.withBlocks loose (.pushBranch (ScopeStack.pushed_of_map changed))

end Memory

end PocketScript
