import PocketScript.Memory.Collection
import PocketScript.Proofs.Heap.Sweeping
import PocketScript.Proofs.Memory.Outcome
import PocketScript.Proofs.Memory.Scopes

/-! # The two parts of memory

The scopes grow up and the heap grows down, and each is only told the boundary
of the other. `Partitioned` is what every operation on memory keeps, whether or
not it is refused: both parts are well-formed and the first does not reach into
the second.
-/

namespace PocketScript

namespace Heap

variable {heap : Heap} {floor : Nat}

theorem WellFormed.le_boundary_clearMarks (wellFormed : heap.WellFormed) (low : floor ≤ heap.boundary) :
    floor ≤ heap.clearMarks.boundary := by
  refine wellFormed.le_boundary_of_addresses wellFormed.clearMarks (limit_clearMarks heap) ?_ low
  intro handle object found
  rw [wellFormed.get?_clearMarks, Option.map_eq_some_iff] at found
  obtain ⟨old, there, rfl⟩ := found
  exact ⟨old, there, rfl⟩

theorem WellFormed.le_boundary_mark (wellFormed : heap.WellFormed) (handle : Handle)
    (low : floor ≤ heap.boundary) : floor ≤ (heap.mark handle).boundary := by
  let marked : HeapObject → HeapObject := ({ · with reachable := true })
  have stays : ∀ object, (marked object).address = object.address := fun _ => rfl
  exact wellFormed.le_boundary_modify stays (fun _ _ => Nat.le_refl _) low

/-- Marking what can be reached keeps the objects where they are. -/
theorem WellFormed.markAll (wellFormed : heap.WellFormed) (low : floor ≤ heap.boundary)
    (pending : List Value) :
    (heap.markAll pending).WellFormed ∧ (heap.markAll pending).limit = heap.limit ∧
      floor ≤ (heap.markAll pending).boundary := by
  refine markAll_induction (motive := fun marked => marked.WellFormed ∧ marked.limit = heap.limit ∧
    floor ≤ marked.boundary) ?_ heap pending ⟨wellFormed, rfl, low⟩
  rintro marked handle ⟨sound, limit, low⟩
  exact ⟨sound.mark handle, by rw [limit_mark, limit], sound.le_boundary_mark handle low⟩

theorem WellFormed.le_boundary_sweep (wellFormed : heap.WellFormed) (low : floor ≤ heap.boundary) :
    floor ≤ heap.sweep.2.boundary := by
  obtain ⟨after, limit, left, -⟩ := wellFormed.sweep
  refine wellFormed.le_boundary_of_addresses after limit ?_ low
  intro handle object found
  rw [left, Option.filter_eq_some_iff] at found
  exact ⟨object, found.1, rfl⟩

end Heap

namespace Memory

open MemoryM

variable {size : Nat} {memory : Memory} {α : Type}

/-- What every operation on memory of a given size keeps. -/
structure Partitioned (size : Nat) (memory : Memory) : Prop where
  heap : memory.heap.WellFormed
  limit : memory.heap.limit = size
  stack : memory.stack.WellFormed
  apart : memory.stack.boundary ≤ memory.heap.boundary

theorem Partitioned.empty (size : Nat) : (Memory.empty size).Partitioned size :=
  ⟨.empty size, rfl, .empty, Nat.zero_le _⟩

namespace Partitioned

/-- Another heap above the same boundary. -/
theorem withHeap (parted : memory.Partitioned size) {heap : Heap} (wellFormed : heap.WellFormed)
    (limit : heap.limit = memory.heap.limit)
    (low : memory.stack.boundary ≤ memory.heap.boundary → memory.stack.boundary ≤ heap.boundary) :
    { memory with heap }.Partitioned size :=
  ⟨wellFormed, limit.trans parted.limit, parted.stack, low parted.apart⟩

/-- Other scopes below the same boundary. -/
theorem withStack (parted : memory.Partitioned size) {stack : ScopeStack}
    (sound : stack.WellFormed ∧ stack.boundary ≤ memory.heap.boundary) :
    { memory with stack }.Partitioned size :=
  ⟨parted.heap, parted.limit, sound.1, sound.2⟩

/-- Other scopes of the same extents. -/
theorem withBlocks (parted : memory.Partitioned size) {stack : ScopeStack}
    (sound : stack.WellFormed ∧ stack.boundary = memory.stack.boundary) :
    { memory with stack }.Partitioned size :=
  parted.withStack ⟨sound.1, sound.2 ▸ parted.apart⟩

theorem modifyHeap (parted : memory.Partitioned size) (handle : Handle)
    {change : HeapObject → HeapObject} (address : ∀ object, (change object).address = object.address)
    (smaller : ∀ object, (change object).size = object.size) :
    { memory with heap := memory.heap.modify handle change }.Partitioned size := by
  have fits : ∀ object, memory.heap.get? handle = some object → (change object).size ≤ object.size :=
    fun object _ => Nat.le_of_eq (smaller object)
  exact parted.withHeap (parted.heap.modify address fits) (Heap.limit_modify _ _ _)
    (parted.heap.le_boundary_modify address fits)

theorem reset (parted : memory.Partitioned size) : memory.reset.Partitioned size :=
  ⟨parted.heap.reset, (Heap.limit_reset memory.heap).trans parted.limit, .empty, Nat.zero_le _⟩

theorem deallocate (parted : memory.Partitioned size) (handle : Handle) :
    { memory with heap := memory.heap.deallocate handle }.Partitioned size :=
  parted.withHeap (parted.heap.deallocate handle) (Heap.limit_deallocate _ _)
    (parted.heap.le_boundary_deallocate handle)

theorem collect (parted : memory.Partitioned size) : memory.collect.2.Partitioned size := by
  let values := memory.roots.toList.flatMap memory.rootValues
  have cleared := parted.heap.clearMarks
  obtain ⟨marked, limit, low⟩ :=
    cleared.markAll (parted.heap.le_boundary_clearMarks parted.apart) values.reverse
  obtain ⟨swept, limit', -, -⟩ := marked.sweep
  exact parted.withHeap swept (limit'.trans (limit.trans (Heap.limit_clearMarks _)))
    fun _ => marked.le_boundary_sweep low

end Partitioned

theorem keeps_onHeap {operation : Heap → Nat → Except MemoryError (α × Heap)}
    (keeps : ∀ heap floor result after, heap.WellFormed → operation heap floor = .ok (result, after) →
      after.WellFormed ∧ after.limit = heap.limit ∧ (floor ≤ heap.boundary → floor ≤ after.boundary)) :
    Keeps (Partitioned size) (onHeap operation) := by
  intro memory parted
  refine .onHeap (fun result heap ran => ?_) fun _ _ => parted
  obtain ⟨wellFormed, limit, low⟩ := keeps _ _ _ _ parted.heap ran
  exact parted.withHeap wellFormed limit low

theorem keeps_allocate (bytes : Nat) (payload : Payload) :
    Keeps (Partitioned size) (allocate bytes payload) := by
  refine keeps_onHeap fun heap floor handle after wellFormed allocated => ?_
  obtain none | ⟨address, handle, placed, found, new⟩ := wellFormed.allocate bytes payload floor
  · simp [none] at allocated
  · rw [found, Except.ok.injEq, Prod.mk.injEq] at allocated
    obtain ⟨-, rfl⟩ := allocated
    exact ⟨new.wellFormed, new.limit, new.le_boundary wellFormed⟩

theorem keeps_resize (handle : Handle) (bytes : Nat) : Keeps (Partitioned size) (resize handle bytes) := by
  refine keeps_onHeap fun heap floor moved after wellFormed resized => ?_
  cases found : heap.get? handle with
  | none => simp [Heap.resize, found] at resized
  | some object =>
      obtain none | ⟨moved, heap', ran, new, low⟩ := wellFormed.resize found bytes floor
      · simp [none] at resized
      · rw [ran, Except.ok.injEq, Prod.mk.injEq] at resized
        obtain ⟨-, rfl⟩ := resized
        exact ⟨new.wellFormed, new.limit, low⟩

theorem keeps_setPayload (cell : Handle) (payload : Payload) :
    Keeps (Partitioned size) (setPayload cell payload) := by
  refine .modify fun memory parted => ?_
  split
  · exact parted.modifyHeap _ (fun _ => rfl) fun _ => rfl
  · exact parted

theorem keeps_setTarget (cell object : Handle) : Keeps (Partitioned size) (setTarget cell object) :=
  .modify fun _ parted => parted.modifyHeap cell (fun _ => rfl) fun _ => rfl

theorem stable_partitioned (size : Nat) : Stable (Partitioned size) :=
  ⟨keeps_allocate, keeps_resize, keeps_setTarget, keeps_setPayload⟩

theorem keeps_onStack {operation : ScopeStack → Nat → Except MemoryError (α × ScopeStack)}
    (keeps : ∀ stack ceiling result after, stack.WellFormed → stack.boundary ≤ ceiling →
      operation stack ceiling = .ok (result, after) → after.WellFormed ∧ after.boundary ≤ ceiling) :
    Keeps (Partitioned size) (onStack operation) := by
  intro memory parted
  refine .onStack (fun result stack ran => ?_) fun _ _ => parted
  exact parted.withStack (keeps _ _ _ _ parted.stack parted.apart ran)

theorem keeps_pushScope : Keeps (Partitioned size) pushScope :=
  keeps_onStack fun _ _ _ _ wellFormed _ pushed => wellFormed.pushScope pushed

theorem keeps_createVariable (name : String) (value : Value) :
    Keeps (Partitioned size) (createVariable name value) :=
  keeps_onStack fun _ _ _ _ wellFormed _ created => wellFormed.createVariable created

theorem keeps_pushBranch (action : BranchAction) (address : Address) :
    Keeps (Partitioned size) (pushBranch action address) := by
  refine keeps_onStack fun stack ceiling _ after wellFormed below pushed => ?_
  cases ran : stack.pushBranch action address ceiling with
  | error error => simp [ran, Except.map] at pushed
  | ok opened =>
      simp only [ran, Except.map, Except.ok.injEq, Prod.mk.injEq, true_and] at pushed
      subst pushed
      exact wellFormed.pushBranch below ran

theorem keeps_setVariable (place : VariableRef) (value : Value) :
    Keeps (Partitioned size) (setVariable place value) := by
  intro memory parted
  unfold Ends setVariable
  split
  · next ran =>
    split at ran
    · obtain ⟨-, rfl⟩ := EStateM.Result.ok.inj ran
      exact parted.withBlocks (parted.stack.setVariable place value)
    · simp at ran
  · next ran =>
    split at ran
    · simp at ran
    · obtain ⟨-, rfl⟩ := EStateM.Result.error.inj ran
      exact parted

end Memory

end PocketScript
