import PocketScript.Memory.Sequence

/-! # Outcomes of memory operations

An operation ends with a result or is refused, and either way leaves memory in
some state. `Ends` speaks of both; `Keeps` is the case of an invariant that
holds afterwards however the operation ended.
-/

namespace PocketScript.MemoryM

variable {α β : Type} {operation : MemoryM α} {next : α → MemoryM β} {memory : Memory}

/-- How an operation ends: `done` holds of its result and of memory then, or
    `refused` of the error and of memory then. -/
def Ends (operation : MemoryM α) (memory : Memory) (done : α → Memory → Prop)
    (refused : MemoryError → Memory → Prop) : Prop :=
  match operation memory with
  | .ok result after => done result after
  | .error error after => refused error after

section Ends

variable {done done' : α → Memory → Prop} {refused refused' : MemoryError → Memory → Prop}

theorem Ends.mono (ends : Ends operation memory done refused)
    (more : ∀ result after, done result after → done' result after)
    (other : ∀ error after, refused error after → refused' error after) :
    Ends operation memory done' refused' := by
  unfold Ends at ends ⊢
  split at ends
  · exact more _ _ ends
  · exact other _ _ ends

theorem Ends.and (first : Ends operation memory done refused) (second : Ends operation memory done' refused') :
    Ends operation memory (fun result after => done result after ∧ done' result after)
      fun error after => refused error after ∧ refused' error after := by
  unfold Ends at first second ⊢
  split
  · next ran => simp only [ran] at first second; exact ⟨first, second⟩
  · next ran => simp only [ran] at first second; exact ⟨first, second⟩

theorem Ends.bind {after : β → Memory → Prop}
    (first : Ends operation memory (fun result memory => Ends (next result) memory after refused) refused) :
    Ends (operation >>= next) memory after refused := by
  unfold Ends at first ⊢
  simp only [Bind.bind, EStateM.bind]
  split at first
  · next ran => simpa only [ran] using first
  · next ran => simpa only [ran] using first

theorem Ends.pure {result : α} (holds : done result memory) :
    Ends (Pure.pure result) memory done refused :=
  holds

theorem Ends.get {done : Memory → Memory → Prop} (holds : done memory memory) :
    Ends get memory done refused :=
  holds

theorem Ends.modify {change : Memory → Memory} {done : Unit → Memory → Prop}
    (holds : done () (change memory)) : Ends (modify change) memory done refused :=
  holds

theorem Ends.look {view : Memory → Except MemoryError α}
    (found : ∀ result, view memory = .ok result → done result memory)
    (missed : ∀ error, view memory = .error error → refused error memory) :
    Ends (Memory.look view) memory done refused := by
  unfold Ends Memory.look
  cases seen : view memory with
  | ok result => exact found result seen
  | error error => exact missed error seen

theorem Ends.onHeap {operation : Heap → Nat → Except MemoryError (α × Heap)}
    (ran : ∀ result heap, operation memory.heap memory.stack.boundary = .ok (result, heap) →
      done result { memory with heap })
    (missed : ∀ error, operation memory.heap memory.stack.boundary = .error error → refused error memory) :
    Ends (Memory.onHeap operation) memory done refused := by
  unfold Ends Memory.onHeap
  cases ended : operation memory.heap memory.stack.boundary with
  | ok result => exact ran result.1 result.2 ended
  | error error => exact missed error ended

theorem Ends.onStack {operation : ScopeStack → Nat → Except MemoryError (α × ScopeStack)}
    (ran : ∀ result stack, operation memory.stack memory.heap.boundary = .ok (result, stack) →
      done result { memory with stack })
    (missed : ∀ error, operation memory.stack memory.heap.boundary = .error error → refused error memory) :
    Ends (Memory.onStack operation) memory done refused := by
  unfold Ends Memory.onStack
  cases ended : operation memory.stack memory.heap.boundary with
  | ok result => exact ran result.1 result.2 ended
  | error error => exact missed error ended

end Ends

/-- An operation keeps an invariant, also when it is refused. -/
def Keeps (invariant : Memory → Prop) (operation : MemoryM α) : Prop :=
  ∀ memory, invariant memory → Ends operation memory (fun _ => invariant) (fun _ => invariant)

section Keeps

variable {invariant : Memory → Prop}

theorem Keeps.bind (first : Keeps invariant operation) (rest : ∀ result, Keeps invariant (next result)) :
    Keeps invariant (operation >>= next) := fun memory holds =>
  .bind ((first memory holds).mono (fun result after => rest result after) fun _ _ kept => kept)

theorem Keeps.pure (result : α) : Keeps invariant (Pure.pure result) :=
  fun _ holds => holds

theorem Keeps.throw (error : MemoryError) : Keeps invariant (throw error : MemoryM α) :=
  fun _ holds => holds

theorem Keeps.get : Keeps invariant get :=
  fun _ holds => holds

theorem Keeps.look (view : Memory → Except MemoryError α) : Keeps invariant (Memory.look view) :=
  fun _ holds => .look (fun _ _ => holds) fun _ _ => holds

theorem Keeps.modify {change : Memory → Memory} (keeps : ∀ memory, invariant memory → invariant (change memory)) :
    Keeps invariant (modify change) :=
  fun memory holds => keeps memory holds

end Keeps

/-- The steps that operations on strings and lists are made of keep an
    invariant. -/
structure Stable (invariant : Memory → Prop) : Prop where
  allocate : ∀ size payload, Keeps invariant (Memory.allocate size payload)
  resize : ∀ handle size, Keeps invariant (Memory.resize handle size)
  setTarget : ∀ cell object, Keeps invariant (Memory.setTarget cell object)
  setPayload : ∀ cell payload, Keeps invariant (Memory.setPayload cell payload)

namespace Stable

variable {invariant : Memory → Prop}

theorem createSequence (stable : Stable invariant) (size : Nat) (payload : Payload) :
    Keeps invariant (Memory.createSequence size payload) :=
  (stable.allocate Memory.pointerSize (.target .dangling)).bind fun cell =>
    (stable.allocate size payload).bind fun object =>
      (stable.setTarget cell object).bind fun _ => .pure cell

theorem resizePayload (stable : Stable invariant) (cell : Handle) (needed grown : Nat) :
    Keeps invariant (Memory.resizePayload cell needed grown) := by
  refine (Keeps.look _).bind fun capacity => ?_
  split
  · refine Keeps.get.bind fun memory => ?_
    split
    · exact (stable.resize _ grown).bind fun moved => stable.setTarget cell moved
    · exact .throw _
  · exact .pure _

theorem setByte (stable : Stable invariant) (cell : Handle) (index : Nat) (byte : UInt8) :
    Keeps invariant (Memory.setByte cell index byte) := by
  refine (Keeps.look _).bind fun bytes => ?_
  split
  · exact stable.setPayload cell _
  · exact .throw _

theorem setElement (stable : Stable invariant) (cell : Handle) (index : Nat) (value : Value) :
    Keeps invariant (Memory.setElement cell index value) := by
  refine (Keeps.look _).bind fun values => ?_
  split
  · exact stable.setPayload cell _
  · exact .throw _

theorem insertBytes (stable : Stable invariant) (cell : Handle) (index : Int) (part : List UInt8) :
    Keeps invariant (Memory.insertBytes cell index part) :=
  (Keeps.look _).bind fun _ => (Keeps.look _).bind fun _ =>
    (stable.resizePayload cell _ _).bind fun _ => stable.setPayload cell _

theorem insertValues (stable : Stable invariant) (cell : Handle) (index : Int) (part : List Value) :
    Keeps invariant (Memory.insertValues cell index part) :=
  (Keeps.look _).bind fun _ => (Keeps.look _).bind fun _ =>
    (stable.resizePayload cell _ _).bind fun _ => stable.setPayload cell _

theorem insertElement (stable : Stable invariant) (sequence : Value) (index : Int) (element : Value) :
    Keeps invariant (Memory.insertElement sequence index element) := by
  unfold Memory.insertElement
  split
  · exact stable.insertBytes _ index _
  · exact stable.insertValues _ index _
  · exact .throw _

theorem insertSequence (stable : Stable invariant) (sequence : Value) (index : Int) (other : Value) :
    Keeps invariant (Memory.insertSequence sequence index other) := by
  unfold Memory.insertSequence
  split
  · exact (Keeps.look _).bind fun part => stable.insertBytes _ index part
  · exact (Keeps.look _).bind fun part => stable.insertValues _ index part
  · exact .throw _

theorem removeSlice (stable : Stable invariant) (sequence : Value) (start finish : Int) :
    Keeps invariant (Memory.removeSlice sequence start finish) := by
  unfold Memory.removeSlice
  split
  · next cell =>
    exact (Keeps.look _).bind fun _ => (Keeps.look _).bind fun _ =>
      (stable.setPayload cell _).bind fun _ => stable.resizePayload cell _ _
  · next cell =>
    exact (Keeps.look _).bind fun _ => (Keeps.look _).bind fun _ =>
      (stable.setPayload cell _).bind fun _ => stable.resizePayload cell _ _
  · exact .throw _

theorem copySlice (stable : Stable invariant) (sequence : Value) (start finish : Int) :
    Keeps invariant (Memory.copySlice sequence start finish) := by
  unfold Memory.copySlice
  split
  · exact (Keeps.look _).bind fun _ => (Keeps.look _).bind fun _ =>
      (stable.createSequence _ _).bind fun _ => .pure _
  · exact (Keeps.look _).bind fun _ => (Keeps.look _).bind fun _ =>
      (stable.createSequence _ _).bind fun _ => .pure _
  · exact .throw _

theorem copySequence (stable : Stable invariant) (sequence : Value) :
    Keeps invariant (Memory.copySequence sequence) := by
  unfold Memory.copySequence
  split
  · exact (Keeps.look _).bind fun _ => (stable.createSequence _ _).bind fun _ => .pure _
  · exact (Keeps.look _).bind fun _ => (stable.createSequence _ _).bind fun _ => .pure _
  · exact .throw _

theorem concatenate (stable : Stable invariant) (left right : Handle) :
    Keeps invariant (Memory.concatenate left right) :=
  (Keeps.look _).bind fun _ => (Keeps.look _).bind fun _ =>
    (stable.createSequence _ _).bind fun _ => .pure _

end Stable

end PocketScript.MemoryM
