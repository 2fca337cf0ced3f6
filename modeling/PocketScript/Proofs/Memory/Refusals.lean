import PocketScript.Proofs.Memory.Lists

/-! # New strings and lists that are refused

A new string or list is two objects, the cell and the payload, and either can find no
place. Operands are checked first, and if there is no place for the cell nothing has
happened either. Where only the payload finds no place, the cell stays behind.
-/

namespace PocketScript

/-- A new string or list: of given contents, or made of others. -/
inductive Construction where
  | string (bytes : List UInt8)
  | list (values : List Value)
  | copy (source : Copy)

namespace Construction

open Memory

def run : Construction → MemoryM Value
  | .string bytes => do return .string (← createString bytes)
  | .list values => do return .list (← createList values)
  | .copy source => source.run

/-- What the new string or list is to hold. -/
def result (memory : Memory) : Construction → Except MemoryError Payload
  | .string bytes => .ok (.bytes bytes)
  | .list values => .ok (.values values)
  | .copy source => source.result memory

end Construction

namespace Memory

open MemoryM

variable {memory after : Memory} {error : MemoryError} {payload : Payload} {size : Nat} {α : Type}

/-- A cell was allocated, and then the payload it is to stand for was refused. -/
def StrandsCell (memory : Memory) (payload : Payload) (error : MemoryError) (after : Memory) : Prop :=
  ∃ cell, allocate pointerSize (.target .dangling) memory = .ok cell after ∧
    allocate payload.room payload after = .error error after

/-- If an operation is refused, memory is as it was, or all that happened is that the
    cell for a result was allocated. -/
def Builds (operation : MemoryM Value) (memory : Memory) (result : Except MemoryError Payload) : Prop :=
  Ends operation memory (fun _ _ => True) fun error after =>
    after = memory ∨ ∃ payload, result = .ok payload ∧ memory.StrandsCell payload error after

theorem allocate_refused (refused : allocate size payload memory = .error error after) : after = memory := by
  unfold allocate onHeap at refused
  split at refused
  · cases refused
  · cases refused
    rfl

theorem createSequence_refused (refused : createSequence payload.room payload memory = .error error after) :
    after = memory ∨ memory.StrandsCell payload error after := by
  unfold createSequence at refused
  simp only [Bind.bind, EStateM.bind] at refused
  cases first : allocate pointerSize (.target .dangling) memory with
  | error _ _ =>
      rw [first] at refused
      cases refused
      exact .inl (allocate_refused first)
  | ok cell middle =>
      simp only [first] at refused
      cases second : allocate payload.room payload middle with
      | error _ _ =>
          simp only [second] at refused
          cases refused
          obtain rfl := allocate_refused second
          exact .inr ⟨cell, first, second⟩
      | ok object last =>
          simp only [second] at refused
          cases refused

namespace Builds

theorem createSequence (memory : Memory) (make : Handle → Value) (payload : Payload) :
    Builds (do return make (← Memory.createSequence payload.room payload)) memory (.ok payload) := by
  refine Ends.bind ?_
  unfold Ends
  split
  · trivial
  · next refused => exact (createSequence_refused refused).imp_right fun strands => ⟨payload, rfl, strands⟩

theorem look {view : Memory → Except MemoryError α} {next : α → MemoryM Value} {rest : α → Except MemoryError Payload}
    (builds : ∀ found, view memory = .ok found → Builds (next found) memory (rest found)) :
    Builds (Memory.look view >>= next) memory (view memory >>= rest) := by
  refine Ends.bind (Ends.look (fun found seen => ?_) fun _ _ => .inl rfl)
  rw [seen]
  exact builds found seen

theorem throw (error : MemoryError) {result : Except MemoryError Payload} :
    Builds (MonadExcept.throw error) memory result :=
  .inl rfl

theorem string (memory : Memory) (bytes : List UInt8) :
    Builds (do return .string (← createString bytes)) memory (.ok (.bytes bytes)) :=
  createSequence memory .string (.bytes bytes)

theorem list (memory : Memory) (values : List Value) :
    Builds (do return .list (← createList values)) memory (.ok (.values values)) :=
  createSequence memory .list (.values values)

end Builds

theorem builds_copy (copy : Copy) (memory : Memory) : Builds copy.run memory (copy.outcome memory) := by
  cases copy with
  | slice sequence start finish =>
      cases sequence with
      | missing | number _ | function _ => exact .throw _
      | string cell => exact .look fun bytes _ => .look fun range _ => .string memory _
      | list cell => exact .look fun values _ => .look fun range _ => .list memory _
  | whole sequence =>
      cases sequence with
      | missing | number _ | function _ => exact .throw _
      | string cell => exact .look fun bytes _ => .string memory bytes
      | list cell => exact .look fun values _ => .list memory values
  | concatenation left right => exact .look fun front _ => .look fun back _ => .string memory _

theorem builds (construction : Construction) (memory : Memory) :
    Builds construction.run memory (construction.result memory) := by
  cases construction with
  | string bytes => exact .string memory bytes
  | list values => exact .list memory values
  | copy source =>
      refine (builds_copy source memory).mono (fun _ _ _ => trivial) ?_
      rintro error after (same | ⟨payload, there, strands⟩)
      · exact .inl same
      · exact .inr ⟨payload, (meets_copy memory source).ok there, strands⟩

/-- A new string or list that is refused leaves memory as it was, unless there was a
    place for its cell and none for its payload. Then the cell is all there is to it. -/
theorem refused_keeps_memory {construction : Construction} (refused : construction.run memory = .error error after) :
    after = memory ∨ ∃ payload, construction.result memory = .ok payload ∧ memory.StrandsCell payload error after := by
  have builds := builds construction memory
  unfold Builds Ends at builds
  rw [refused] at builds
  exact builds

theorem refused_keeps_memory_badRange : ∃ after,
    (Construction.copy (.slice (.string (.entry 0 0)) 1 3)).run heldString = .error .badIndex after ∧
      (after = heldString ∨ ∃ payload,
        (Construction.copy (.slice (.string (.entry 0 0)) 1 3)).result heldString = .ok payload ∧
          heldString.StrandsCell payload .badIndex after) := by
  have refused : (Construction.copy (.slice (.string (.entry 0 0)) 1 3)).run heldString =
      .error .badIndex heldString := by
    rfl
  exact ⟨heldString, refused, refused_keeps_memory refused⟩

/-- In thirty bytes there is a place for the cell of a string of ten bytes but none for
    its payload, and the cell takes up ten bytes afterwards. -/
theorem refused_keeps_memory_not_strandedCell : ∃ after,
    (Construction.string (List.replicate 10 0x61)).run (empty 30) = .error .collision after ∧
      (empty 30).heap.objects = [] ∧ after.heap.objects.length = 1 ∧
      (empty 30).heap.boundary = 30 ∧ after.heap.boundary = 20 ∧
      (empty 30).heap.usedBytes = 0 ∧ after.heap.usedBytes = 10 ∧
      (empty 30).freeBytes = 30 ∧ after.freeBytes = 20 := by
  obtain ⟨after, ran⟩ : ∃ after, (Construction.string (List.replicate 10 0x61)).run (empty 30) =
      .error .collision after := ⟨_, rfl⟩
  cases ran
  exact ⟨_, rfl, by decide⟩

end Memory

end PocketScript
