import PocketScript.Proofs.Memory.Soundness

/-! # Strings that grow

A string that is put behind another one may have to move for it. The cell stays the
same all the while, it stands for both strings in a row afterwards, and no list
notices.
-/

namespace PocketScript

namespace Memory

open MemoryM

variable {memory after : Memory} {cell other : Handle} {payload payload' : Payload} {front back : List UInt8}
  {values : List Value}

/-- A cell has come to stand for a payload, which may have moved to a handle that was
    free, and nothing else has changed. -/
structure Refilled (memory : Memory) (cell : Handle) (payload : Payload) (after : Memory) : Prop where
  rest : after = { memory with heap := after.heap }
  contents : ∃ object moved, memory.heap.contents cell = some (.target object) ∧ cell ≠ moved ∧
    (moved = object ∨ memory.heap.contents moved = none) ∧ ∀ found, after.heap.contents found =
      if found = cell then some (.target moved) else if found = moved then some payload
      else if found = object then none else memory.heap.contents found

namespace Refilled

theorem payload_eq (refilled : memory.Refilled cell payload after) : after.payload cell = .ok payload := by
  obtain ⟨object, moved, -, apart, -, contents⟩ := refilled.contents
  refine payload_eq_ok_iff_contents.mpr ⟨moved, by rw [contents, if_pos rfl], ?_⟩
  rw [contents, if_neg apart.symm, if_pos rfl]

/-- Behind a cell of a string there is no list. -/
theorem list_eq (refilled : memory.Refilled cell payload after) (string : memory.string cell = .ok front)
    (list : memory.list other = .ok values) : after.list other = .ok values := by
  obtain ⟨object, moved, at_cell, -, place, contents⟩ := refilled.contents
  obtain ⟨object', at_cell', at_object⟩ := payload_eq_ok_iff_contents.mp (string_eq_ok_iff.mp string)
  obtain rfl : object = object' := by simpa [at_cell] using at_cell'
  obtain ⟨target, at_other, at_target⟩ := payload_eq_ok_iff_contents.mp (list_eq_ok_iff.mp list)
  -- What holds something of another kind than the string is none of what has changed.
  have still : ∀ found held, memory.heap.contents found = some held → held ≠ .target object →
      held ≠ .bytes front → after.heap.contents found = some held := by
    intro found held here no_cell no_bytes
    have second : found ≠ object := by
      rintro rfl
      exact no_bytes (Option.some.inj (here.symm.trans at_object))
    rw [contents, if_neg, if_neg, if_neg second, here]
    · rintro rfl
      rcases place with same | absent
      · exact second same
      · simp [absent] at here
    · rintro rfl
      exact no_cell (Option.some.inj (here.symm.trans at_cell))
  refine list_eq_ok_iff.mpr (payload_eq_ok_iff_contents.mpr ⟨target, ?_, ?_⟩)
  · refine still _ _ at_other ?_ Payload.noConfusion
    rintro ⟨⟩
    simp [at_object] at at_target
  · exact still _ _ at_target Payload.noConfusion Payload.noConfusion

theorem setPayload (refilled : memory.Refilled cell payload after) :
    Ends (setPayload cell payload') after (fun _ last => memory.Refilled cell payload' last) fun _ _ => False := by
  obtain ⟨rest, object, moved, at_cell, apart, place, contents⟩ := refilled
  have target : after.heap.target? cell = some moved := by
    rw [Heap.target?_eq_some_iff, contents, if_pos rfl]
  refine Ends.modify ?_
  simp only [target]
  refine ⟨by rw [rest], object, moved, at_cell, apart, place, fun found => ?_⟩
  have there : (after.heap.get? moved).map (·.payload) = some payload := by
    rw [← Heap.contents, contents, if_neg apart.symm, if_pos rfl]
  rw [Heap.contents_modify]
  by_cases same : found = moved
  · obtain ⟨held, here, -⟩ := Option.map_eq_some_iff.mp there
    rw [if_pos same, if_pos same, same, if_neg apart.symm, here, Option.map_some]
  · rw [if_neg same, contents, if_neg same, if_neg same]

end Refilled

/-- Making room for a payload. -/
theorem refilled_resizePayload (wellFormed : memory.heap.WellFormed) (reads : memory.payload cell = .ok payload)
    (no_cell : payload.target? = none) (needed grown : Nat) :
    Ends (resizePayload cell needed grown) memory (fun _ after => memory.Refilled cell payload after)
      fun _ _ => True := by
  obtain ⟨object, found, target, there, held, at_cell, at_object⟩ := target?_of_payload reads
  have cell_object : cell ≠ object := by
    rintro rfl
    rw [at_cell, Option.some.injEq] at at_object
    simp [← at_object, Payload.target?] at no_cell
  refine Ends.bind (Ends.look (fun capacity _ => ?_) fun _ _ => trivial)
  split
  · refine Ends.bind (Ends.get ?_)
    simp only [target]
    refine Ends.bind (Ends.onHeap (fun moved heap ran => ?_) fun _ _ => trivial)
    obtain none | ⟨moved, resized, ran', new, -⟩ := wellFormed.resize there grown memory.stack.boundary
    · simp [none] at ran
    rw [ran', Except.ok.injEq, Prod.mk.injEq] at ran
    obtain ⟨rfl, rfl⟩ := ran
    obtain ⟨address, reachable, views⟩ := new.get?
    have place : moved = object ∨ memory.heap.contents moved = none :=
      new.place.imp_right fun fresh => by simp [Heap.contents, fresh]
    have cell_moved : cell ≠ moved := by
      rintro rfl
      rcases place with same | absent
      · exact cell_object same
      · simp [absent] at at_cell
    refine Ends.modify ⟨rfl, object, moved, at_cell, cell_moved, place, fun other => ?_⟩
    rw [Heap.contents_setTarget, Heap.contents, views]
    by_cases first : other = cell
    · rw [if_pos first, if_pos first, first, if_neg cell_moved, if_neg cell_object]
      simpa [Heap.contents] using congrArg (Option.map fun _ => Payload.target moved) at_cell
    · rw [if_neg first, if_neg first]
      split
      · simp [held]
      · split <;> rfl
  · refine Ends.pure ⟨rfl, object, object, at_cell, cell_object, .inl rfl, fun other => ?_⟩
    split
    · next first => rw [first, at_cell]
    · split
      · next second => rw [second, at_object]
      · rfl

/-- One string is put behind another. -/
theorem refilled_append (wellFormed : memory.heap.WellFormed) {source : Handle}
    (string : memory.string cell = .ok front) (string' : memory.string source = .ok back) :
    Ends (insertSequence (.string cell) front.length (.string source)) memory
      (fun _ after => memory.Refilled cell (.bytes (front ++ back)) after) fun _ _ => True := by
  have place : checkPlace front.length front.length = .ok front.length := by
    simp [checkPlace]
  refine Ends.bind (Ends.look (fun part seen => ?_) fun _ _ => trivial)
  obtain rfl : back = part := by simpa [string'] using seen
  refine Ends.bind (Ends.look (fun bytes seen => ?_) fun _ _ => trivial)
  obtain rfl : front = bytes := by simpa [string] using seen
  refine Ends.bind (Ends.look (fun index seen => ?_) fun _ _ => trivial)
  obtain rfl : front.length = index := by simpa [place] using seen
  have whole : spliced front front.length back = front ++ back := by simp [spliced]
  rw [whole]
  have fits := refilled_resizePayload wellFormed (string_eq_ok_iff.mp string) rfl
  refine Ends.bind ((fits _ _).mono ?_ fun _ _ _ => trivial)
  intro _ middle refilled
  exact refilled.setPayload.mono (fun _ _ done => done) fun _ _ _ => trivial

/-- A new cell stands for the payload it was created with, and what was there is as it
    was. -/
structure Adds (memory : Memory) (payload : Payload) (cell : Handle) (after : Memory) : Prop where
  reads : after.payload cell = .ok payload
  rest : after = { memory with heap := after.heap }
  keeps : ∀ handle, (memory.heap.contents handle).isSome → after.heap.contents handle = memory.heap.contents handle

theorem adds_createSequence (wellFormed : memory.heap.WellFormed) (size : Nat) (payload : Payload) :
    Ends (createSequence size payload) memory (memory.Adds payload) fun _ _ => True := by
  refine Ends.bind (Ends.onHeap (fun _ _ ran => ?_) fun _ _ => trivial)
  obtain none | ⟨_, cell, heap, ran', new⟩ := wellFormed.allocate pointerSize (.target .dangling) memory.stack.boundary
  · simp [none] at ran
  rw [ran', Except.ok.injEq, Prod.mk.injEq] at ran
  obtain ⟨rfl, rfl⟩ := ran
  refine Ends.bind (Ends.onHeap (fun _ _ ran => ?_) fun _ _ => trivial)
  obtain none | ⟨_, object, heap', ran', new'⟩ := new.wellFormed.allocate size payload memory.stack.boundary
  · simp [none] at ran
  rw [ran', Except.ok.injEq, Prod.mk.injEq] at ran
  obtain ⟨rfl, rfl⟩ := ran
  have apart : object ≠ cell := by
    rintro rfl
    have fresh := new'.fresh
    simp [new.get?] at fresh
  have at_cell : heap'.contents cell = some (.target .dangling) := by
    simp [Heap.contents, new'.get?, new.get?, apart.symm]
  refine Ends.bind (Ends.modify (Ends.pure ⟨payload_eq_ok_iff_contents.mpr ⟨object, ?_, ?_⟩, rfl, ?_⟩))
  · rw [Heap.contents_setTarget, if_pos rfl, at_cell, Option.map_some]
  · rw [Heap.contents_setTarget, if_neg apart, Heap.contents, new'.get?, if_pos rfl, Option.map_some]
  · intro handle there
    have not_cell : handle ≠ cell := by
      rintro rfl
      simp [Heap.contents, new.fresh] at there
    have not_object : handle ≠ object := by
      rintro rfl
      have fresh := new'.fresh
      rw [new.get?, if_neg apart] at fresh
      simp [Heap.contents, fresh] at there
    rw [Heap.contents_setTarget, if_neg not_cell, Heap.contents, new'.get?, if_neg not_object, new.get?,
      if_neg not_cell, Heap.contents]

/-- What is registered does not matter for a new sequence. -/
theorem createSequence_withRoots (size : Nat) (payload : Payload) (memory : Memory) (roots : Roots) :
    createSequence size payload { memory with roots } =
      match createSequence size payload memory with
      | .ok cell after => .ok cell { after with roots }
      | .error error after => .error error { after with roots } := by
  have onHeap_eq : ∀ (operation : Heap → Nat → Except MemoryError (Handle × Heap)) (memory : Memory),
      onHeap operation { memory with roots } = match onHeap operation memory with
        | .ok handle after => .ok handle { after with roots }
        | .error error after => .error error { after with roots } := by
    intro operation memory
    simp only [onHeap]
    cases operation memory.heap memory.stack.boundary <;> rfl
  simp only [createSequence, allocate, Bind.bind, EStateM.bind, onHeap_eq]
  cases onHeap (fun heap floor => heap.allocate pointerSize (.target .dangling) floor) memory with
  | error error after => rfl
  | ok cell after =>
      simp only [onHeap_eq]
      cases onHeap (fun heap floor => heap.allocate size payload floor) after <;> rfl

/-- A new string of two others. -/
theorem reads_concatenate (wellFormed : memory.heap.WellFormed) {left right : Handle}
    (string : memory.string left = .ok front) (string' : memory.string right = .ok back) :
    Ends (concatenate left right) memory
      (fun value after => ∃ cell, value = .string cell ∧ after.string cell = .ok (front ++ back)) fun _ _ => True := by
  refine Ends.bind (Ends.look (fun bytes seen => ?_) fun _ _ => trivial)
  obtain rfl : front = bytes := by simpa [string] using seen
  refine Ends.bind (Ends.look (fun bytes seen => ?_) fun _ _ => trivial)
  obtain rfl : back = bytes := by simpa [string'] using seen
  refine Ends.bind ((adds_createSequence wellFormed _ (.bytes (front ++ back))).mono ?_ fun _ _ _ => trivial)
  intro cell after adds
  exact .pure ⟨cell, rfl, string_eq_ok_iff.mpr adds.reads⟩

/-- A string was put behind another one, which was as long as it was said to be. -/
theorem refilled_of_append (wellFormed : memory.heap.WellFormed) {source : Handle} {length : Nat}
    (measured : memory.length (.string cell) = .ok length)
    (ran : insertSequence (.string cell) length (.string source) memory = .ok () after) :
    ∃ front back, memory.string cell = .ok front ∧ memory.string source = .ok back ∧
      memory.Refilled cell (.bytes (front ++ back)) after := by
  cases string : memory.string cell with
  | error error => simp [Memory.length, string, Except.map] at measured
  | ok front =>
      obtain rfl : front.length = length := by simpa [Memory.length, string, Except.map] using measured
      cases string' : memory.string source with
      | error error =>
          simp [insertSequence, look, string', Bind.bind, EStateM.bind] at ran
      | ok back =>
          have ends := refilled_append wellFormed string string'
          unfold Ends at ends
          rw [ran] at ends
          exact ⟨front, back, rfl, rfl, ends⟩

/-- A string was made of two others. -/
theorem reads_of_concatenate (wellFormed : memory.heap.WellFormed) {left right : Handle} {value : Value}
    (ran : concatenate left right memory = .ok value after) :
    ∃ front back cell, memory.string left = .ok front ∧ memory.string right = .ok back ∧ value = .string cell ∧
      after.string cell = .ok (front ++ back) := by
  cases string : memory.string left with
  | error error => simp [concatenate, look, string, Bind.bind, EStateM.bind] at ran
  | ok front =>
      cases string' : memory.string right with
      | error error => simp [concatenate, look, string, string', Bind.bind, EStateM.bind] at ran
      | ok back =>
          have ends := reads_concatenate wellFormed string string'
          unfold Ends at ends
          rw [ran] at ends
          obtain ⟨cell, same, reads⟩ := ends
          exact ⟨front, back, cell, rfl, rfl, same, reads⟩

end Memory

end PocketScript
