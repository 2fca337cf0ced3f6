import PocketScript.Memory.Collection

/-! # Views of the heap

What each elementary step on slots does to the object in a slot, to the links
of that object and to the generation of the slot. What a handle names is read
off these, so later modules never look into the array of slots.
-/

namespace PocketScript.Heap

/-- The generation that a slot is in. -/
def generation? (heap : Heap) (slot : Nat) : Option UInt32 :=
  heap.slots[slot]?.map (·.generation)

/-- The object in a slot. -/
def object? (heap : Heap) (slot : Nat) : Option HeapObject :=
  (heap.node? slot).map (·.object)

theorem named?_entry (heap : Heap) (slot : Nat) (generation : UInt32) :
    heap.named? (.entry slot generation) =
      if heap.generation? slot = some generation then (heap.node? slot).map (slot, ·) else none := by
  cases entry : heap.slots[slot]? with
  | none => simp [named?, generation?, entry]
  | some content =>
      by_cases same : content.generation = generation <;>
        simp [named?, generation?, node?, entry, Option.filter, same]

theorem get?_entry (heap : Heap) (slot : Nat) (generation : UInt32) :
    heap.get? (.entry slot generation) =
      if heap.generation? slot = some generation then heap.object? slot else none := by
  simp only [get?, named?_entry, object?]
  split
  · cases heap.node? slot <;> rfl
  · rfl

@[simp]
theorem get?_dangling (heap : Heap) : heap.get? .dangling = none :=
  rfl

theorem handleOf_eq {heap : Heap} {slot : Nat} {generation : UInt32}
    (current : heap.generation? slot = some generation) :
    heap.handleOf slot = .entry slot generation := by
  simp only [generation?] at current
  simp [handleOf, current]

/-- A slot that holds an object is in some generation. -/
theorem generation_of_node {heap : Heap} {slot : Nat} {node : HeapNode}
    (occupied : heap.node? slot = some node) :
    ∃ generation, heap.generation? slot = some generation := by
  cases entry : heap.slots[slot]? with
  | none => simp [node?, entry] at occupied
  | some content => exact ⟨content.generation, by simp [generation?, entry]⟩

theorem lt_size_of_node {heap : Heap} {slot : Nat} {node : HeapNode}
    (occupied : heap.node? slot = some node) : slot < heap.slots.size := by
  simp only [node?, Option.bind_eq_some_iff] at occupied
  obtain ⟨content, entry, -⟩ := occupied
  exact (Array.getElem?_eq_some_iff.mp entry).1

/-- The handle of an occupied slot names the object in it. -/
theorem get?_handleOf {heap : Heap} {slot : Nat} {node : HeapNode}
    (occupied : heap.node? slot = some node) :
    heap.get? (heap.handleOf slot) = some node.object := by
  obtain ⟨generation, current⟩ := generation_of_node occupied
  rw [handleOf_eq current, get?_entry, if_pos current, object?, occupied]
  rfl

/-- A handle that names an object is the one of the object's slot. -/
theorem handleOf_of_named {heap : Heap} {handle : Handle} {slot : Nat} {node : HeapNode}
    (named : heap.named? handle = some (slot, node)) :
    handle = heap.handleOf slot ∧ heap.node? slot = some node := by
  obtain ⟨generation, rfl, entry⟩ := slot_of_named named
  exact ⟨by simp [handleOf, entry], by simp [node?, entry]⟩

theorem named_of_get? {heap : Heap} {handle : Handle} {object : HeapObject}
    (found : heap.get? handle = some object) :
    ∃ slot node, handle = heap.handleOf slot ∧ heap.node? slot = some node ∧
      node.object = object := by
  simp only [get?, Option.map_eq_some_iff] at found
  obtain ⟨⟨slot, node⟩, named, rfl⟩ := found
  obtain ⟨rfl, occupied⟩ := handleOf_of_named named
  exact ⟨slot, node, rfl, occupied, rfl⟩

theorem contains_iff {heap : Heap} {handle : Handle} :
    heap.contains handle = true ↔ ∃ object, heap.get? handle = some object := by
  simp [contains, Option.isSome_iff_exists]

section Modify

variable (heap : Heap) (slot other : Nat) (change : HeapNode → HeapNode)

theorem node?_modifyNode :
    (heap.modifyNode slot change).node? other =
      if slot = other then (heap.node? other).map change else heap.node? other := by
  simp only [node?, modifyNode, Array.getElem?_modify]
  split
  · cases heap.slots[other]? <;> simp
  · rfl

@[simp]
theorem generation?_modifyNode :
    (heap.modifyNode slot change).generation? other = heap.generation? other := by
  simp only [generation?, modifyNode, Array.getElem?_modify]
  split
  · cases heap.slots[other]? <;> simp
  · rfl

@[simp]
theorem size_modifyNode : (heap.modifyNode slot change).slots.size = heap.slots.size := by
  simp [modifyNode]

@[simp]
theorem limit_modifyNode : (heap.modifyNode slot change).limit = heap.limit := rfl

@[simp]
theorem vacant_modifyNode : (heap.modifyNode slot change).vacant = heap.vacant := rfl

@[simp]
theorem highest_modifyNode : (heap.modifyNode slot change).highest = heap.highest := rfl

@[simp]
theorem lowest_modifyNode : (heap.modifyNode slot change).lowest = heap.lowest := rfl

end Modify

/-- What a handle names after its object, or another one, was changed. -/
theorem get?_modify (heap : Heap) (handle other : Handle) (change : HeapObject → HeapObject) :
    (heap.modify handle change).get? other =
      if other = handle then (heap.get? other).map change else heap.get? other := by
  cases named : heap.named? handle with
  | none =>
      have nothing : heap.get? handle = none := by simp [get?, named]
      simp only [modify, named]
      split
      · next same => rw [same, nothing]; rfl
      · rfl
  | some found =>
      obtain ⟨slot, node⟩ := found
      obtain ⟨generation, rfl, entry⟩ := slot_of_named named
      have current : heap.generation? slot = some generation := by simp [generation?, entry]
      simp only [modify, named]
      cases other with
      | dangling => simp
      | entry index version =>
          simp only [get?_entry, generation?_modifyNode, object?, node?_modifyNode,
            Handle.entry.injEq]
          by_cases here : slot = index
          · subst here
            by_cases now : version = generation
            · subst now
              simp only [current, and_self, if_true]
              cases heap.node? slot <;> rfl
            · have stale : heap.generation? slot ≠ some version := by
                rw [current]
                exact fun same => now (Option.some.inj same).symm
              simp [now, stale]
          · have elsewhere : ¬ index = slot := fun same => here same.symm
            simp [here, elsewhere]

section Links

variable (heap : Heap) (slot? link : Option Nat) (other : Nat)

theorem node?_setBelow :
    (heap.setBelow slot? link).node? other =
      if slot? = some other then (heap.node? other).map ({ · with below := link })
      else heap.node? other := by
  cases slot? with
  | none => rfl
  | some slot =>
      cases occupied : heap.node? slot with
      | none =>
          simp only [setBelow, Option.filter, occupied, Option.isSome_none, Option.some.injEq]
          by_cases same : slot = other
          · subst same
            simp only [if_true, occupied]
            exact occupied
          · simp only [same, if_false]
            rfl
      | some node =>
          simp only [setBelow, Option.filter, occupied, Option.isSome_some, if_true,
            node?_modifyNode, Option.some.injEq]

theorem node?_setAbove :
    (heap.setAbove slot? link).node? other =
      if slot? = some other then (heap.node? other).map ({ · with above := link })
      else heap.node? other := by
  cases slot? with
  | none => rfl
  | some slot =>
      cases occupied : heap.node? slot with
      | none =>
          simp only [setAbove, Option.filter, occupied, Option.isSome_none, Option.some.injEq]
          by_cases same : slot = other
          · subst same
            simp only [if_true, occupied]
            exact occupied
          · simp only [same, if_false]
            rfl
      | some node =>
          simp only [setAbove, Option.filter, occupied, Option.isSome_some, if_true,
            node?_modifyNode, Option.some.injEq]

@[simp]
theorem object?_setBelow : (heap.setBelow slot? link).object? other = heap.object? other := by
  simp only [object?, node?_setBelow]
  split
  · cases heap.node? other <;> rfl
  · rfl

@[simp]
theorem object?_setAbove : (heap.setAbove slot? link).object? other = heap.object? other := by
  simp only [object?, node?_setAbove]
  split
  · cases heap.node? other <;> rfl
  · rfl

@[simp]
theorem generation?_setBelow : (heap.setBelow slot? link).generation? other = heap.generation? other := by
  simp only [setBelow]
  split
  · simp
  · rfl

@[simp]
theorem size_setBelow : (heap.setBelow slot? link).slots.size = heap.slots.size := by
  simp only [setBelow]
  split
  · simp
  · rfl

@[simp]
theorem limit_setBelow : (heap.setBelow slot? link).limit = heap.limit := by
  simp only [setBelow]
  split
  · simp
  · rfl

@[simp]
theorem vacant_setBelow : (heap.setBelow slot? link).vacant = heap.vacant := by
  simp only [setBelow]
  split
  · simp
  · rfl

@[simp]
theorem lowest_setBelow : (heap.setBelow slot? link).lowest = heap.lowest := by
  simp only [setBelow]
  split
  · simp
  · rfl

@[simp]
theorem generation?_setAbove : (heap.setAbove slot? link).generation? other = heap.generation? other := by
  simp only [setAbove]
  split
  · simp
  · rfl

@[simp]
theorem size_setAbove : (heap.setAbove slot? link).slots.size = heap.slots.size := by
  simp only [setAbove]
  split
  · simp
  · rfl

@[simp]
theorem limit_setAbove : (heap.setAbove slot? link).limit = heap.limit := by
  simp only [setAbove]
  split
  · simp
  · rfl

@[simp]
theorem vacant_setAbove : (heap.setAbove slot? link).vacant = heap.vacant := by
  simp only [setAbove]
  split
  · simp
  · rfl

@[simp]
theorem highest_setAbove : (heap.setAbove slot? link).highest = heap.highest := by
  simp only [setAbove]
  split
  · simp
  · rfl

theorem highest_setBelow :
    (heap.setBelow slot? link).highest =
      if (slot?.bind heap.node?).isSome then heap.highest else link := by
  cases slot? with
  | none => rfl
  | some slot =>
      cases occupied : heap.node? slot <;> simp [setBelow, Option.filter, occupied]

theorem lowest_setAbove :
    (heap.setAbove slot? link).lowest =
      if (slot?.bind heap.node?).isSome then heap.lowest else link := by
  cases slot? with
  | none => rfl
  | some slot =>
      cases occupied : heap.node? slot <;> simp [setAbove, Option.filter, occupied]

end Links

section Slots

variable (heap : Heap) (slot other : Nat)

theorem node?_vacate :
    (heap.vacate slot).node? other = if slot = other then none else heap.node? other := by
  simp only [node?, vacate, Array.getElem?_modify]
  split
  · cases heap.slots[other]? <;> simp
  · rfl

theorem generation?_vacate :
    (heap.vacate slot).generation? other =
      if slot = other then (heap.generation? other).map (· + 1) else heap.generation? other := by
  simp only [generation?, vacate, Array.getElem?_modify]
  split
  · cases heap.slots[other]? <;> simp
  · rfl

@[simp]
theorem size_vacate : (heap.vacate slot).slots.size = heap.slots.size := by
  simp [vacate]

end Slots

/-- The slot that the next object goes to. -/
def nextSlot (heap : Heap) : Nat :=
  heap.vacant.headD heap.slots.size

section Occupy

variable {heap : Heap} (node : HeapNode)

/-- The object is really stored, as the vacant slots lie within the array. -/
theorem node?_occupy (within : ∀ slot ∈ heap.vacant, slot < heap.slots.size) (other : Nat) :
    (heap.occupy node).2.node? other =
      if heap.nextSlot = other then some node else heap.node? other := by
  cases listed : heap.vacant with
  | nil =>
      simp only [occupy, listed, nextSlot, List.headD_nil, node?, Array.getElem?_push]
      by_cases same : heap.slots.size = other
      · simp [same]
      · have different : ¬ other = heap.slots.size := fun h => same h.symm
        simp [same, different]
  | cons first rest =>
      have inside : first < heap.slots.size := within first (by simp [listed])
      simp only [occupy, listed, nextSlot, List.headD_cons, node?, Array.getElem?_modify]
      split
      · next same => subst same; simp [inside]
      · rfl

@[simp]
theorem fst_occupy : (heap.occupy node).1 = heap.nextSlot := by
  cases listed : heap.vacant <;> simp [occupy, nextSlot, listed]

@[simp]
theorem limit_occupy : (heap.occupy node).2.limit = heap.limit := by
  cases listed : heap.vacant <;> simp [occupy, listed]

@[simp]
theorem vacant_occupy : (heap.occupy node).2.vacant = heap.vacant.tail := by
  cases listed : heap.vacant <;> simp [occupy, listed]

@[simp]
theorem highest_occupy : (heap.occupy node).2.highest = heap.highest := by
  cases listed : heap.vacant <;> simp [occupy, listed]

@[simp]
theorem lowest_occupy : (heap.occupy node).2.lowest = heap.lowest := by
  cases listed : heap.vacant <;> simp [occupy, listed]

theorem size_occupy : (heap.occupy node).2.slots.size =
    if heap.vacant = [] then heap.slots.size + 1 else heap.slots.size := by
  cases listed : heap.vacant <;> simp [occupy, listed]

end Occupy

/-- Placing an object: fill the next slot and link the neighbours of the gap to
    it. -/
theorem place_eq (heap : Heap) (gap : Gap) (object : HeapObject) :
    heap.place gap object =
      let placed := (((heap.occupy ⟨object, gap.above, gap.below⟩).2.setBelow gap.above
        (some heap.nextSlot)).setAbove gap.below (some heap.nextSlot)).counted
      (placed.handleOf heap.nextSlot, placed) := by
  have next : (heap.occupy ⟨object, gap.above, gap.below⟩).1 = heap.nextSlot := fst_occupy _
  rw [← next]
  rfl

end PocketScript.Heap
