import PocketScript.Memory.Region

/-! # Collection

A collection marks every object that can be reached from the roots and removes
the others. A list whose cell is marked already is not entered again, so a list
that holds itself ends the marking all the same.
-/

namespace PocketScript

namespace Heap

/-- Changing one entry of a list so that it counts only if it counted before. -/
theorem countP_modify_le {α : Type} {test : α → Bool} {change : α → α}
    (keeps : ∀ entry, test (change entry) = true → test entry = true) (entries : List α)
    (index : Nat) : (entries.modify index change).countP test ≤ entries.countP test := by
  induction entries generalizing index with
  | nil => simp
  | cons entry rest ih =>
      cases index with
      | zero =>
          have := keeps entry
          simp only [List.modify_zero_cons, List.countP_cons]
          split <;> split <;> simp_all
      | succ index =>
          have := ih index
          simp only [List.modify_succ_cons, List.countP_cons]
          omega

/-- Changing one entry of a list so that it does not count any more. -/
theorem countP_modify_lt {α : Type} {test : α → Bool} {change : α → α}
    {entries : List α} {index : Nat} {entry : α} (at_index : entries[index]? = some entry)
    (before : test entry = true) (after : test (change entry) = false) :
    (entries.modify index change).countP test < entries.countP test := by
  induction entries generalizing index with
  | nil => simp at at_index
  | cons first rest ih =>
      cases index with
      | zero =>
          obtain rfl : first = entry := by simpa using at_index
          simp [before, after]
      | succ index =>
          have := ih (by simpa using at_index)
          simp only [List.modify_succ_cons, List.countP_cons]
          omega

/-- The slot that a handle names, with its entry. -/
theorem slot_of_named {heap : Heap} {handle : Handle} {slot : Nat} {node : HeapNode}
    (named : heap.named? handle = some (slot, node)) :
    ∃ generation, handle = .entry slot generation ∧
      heap.slots[slot]? = some ⟨generation, some node⟩ := by
  cases handle with
  | dangling => simp [named?] at named
  | entry index generation =>
      simp only [named?, Option.bind_eq_some_iff, Option.filter_eq_some_iff, Option.map_eq_some_iff,
        beq_iff_eq, Prod.mk.injEq] at named
      obtain ⟨⟨_, content⟩, ⟨entry, rfl⟩, node, rfl, rfl, rfl⟩ := named
      exact ⟨_, rfl, entry⟩

/-- Marking an object never leaves more of them unmarked. -/
theorem unmarked_mark_le (heap : Heap) (handle : Handle) :
    (heap.mark handle).unmarked ≤ heap.unmarked := by
  simp only [mark, modify]
  split
  · simp only [unmarked, modifyNode, Array.toList_modify]
    refine countP_modify_le (fun entry counts => ?_) _ _
    cases h : entry.node? <;> simp [h] at counts
  · exact Nat.le_refl _

/-- Marking an object that was not marked leaves fewer of them unmarked. -/
theorem unmarked_mark_lt {heap : Heap} {handle : Handle} (can : heap.canMark handle = true) :
    (heap.mark handle).unmarked < heap.unmarked := by
  cases named : heap.named? handle with
  | none => simp [canMark, get?, named] at can
  | some found =>
      obtain ⟨slot, node⟩ := found
      obtain ⟨generation, -, entry⟩ := slot_of_named named
      have clear : node.object.reachable = false := by simpa [canMark, get?, named] using can
      have listed : heap.slots.toList[slot]? = some ⟨generation, some node⟩ := by simpa using entry
      simp only [mark, modify, named, unmarked, modifyNode, Array.toList_modify]
      refine countP_modify_lt listed ?_ ?_
      · simp [clear]
      · simp

/-- Changing one entry of a list so that its list keeps its length. -/
theorem foldr_modify {change : HeapSlot → HeapSlot}
    (same : ∀ entry, listLength (change entry) = listLength entry) (entries : List HeapSlot) (index : Nat) :
    (entries.modify index change).foldr (fun entry longest => max (listLength entry) longest) 0 =
      entries.foldr (fun entry longest => max (listLength entry) longest) 0 := by
  induction entries generalizing index with
  | nil => simp
  | cons entry rest ih =>
      cases index with
      | zero => simp [same]
      | succ index => simp [ih]

theorem listLength_le_foldr {entries : List HeapSlot} {index : Nat} {entry : HeapSlot}
    (at_index : entries[index]? = some entry) :
    listLength entry ≤ entries.foldr (fun entry longest => max (listLength entry) longest) 0 := by
  induction entries generalizing index with
  | nil => simp at at_index
  | cons first rest ih =>
      cases index with
      | zero =>
          obtain rfl : first = entry := by simpa using at_index
          exact Nat.le_max_left _ _
      | succ index => exact Nat.le_trans (ih (by simpa using at_index)) (Nat.le_max_right _ _)

/-- Marking changes no list. -/
theorem longest_mark (heap : Heap) (handle : Handle) : (heap.mark handle).longest = heap.longest := by
  simp only [mark, modify]
  split
  · simp only [longest, modifyNode, Array.toList_modify]
    refine foldr_modify (fun entry => ?_) _ _
    cases h : entry.node? <;> simp [listLength, h]
  · rfl

/-- No list is longer than the longest. -/
theorem length_le_longest (heap : Heap) (handle : Handle) :
    (((heap.get? handle).bind (·.payload.values?)).getD []).length ≤ heap.longest := by
  cases named : heap.named? handle with
  | none => simp [get?, named]
  | some found =>
      obtain ⟨slot, node⟩ := found
      obtain ⟨generation, -, entry⟩ := slot_of_named named
      have listed : heap.slots.toList[slot]? = some ⟨generation, some node⟩ := by simpa using entry
      have found : (heap.get? handle).bind (·.payload.values?) = node.object.payload.values? := by
        simp [get?, named]
      rw [found]
      exact listLength_le_foldr listed

/-- What one value on the stack leads to: the heap with the value's objects
    marked and the values to visit because of it. -/
def visit (heap : Heap) : Value → Heap × List Value
  | .string cell =>
    match heap.target? cell with
    | some object => ((heap.mark cell).mark object, [])
    | none => (heap.mark cell, [])
  | .list cell =>
    if heap.canMark cell then
      match heap.target? cell with
      | some object =>
        ((heap.mark cell).mark object,
          (((heap.get? object).bind (·.payload.values?)).getD []).reverse)
      | none => (heap.mark cell, [])
    else (heap, [])
  | _ => (heap, [])

/-- A visit leads to more values only if it marks an object, and then to no more
    than the longest list holds. -/
theorem work_visit (heap : Heap) (value : Value) :
    (heap.visit value).1.longest = heap.longest ∧ (heap.visit value).2.length ≤ heap.longest ∧
      ((heap.visit value).1.unmarked < heap.unmarked ∨
        (heap.visit value).1.unmarked ≤ heap.unmarked ∧ (heap.visit value).2 = []) := by
  cases value with
  | string cell =>
    simp only [visit]
    split
    · refine ⟨?_, Nat.zero_le _, .inr ⟨Nat.le_trans (unmarked_mark_le _ _) (unmarked_mark_le _ _), rfl⟩⟩
      rw [longest_mark, longest_mark]
    · exact ⟨longest_mark _ _, Nat.zero_le _, .inr ⟨unmarked_mark_le _ _, rfl⟩⟩
  | list cell =>
    simp only [visit]
    split
    · next can =>
      split
      · refine ⟨?_, ?_, .inl (Nat.lt_of_le_of_lt (unmarked_mark_le _ _) (unmarked_mark_lt can))⟩
        · rw [longest_mark, longest_mark]
        · rw [List.length_reverse]
          exact length_le_longest heap _
      · exact ⟨longest_mark _ _, Nat.zero_le _, .inl (unmarked_mark_lt can)⟩
    · exact ⟨rfl, Nat.zero_le _, .inr ⟨Nat.le_refl _, rfl⟩⟩
  | missing | number _ | function _ => exact ⟨rfl, Nat.zero_le _, .inr ⟨Nat.le_refl _, rfl⟩⟩

/-- Mark what a stack of values reaches, the top of the stack first. -/
def markAll (heap : Heap) : (pending : List Value) → Heap
  | [] => heap
  | value :: rest => markAll (heap.visit value).1 ((heap.visit value).2 ++ rest)
  -- Every object still to be marked stands for itself and the longest list.
  termination_by pending => heap.unmarked * (heap.longest + 1) + pending.length
  decreasing_by
    obtain ⟨longest, few, fewer | ⟨atMost, none⟩⟩ := work_visit heap value
    · have less := Nat.mul_le_mul_right (heap.longest + 1) fewer
      rw [Nat.succ_mul] at less
      rw [longest, List.length_append, List.length_cons]
      omega
    · have less := Nat.mul_le_mul_right (heap.longest + 1) atMost
      rw [longest, none, List.nil_append, List.length_cons]
      omega

end Heap

namespace Memory

/-- The values that a root keeps, in the order of registration. -/
def rootValues (memory : Memory) : Root → List Value
  | .value value => [value]
  | .values values => values
  | .scope index =>
    match memory.stack.scopes[index]? with
    | some scope => scope.bindings.toList.map (·.value)
    | none => []

/-- Remove every object that no root reaches. -/
def collect (memory : Memory) : Swept × Memory :=
  let values := memory.roots.toList.flatMap memory.rootValues
  let (swept, heap) := (memory.heap.clearMarks.markAll values.reverse).sweep
  (swept, { memory with heap })

end Memory

end PocketScript
