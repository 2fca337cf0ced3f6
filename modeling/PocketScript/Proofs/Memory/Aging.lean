import PocketScript.Proofs.Heap.Aging
import PocketScript.Proofs.Memory.Sequences

/-! # Handles in memory are given out once

What operations on strings and lists do to the handles that were given out: they
remain so, and a new string or list is in a cell whose handle was not given out
before, unless so many objects were allocated that handles come again.
-/

namespace PocketScript

namespace Heap

variable {heap after : Heap} {handle : Handle} {floor size : Nat} {payload : Payload}

theorem allocations_allocate (allocated : heap.allocate size payload floor = .ok (handle, after)) :
    after.allocations = heap.allocations + 1 := by
  obtain ⟨gap, object, placed⟩ := place_of_allocate allocated
  have grown := allocations_place heap gap object
  rwa [placed] at grown

/-- An object that becomes larger is allocated again. -/
theorem allocations_resize {moved : Handle} {object : HeapObject} (found : heap.get? handle = some object)
    (resized : heap.resize handle size floor = .ok (moved, after)) :
    after.allocations = heap.allocations + (if object.size < size then 1 else 0) := by
  simp only [Heap.resize, found] at resized
  by_cases fits : size ≤ object.size
  · rw [if_pos fits] at resized
    obtain ⟨rfl, rfl⟩ := Prod.mk.inj (Except.ok.inj resized)
    rw [allocations_modify, if_neg (Nat.not_lt.mpr fits), Nat.add_zero]
  · rw [if_neg fits] at resized
    rw [if_pos (Nat.lt_of_not_le fits)]
    cases allocated : heap.allocate size (placeholder object.payload handle) floor with
    | error error => simp [allocated, bind, Except.bind] at resized
    | ok placed =>
        obtain ⟨place, grown⟩ := placed
        simp only [allocated, bind, Except.bind, pure, Except.pure, Except.ok.injEq, Prod.mk.injEq] at resized
        obtain ⟨rfl, rfl⟩ := resized
        rw [allocations_modify, allocations_deallocate, allocations_allocate allocated]

theorem allocations_le_resize {moved : Handle} (resized : heap.resize handle size floor = .ok (moved, after)) :
    heap.allocations ≤ after.allocations := by
  cases found : heap.get? handle with
  | none => simp [Heap.resize, found] at resized
  | some object => exact Nat.le.intro (allocations_resize found resized).symm

theorem allocations_remove (entries : List (Handle × HeapObject)) (heap : Heap) :
    (heap.remove entries).2.allocations = heap.allocations := by
  induction entries generalizing heap with
  | nil => rfl
  | cons entry rest ih =>
      obtain ⟨handle, object⟩ := entry
      rw [remove]
      split
      · exact (ih _).trans (allocations_deallocate heap handle)
      · exact ih heap

end Heap

namespace Memory

open MemoryM

variable {memory : Memory} {α : Type}

theorem allocations_collect (memory : Memory) : memory.collect.2.heap.allocations = memory.heap.allocations := by
  have marked : (memory.heap.clearMarks.markAll (memory.roots.toList.flatMap memory.rootValues).reverse).allocations =
      memory.heap.clearMarks.allocations :=
    Heap.markAll_induction (fun heap handle same => (Heap.allocations_modify heap handle _).trans same) _ _ rfl
  exact (Heap.allocations_remove _ _).trans (marked.trans (Heap.allocations_foldl_setMark _ _ _))

/-- Spent allocations stay spent. -/
theorem stable_spent : Stable fun memory => memory.heap.Spent := by
  refine ⟨fun size payload memory spent => ?_, fun handle size memory spent => ?_, fun cell object => ?_,
    fun cell payload => ?_⟩
  · exact .onHeap (fun _ _ ran => Nat.le_trans spent (Nat.le.intro (Heap.allocations_allocate ran).symm)) fun _ _ => spent
  · exact .onHeap (fun _ _ ran => Nat.le_trans spent (Heap.allocations_le_resize ran)) fun _ _ => spent
  · refine .modify fun memory spent => ?_
    rw [Heap.Spent, Heap.setTarget, Heap.allocations_modify]
    exact spent
  · refine .modify fun memory spent => ?_
    split
    · rw [Heap.Spent, Heap.allocations_modify]
      exact spent
    · exact spent

theorem aged_modify {heap : Heap} (before : memory.heap.Pooled ∧ heap.Ages memory.heap) (handle : Handle)
    (change : HeapObject → HeapObject) :
    (memory.heap.modify handle change).Pooled ∧ heap.Ages (memory.heap.modify handle change) :=
  ⟨before.1.modify handle change, before.2.trans (before.2.counted.modify handle change)⟩

/-- What was given out remains so. -/
theorem stable_ages (heap : Heap) : Stable fun memory => memory.heap.Pooled ∧ heap.Ages memory.heap := by
  refine ⟨fun size payload memory before => ?_, fun handle size memory before => ?_, fun cell object => ?_,
    fun cell payload => ?_⟩
  · refine .onHeap (fun handle after ran => ?_) fun _ _ => before
    obtain ⟨more, pooled, -⟩ := before.2.counted.allocate before.1 ran
    exact ⟨pooled, before.2.trans more⟩
  · refine .onHeap (fun moved after ran => ?_) fun _ _ => before
    obtain ⟨more, pooled⟩ := before.2.counted.resize before.1 ran
    exact ⟨pooled, before.2.trans more⟩
  · exact .modify fun memory before => aged_modify before cell ({ · with payload := .target object })
  · refine .modify fun memory before => ?_
    split
    · next object _ => exact aged_modify before object ({ · with payload })
    · exact before

/-- Cells own what they stand for, and no slot was filled more often than objects
    were allocated. -/
structure Tidy (memory : Memory) : Prop where
  separate : memory.Separate
  counted : memory.heap.Counted

theorem tidy_empty (size : Nat) : (empty size).Tidy :=
  ⟨separate_empty size, Heap.counted_empty size⟩

/-- The string or list that a value holds is in a cell that was not given out
    before. -/
def New (memory : Memory) (value : Value) : Prop :=
  ∃ cell, value.cell? = some cell ∧ ¬ memory.heap.Issued cell

namespace Tidy

theorem ages (tidy : memory.Tidy) {operation : MemoryM α}
    (keeps : Keeps (fun after => after.heap.Pooled ∧ memory.heap.Ages after.heap) operation) :
    Ends operation memory (fun _ after => memory.heap.Ages after.heap) fun _ after => memory.heap.Ages after.heap :=
  (keeps memory ⟨tidy.separate.heap.pooled, .refl tidy.counted⟩).mono (fun _ _ kept => kept.2) fun _ _ kept => kept.2

theorem edit (tidy : memory.Tidy) (edit : Edit) :
    Ends edit.run memory (fun _ after => memory.heap.Ages after.heap) fun _ after => memory.heap.Ages after.heap := by
  have stable := stable_ages memory.heap
  refine tidy.ages ?_
  cases edit with
  | insertElement sequence index element => exact stable.insertElement sequence index element
  | insertSequence sequence index other => exact stable.insertSequence sequence index other
  | removeSlice sequence start finish => exact stable.removeSlice sequence start finish
  | setByte cell index byte => exact stable.setByte cell index byte
  | setElement cell index value => exact stable.setElement cell index value

theorem createSequence (tidy : memory.Tidy) (size : Nat) (payload : Payload) :
    Ends (createSequence size payload) memory
      (fun cell after => ¬ memory.heap.Issued cell ∧ memory.heap.Ages after.heap) fun _ _ => True := by
  have aged := tidy.ages ((stable_ages memory.heap).createSequence size payload)
  have fresh : Ends (Memory.createSequence size payload) memory (fun cell _ => ¬ memory.heap.Issued cell)
      fun _ _ => True := by
    refine Ends.bind (Ends.onHeap (fun cell after ran => ?_) fun _ _ => trivial)
    obtain ⟨-, -, fresh⟩ := tidy.counted.allocate tidy.separate.heap.pooled ran
    exact Ends.bind (Ends.onHeap (fun _ _ _ => fresh) fun _ _ => trivial)
  exact (fresh.and aged).mono (fun _ _ both => both) fun _ _ _ => trivial

/-- A new string or list is in a new cell. -/
theorem makes (tidy : memory.Tidy) (make : Handle → Value) (named : ∀ cell, (make cell).cell? = some cell)
    (size : Nat) (payload : Payload) :
    Ends (do return make (← Memory.createSequence size payload)) memory
      (fun value after => memory.New value ∧ memory.heap.Ages after.heap) fun _ _ => True := by
  refine Ends.bind ((tidy.createSequence size payload).mono ?_ fun _ _ _ => trivial)
  rintro cell after ⟨fresh, ages⟩
  exact ⟨⟨cell, named cell, fresh⟩, ages⟩

theorem copy (tidy : memory.Tidy) (copy : Copy) :
    Ends copy.run memory (fun value after => memory.New value ∧ memory.heap.Ages after.heap) fun _ _ => True := by
  have string := tidy.makes .string fun _ => rfl
  have list := tidy.makes .list fun _ => rfl
  cases copy with
  | slice sequence start finish =>
      cases sequence with
      | missing | number _ | function _ => trivial
      | string cell =>
          exact Ends.bind (.look (fun bytes _ => .bind (.look (fun range _ => string _ _) fun _ _ => trivial))
            fun _ _ => trivial)
      | list cell =>
          exact Ends.bind (.look (fun values _ => .bind (.look (fun range _ => list _ _) fun _ _ => trivial))
            fun _ _ => trivial)
  | whole sequence =>
      cases sequence with
      | missing | number _ | function _ => trivial
      | string cell => exact Ends.bind (.look (fun bytes _ => string _ _) fun _ _ => trivial)
      | list cell => exact Ends.bind (.look (fun values _ => list _ _) fun _ _ => trivial)
  | concatenation left right =>
      exact Ends.bind (.look (fun front _ => .bind (.look (fun back _ => string _ _) fun _ _ => trivial))
        fun _ _ => trivial)

theorem collect (tidy : memory.Tidy) : memory.collect.2.Tidy ∧ memory.heap.Ages memory.collect.2.heap := by
  have cleared := tidy.counted.clearMarks
  have marked := cleared.counted.markAll (memory.roots.toList.flatMap memory.rootValues).reverse
  have ages := cleared.trans (marked.trans marked.counted.sweep)
  exact ⟨⟨tidy.separate.collect, ages.counted⟩, ages⟩

end Tidy

end Memory

end PocketScript
