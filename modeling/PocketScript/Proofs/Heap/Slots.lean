import PocketScript.Proofs.Heap.Aging

/-! # How many slots there are

A new slot is taken only if each of the others holds an object, and each object takes at
least the bytes of its header. So there are never more slots than headers fit into memory,
and the number of a slot fits into 32 bits unless memory has 2³⁵ bytes.
-/

namespace PocketScript.Heap

variable {heap after : Heap} {handle moved : Handle} {object : HeapObject} {ceiling size floor : Nat}
  {payload : Payload} {order : List Nat}

/-- There are no more slots than headers fit into a number of bytes. -/
def Fits (bytes : Nat) (heap : Heap) : Prop :=
  heap.slots.size * HeapObject.headerSize ≤ bytes

theorem Spaced.length_le (spaced : heap.Spaced ceiling order) :
    order.length * HeapObject.headerSize ≤ ceiling := by
  induction order generalizing ceiling with
  | nil => simp
  | cons slot rest ih =>
      obtain ⟨object, -, header, below, lower⟩ := spaced
      have fewer := ih lower
      simp only [List.length_cons, HeapObject.top, HeapObject.bottom, HeapObject.headerSize] at *
      omega

/-- If no slot is vacant, each of them holds one of the objects. -/
theorem WellFormed.fits (wellFormed : heap.WellFormed) (full : heap.vacant = []) : heap.Fits heap.limit := by
  have held : List.range heap.slots.size ⊆ heap.order := by
    intro slot inside
    have taken : heap.node? slot ≠ none := fun none => by
      simpa [full] using (wellFormed.pooled.mem_iff slot).mpr ⟨List.mem_range.mp inside, none⟩
    obtain ⟨node, occupied⟩ := Option.ne_none_iff_exists'.mp taken
    exact wellFormed.chained.mem_of_node occupied
  have fewer : heap.slots.size ≤ heap.order.length := by
    simpa using (List.subperm_of_subset List.nodup_range held).length_le
  exact Nat.le_trans (Nat.mul_le_mul_right _ fewer) wellFormed.spaced.length_le

theorem Fits.allocate (fits : heap.Fits heap.limit) (wellFormed : heap.WellFormed)
    (allocated : heap.allocate size payload floor = .ok (handle, after)) :
    after.Fits after.limit ∧ after.limit = heap.limit := by
  obtain ⟨gap, object, placed⟩ := place_of_allocate allocated
  obtain rfl : (heap.place gap object).2 = after := congrArg Prod.snd placed
  have limit : (heap.place gap object).2.limit = heap.limit := limit_place gap object
  refine ⟨?_, limit⟩
  by_cases full : heap.vacant = []
  · -- All slots were taken, and so is the new one.
    have sound : (heap.place gap object).2.WellFormed := by
      rcases wellFormed.allocate size payload floor with refused | ⟨_, _, _, given, new⟩
      · rw [refused] at allocated
        cases allocated
      · obtain ⟨rfl, rfl⟩ := Prod.mk.inj (Except.ok.inj (allocated.symm.trans given))
        exact new.wellFormed
    exact sound.fits (by rw [vacant_place, full, List.tail_nil])
  · rw [Fits, size_place, if_neg full, limit]
    exact fits

@[simp]
theorem size_deallocate (heap : Heap) (handle : Handle) :
    (heap.deallocate handle).slots.size = heap.slots.size := by
  rw [deallocate]
  split
  · simp
  · rfl

theorem size_remove (heap : Heap) (entries : List (Handle × HeapObject)) :
    (heap.remove entries).2.slots.size = heap.slots.size := by
  induction entries generalizing heap with
  | nil => rfl
  | cons entry rest ih =>
      rw [remove]
      split
      · exact (ih _).trans (size_deallocate heap entry.1)
      · exact ih heap

theorem size_clearMarks (heap : Heap) : heap.clearMarks.slots.size = heap.slots.size := by
  have marked (slots : List Nat) : (slots.foldl (setMark · false) heap).slots.size = heap.slots.size := by
    induction slots generalizing heap with
    | nil => rfl
    | cons slot rest ih => exact (ih _).trans (size_modifyNode _ _ _)
  exact marked heap.order

theorem Fits.resize (fits : heap.Fits heap.limit) (wellFormed : heap.WellFormed)
    (resized : heap.resize handle size floor = .ok (moved, after)) :
    after.Fits after.limit ∧ after.limit = heap.limit := by
  unfold Heap.resize at resized
  split at resized
  · cases resized
  · next object found =>
    split at resized
    · obtain ⟨rfl, rfl⟩ := Prod.mk.inj (Except.ok.inj resized)
      rw [Fits, size_modify, limit_modify]
      exact ⟨fits, rfl⟩
    · cases allocated : heap.allocate size (placeholder object.payload handle) floor with
      | error error => simp [allocated, bind, Except.bind] at resized
      | ok placed =>
          simp only [allocated, bind, Except.bind, pure, Except.pure, Except.ok.injEq, Prod.mk.injEq] at resized
          obtain ⟨rfl, rfl⟩ := resized
          have grown := fits.allocate wellFormed allocated
          rwa [Fits, size_modify, size_deallocate, limit_modify, limit_deallocate]

end PocketScript.Heap
