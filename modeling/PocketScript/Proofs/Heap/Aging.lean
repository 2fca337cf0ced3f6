import PocketScript.Proofs.Heap.Sweeping

/-! # Handles are given out once

A slot that is given up enters its next generation. As long as fewer objects
were allocated than a slot has generations, no handle is given out a second
time: a handle whose object is gone will never name another one.
-/

namespace PocketScript.Heap

variable {heap after last : Heap} {handle : Handle} {floor size : Nat} {payload : Payload}

/-- How many generations a slot has before it is in its first one again. -/
def generations : Nat := UInt32.size

/-- So many objects were allocated that handles may be given out again. -/
def Spent (heap : Heap) : Prop :=
  generations ≤ heap.allocations

/-- A handle was given to an object, which may be gone by now. -/
def Issued (heap : Heap) : Handle → Prop
  | .dangling => False
  | .entry slot generation => ∃ current, heap.generation? slot = some current ∧
      (generation < current ∨ generation = current ∧ (heap.object? slot).isSome)

/-- No slot was filled more often than objects were allocated. -/
def Counted (heap : Heap) : Prop :=
  ∀ slot generation, heap.generation? slot = some generation →
    generation.toNat + (heap.object? slot).isSome.toNat ≤ heap.allocations

/-- What operations on the heap lead to: handles that were given out remain so,
    unless allocations are spent. -/
structure Ages (heap after : Heap) : Prop where
  counted : after.Counted
  allocations : heap.allocations ≤ after.allocations
  issued : ¬ after.Spent → ∀ handle, heap.Issued handle → after.Issued handle

theorem issued_of_get? {object : HeapObject} (found : heap.get? handle = some object) : heap.Issued handle := by
  cases handle with
  | dangling => cases found
  | entry slot generation =>
      rw [get?_entry] at found
      split at found
      · next current => exact ⟨generation, current, .inr ⟨rfl, by simp [found]⟩⟩
      · cases found

theorem counted_empty (limit : Nat) : (empty limit).Counted := by
  intro slot generation current
  simp [generation?, empty] at current

namespace Ages

theorem refl (counted : heap.Counted) : heap.Ages heap :=
  ⟨counted, Nat.le_refl _, fun _ _ issued => issued⟩

theorem trans (first : heap.Ages after) (second : after.Ages last) : heap.Ages last := by
  refine ⟨second.counted, Nat.le_trans first.allocations second.allocations, fun unspent handle issued => ?_⟩
  refine second.issued unspent handle (first.issued (fun spent => unspent ?_) handle issued)
  exact Nat.le_trans spent second.allocations

/-- Only generations and occupied slots matter. -/
theorem ofViews (counted : heap.Counted) (generation : ∀ slot, after.generation? slot = heap.generation? slot)
    (occupied : ∀ slot, (after.object? slot).isSome = (heap.object? slot).isSome)
    (allocations : after.allocations = heap.allocations) : heap.Ages after := by
  refine ⟨fun slot found current => ?_, Nat.le_of_eq allocations.symm, fun _ handle issued => ?_⟩
  · rw [generation] at current
    rw [occupied, allocations]
    exact counted slot found current
  · cases handle with
    | dangling => exact issued
    | entry slot found =>
        obtain ⟨current, here, older⟩ := issued
        exact ⟨current, by rw [generation, here], by rwa [occupied]⟩

end Ages

@[simp]
theorem allocations_modify (heap : Heap) (handle : Handle) (change : HeapObject → HeapObject) :
    (heap.modify handle change).allocations = heap.allocations := by
  rw [modify]
  split
  · rfl
  · rfl

@[simp]
theorem size_modify (heap : Heap) (handle : Handle) (change : HeapObject → HeapObject) :
    (heap.modify handle change).slots.size = heap.slots.size := by
  rw [modify]
  split
  · exact size_modifyNode _ _ _
  · rfl

theorem generation?_modify (heap : Heap) (handle : Handle) (change : HeapObject → HeapObject) (slot : Nat) :
    (heap.modify handle change).generation? slot = heap.generation? slot := by
  rw [modify]
  split
  · exact generation?_modifyNode _ _ _ _
  · rfl

theorem isSome_object?_modify (heap : Heap) (handle : Handle) (change : HeapObject → HeapObject) (slot : Nat) :
    ((heap.modify handle change).object? slot).isSome = (heap.object? slot).isSome := by
  rw [modify]
  split
  · rw [object?, object?, node?_modifyNode]
    split
    · simp
    · rfl
  · rfl

theorem Pooled.modify (pooled : heap.Pooled) (handle : Handle) (change : HeapObject → HeapObject) :
    (heap.modify handle change).Pooled := by
  have vacant : (heap.modify handle change).vacant = heap.vacant := by
    rw [Heap.modify]
    split <;> rfl
  have free : ∀ slot, (heap.modify handle change).node? slot = none ↔ heap.node? slot = none := by
    intro slot
    rw [node?_eq_none_iff, node?_eq_none_iff, ← Option.not_isSome_iff_eq_none, isSome_object?_modify,
      Option.not_isSome_iff_eq_none]
  refine ⟨vacant ▸ pooled.nodup, fun slot => ?_⟩
  rw [vacant, size_modify, free]
  exact pooled.mem_iff slot

theorem Counted.modify (counted : heap.Counted) (handle : Handle) (change : HeapObject → HeapObject) :
    heap.Ages (heap.modify handle change) :=
  .ofViews counted (generation?_modify _ _ _) (isSome_object?_modify _ _ _) (allocations_modify _ _ _)

@[simp]
theorem allocations_setBelow (heap : Heap) (slot? link : Option Nat) :
    (heap.setBelow slot? link).allocations = heap.allocations := by
  rw [setBelow]
  split <;> rfl

@[simp]
theorem allocations_setAbove (heap : Heap) (slot? link : Option Nat) :
    (heap.setAbove slot? link).allocations = heap.allocations := by
  rw [setAbove]
  split <;> rfl

theorem allocations_place (heap : Heap) (gap : Gap) (object : HeapObject) :
    (heap.place gap object).2.allocations = heap.allocations + 1 := by
  have occupied : ∀ node, (heap.occupy node).2.allocations = heap.allocations := by
    intro node
    cases listed : heap.vacant <;> simp [occupy, listed]
  rw [place_eq]
  simp [Heap.counted, occupied]

theorem allocations_deallocate (heap : Heap) (handle : Handle) :
    (heap.deallocate handle).allocations = heap.allocations := by
  rw [deallocate]
  split
  · simp [vacate]
  · rfl

/-- A new slot is in its first generation; another one stays in the generation it
    is in. -/
theorem generation?_place_nextSlot (pooled : heap.Pooled) (gap : Gap) (object : HeapObject) :
    (heap.place gap object).2.generation? heap.nextSlot = some ((heap.generation? heap.nextSlot).getD 0) := by
  rw [generation?_place]
  cases listed : heap.vacant with
  | nil => simp [occupy, nextSlot, listed, generation?]
  | cons first rest =>
      have inside : first < heap.slots.size := pooled.within first (by simp [listed])
      simp only [occupy, nextSlot, listed, List.headD_cons, generation?, Array.getElem?_modify, if_true,
        Array.getElem?_eq_getElem inside, Option.map_some, Option.getD_some]

/-- The handle of a new object was not given out before. -/
theorem Counted.place (counted : heap.Counted) (pooled : heap.Pooled) (gap : Gap) (object : HeapObject) :
    heap.Ages (heap.place gap object).2 ∧ ¬ heap.Issued (heap.place gap object).1 := by
  have here := generation?_place_nextSlot pooled gap object
  have elsewhere : ∀ slot, slot ≠ heap.nextSlot →
      (heap.place gap object).2.generation? slot = heap.generation? slot := fun slot different => by
    rw [generation?_place, Pooled.generation?_occupy_of_ne _ different]
  have empty := pooled.object?_nextSlot
  have named : (heap.place gap object).1 = .entry heap.nextSlot ((heap.generation? heap.nextSlot).getD 0) := by
    rw [fst_place, handleOf_eq here]
  refine ⟨⟨fun slot generation current => ?_, ?_, fun _ handle issued => ?_⟩, ?_⟩
  · rw [allocations_place, object?_place pooled.within]
    by_cases same : slot = heap.nextSlot
    · rw [same, here, Option.some.injEq] at current
      rw [if_pos same.symm, ← current]
      cases before : heap.generation? heap.nextSlot with
      | none => simp
      | some old =>
          have := counted heap.nextSlot old before
          rw [empty] at this
          simpa using this
    · rw [elsewhere slot same] at current
      rw [if_neg (Ne.symm same)]
      exact Nat.le_succ_of_le (counted slot generation current)
  · rw [allocations_place]
    exact Nat.le_succ _
  · cases handle with
    | dangling => exact issued
    | entry slot generation =>
        obtain ⟨current, before, older⟩ := issued
        by_cases same : slot = heap.nextSlot
        · subst same
          refine ⟨current, by rw [here, before]; rfl, .inl (older.resolve_right ?_)⟩
          simp [empty]
        · refine ⟨current, by rw [elsewhere slot same, before], ?_⟩
          rwa [object?_place pooled.within, if_neg (Ne.symm same)]
  · rw [named]
    rintro ⟨current, before, older⟩
    rw [before, empty] at older
    simp at older

theorem toNat_lt_add_one {generation : UInt32} (room : generation.toNat + 1 < UInt32.size) :
    (generation + 1).toNat = generation.toNat + 1 := by
  rw [UInt32.toNat_add]
  exact Nat.mod_eq_of_lt room

/-- A slot that is given up enters the next generation, unless it was in the last
    one. -/
theorem Counted.deallocate (counted : heap.Counted) (handle : Handle) : heap.Ages (heap.deallocate handle) := by
  cases named : heap.named? handle with
  | none =>
      rw [deallocate_of_unnamed (by simp [get?, named])]
      exact .refl counted
  | some found =>
      obtain ⟨slot, node⟩ := found
      obtain ⟨-, occupied⟩ := handleOf_of_named named
      have held : heap.object? slot = some node.object := by simp [object?, occupied]
      refine ⟨fun other generation current => ?_, Nat.le_of_eq (allocations_deallocate _ _).symm,
        fun unspent other issued => ?_⟩
      · rw [allocations_deallocate, object?_deallocate named]
        rw [generation?_deallocate named] at current
        by_cases same : slot = other
        · subst same
          rw [if_pos rfl] at current ⊢
          obtain ⟨old, before, rfl⟩ := Option.map_eq_some_iff.mp current
          have room := counted slot old before
          have small : (old + 1).toNat ≤ old.toNat + 1 := by
            rw [UInt32.toNat_add]
            exact Nat.mod_le _ _
          simp only [held, Option.isSome_some, Bool.toNat_true, Option.isSome_none, Bool.toNat_false] at room ⊢
          omega
        · rw [if_neg same] at current ⊢
          exact counted other generation current
      · cases other with
        | dangling => exact issued
        | entry other generation =>
            obtain ⟨current, before, older⟩ := issued
            by_cases same : slot = other
            · subst same
              refine ⟨current + 1, by rw [generation?_deallocate named, if_pos rfl, before]; rfl, .inl ?_⟩
              have room := counted slot current before
              have few : heap.allocations < UInt32.size := by
                rw [Spent, allocations_deallocate] at unspent
                exact Nat.lt_of_not_le unspent
              simp only [held, Option.isSome_some, Bool.toNat_true] at room
              rw [UInt32.lt_iff_toNat_lt, toNat_lt_add_one (Nat.lt_of_le_of_lt room few)]
              rcases older with older | ⟨rfl, -⟩
              · exact Nat.lt_succ_of_lt (UInt32.lt_iff_toNat_lt.mp older)
              · exact Nat.lt_succ_self _
            · refine ⟨current, by rw [generation?_deallocate named, if_neg same, before], ?_⟩
              rwa [object?_deallocate named, if_neg same]

theorem place_of_allocate (allocated : heap.allocate size payload floor = .ok (handle, after)) :
    ∃ gap object, heap.place gap object = (handle, after) := by
  unfold allocate at allocated
  cases found : heap.findGap size (heap.slots.size + 1) none heap.highest with
  | error error => simp [found, bind, Except.bind] at allocated
  | ok gap =>
      simp only [found, bind, Except.bind] at allocated
      split at allocated
      · cases allocated
      · exact ⟨gap, _, Except.ok.inj allocated⟩

theorem Counted.allocate (counted : heap.Counted) (pooled : heap.Pooled)
    (allocated : heap.allocate size payload floor = .ok (handle, after)) :
    heap.Ages after ∧ after.Pooled ∧ ¬ heap.Issued handle := by
  obtain ⟨gap, object, placed⟩ := place_of_allocate allocated
  obtain ⟨ages, fresh⟩ := counted.place pooled gap object
  have still := pooled.place gap object
  rw [placed] at ages fresh still
  exact ⟨ages, still, fresh⟩

theorem Counted.resize (counted : heap.Counted) (pooled : heap.Pooled) {moved : Handle}
    (resized : heap.resize handle size floor = .ok (moved, after)) : heap.Ages after ∧ after.Pooled := by
  unfold Heap.resize at resized
  split at resized
  · cases resized
  · next object found =>
    split at resized
    · obtain ⟨rfl, rfl⟩ := Prod.mk.inj (Except.ok.inj resized)
      exact ⟨counted.modify _ _, pooled.modify _ _⟩
    · cases allocated : heap.allocate size (placeholder object.payload handle) floor with
      | error error => simp [allocated, bind, Except.bind] at resized
      | ok placed =>
          obtain ⟨place, grown⟩ := placed
          simp only [allocated, bind, Except.bind, pure, Except.pure, Except.ok.injEq, Prod.mk.injEq] at resized
          obtain ⟨rfl, rfl⟩ := resized
          obtain ⟨ages, still, -⟩ := counted.allocate pooled allocated
          have removed := ages.counted.deallocate handle
          exact ⟨ages.trans (removed.trans (removed.counted.modify _ _)), (still.deallocate handle).modify _ _⟩

theorem allocations_foldl_setMark (reachable : Bool) (slots : List Nat) (heap : Heap) :
    (slots.foldl (setMark · reachable) heap).allocations = heap.allocations := by
  induction slots generalizing heap with
  | nil => rfl
  | cons slot rest ih => exact ih _

theorem Counted.clearMarks (counted : heap.Counted) : heap.Ages heap.clearMarks := by
  refine .ofViews counted (fun slot => ?_) (fun slot => ?_) (allocations_foldl_setMark _ _ _)
  · exact generation?_foldl_setMark _ _ _ _
  · rw [Heap.clearMarks, object?_foldl_setMark]
    split <;> simp

theorem Counted.markAll (counted : heap.Counted) (pending : List Value) : heap.Ages (heap.markAll pending) :=
  markAll_induction (fun _ handle ages => ages.trans (ages.counted.modify handle _)) heap pending (.refl counted)

theorem Counted.remove (counted : heap.Counted) (entries : List (Handle × HeapObject)) :
    heap.Ages (heap.remove entries).2 := by
  induction entries generalizing heap with
  | nil => exact .refl counted
  | cons entry rest ih =>
      obtain ⟨handle, object⟩ := entry
      rw [Heap.remove]
      split
      · have removed := counted.deallocate handle
        exact removed.trans (ih removed.counted)
      · exact ih counted

theorem Counted.sweep (counted : heap.Counted) : heap.Ages heap.sweep.2 := by
  unfold Heap.sweep
  generalize heap.objects.filter _ = removed
  have ages := counted.remove removed
  exact ages.trans (.ofViews ages.counted (fun _ => rfl) (fun _ => rfl) rfl)

theorem allocations_reset (heap : Heap) : heap.reset.allocations = heap.allocations := by
  have vacated : ∀ slots : List Nat, (slots.foldl vacate heap).allocations = heap.allocations := by
    intro slots
    induction slots generalizing heap with
    | nil => rfl
    | cons slot rest ih => exact ih (heap.vacate slot)
  exact vacated heap.occupied

end PocketScript.Heap
