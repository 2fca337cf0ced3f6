import PocketScript.Proofs.Heap.Slots

/-! # Handles of objects that are gone

A slot is used again once its object is gone, under its next generation. Counting how
often each slot was given up tells all generations apart until one slot was given up
2³² times. Up to then no handle is given out a second time, and a handle whose object
is gone names nothing again, whatever operations follow.
-/

namespace PocketScript

/-- An operation on the heap. -/
inductive HeapOperation where
  | allocate (size : Nat) (payload : Payload) (floor : Nat)
  | resize (handle : Handle) (size floor : Nat)
  | deallocate (handle : Handle)
  | setTarget (cell object : Handle)
  | mark (handle : Handle)
  | clearMarks
  | sweep
  | reset

namespace HeapOperation

/-- The handle that is given to an object at a new place, and the heap afterwards. An
    object that does not grow stays where it is. -/
def run (heap : Heap) : HeapOperation → Option Handle × Heap
  | allocate size payload floor =>
    match heap.allocate size payload floor with
    | .ok (handle, after) => (some handle, after)
    | .error _ => (none, heap)
  | resize handle size floor =>
    match heap.resize handle size floor with
    | .ok (moved, after) => (if (heap.get? handle).any (·.size < size) then some moved else none, after)
    | .error _ => (none, heap)
  | deallocate handle => (none, heap.deallocate handle)
  | setTarget cell object => (none, heap.setTarget cell object)
  | mark handle => (none, heap.mark handle)
  | clearMarks => (none, heap.clearMarks)
  | sweep => (none, heap.sweep.2)
  | reset => (none, heap.reset)

/-- The object with a handle is removed, or it grows and moves. -/
def Removes (heap : Heap) (handle : Handle) : HeapOperation → Prop
  | deallocate other => other = handle
  | resize other size floor => other = handle ∧ (heap.get? handle).any (·.size < size) = true ∧
      (heap.resize handle size floor).isOk = true
  | sweep => heap.isMarked handle = false
  | reset => True
  | allocate _ _ _ | setTarget _ _ | mark _ | clearMarks => False

end HeapOperation

namespace Heap

variable {heap after last : Heap} {handle moved : Handle} {object : HeapObject} {slot size floor : Nat}
  {operation : HeapOperation} {operations : List HeapOperation}

/-- The heap after operations. -/
def performed (heap : Heap) (operations : List HeapOperation) : Heap :=
  operations.foldl (fun heap operation => (operation.run heap).2) heap

/-- The handles that operations give to objects at new places. -/
def issued (heap : Heap) : List HeapOperation → List Handle
  | [] => []
  | operation :: rest => (operation.run heap).1.toList ++ (operation.run heap).2.issued rest

/-- A slot holds an object. -/
def holds (heap : Heap) (slot : Nat) : Bool :=
  (heap.object? slot).isSome

/-- A slot held an object and holds none afterwards. -/
def frees (heap after : Heap) (slot : Nat) : Bool :=
  heap.holds slot && !after.holds slot

/-- How often operations give a slot up. -/
def timesFreed (slot : Nat) (heap : Heap) : List HeapOperation → Nat
  | [] => 0
  | operation :: rest =>
    (heap.frees (operation.run heap).2 slot).toNat + timesFreed slot (operation.run heap).2 rest

/-- Nothing comes of a handle: nothing is found under it, and no operation through it
    changes anything. -/
structure Dead (heap : Heap) (handle : Handle) : Prop where
  get? : heap.get? handle = none
  contains : heap.contains handle = false
  target? : heap.target? handle = none
  canMark : heap.canMark handle = false
  mark : heap.mark handle = heap
  setTarget : ∀ object, heap.setTarget handle object = heap
  deallocate : heap.deallocate handle = heap
  resize : ∀ size floor, heap.resize handle size floor = .error .dangling

theorem dead_of_get? (unnamed : heap.get? handle = none) : heap.Dead handle := by
  have nothing : heap.named? handle = none := by simpa [Heap.get?] using unnamed
  have same (change : HeapObject → HeapObject) : heap.modify handle change = heap := by
    simp only [modify, nothing]
  exact {
    get? := unnamed
    contains := by simp [Heap.contains, unnamed]
    target? := by simp [Heap.target?, unnamed]
    canMark := by simp [Heap.canMark, unnamed]
    mark := same _
    setTarget := fun object => same _
    deallocate := deallocate_of_unnamed unnamed
    resize := fun size floor => by simp only [Heap.resize, unnamed] }

/-- The generation that a slot is in; it starts in the first. -/
def generationOf (heap : Heap) (slot : Nat) : UInt32 :=
  (heap.generation? slot).getD 0

/-- A slot that was given up is one generation further on. -/
def Passes (heap after : Heap) : Prop :=
  ∀ slot, after.generationOf slot = heap.generationOf slot + UInt32.ofNat (heap.frees after slot).toNat

/-- Slots are given up and none is filled. -/
structure Releases (heap after : Heap) : Prop where
  holds : ∀ slot, after.holds slot = true → heap.holds slot = true
  passes : heap.Passes after

namespace Releases

theorem refl (heap : Heap) : heap.Releases heap :=
  ⟨fun _ held => held, fun slot => by simp [frees]⟩

/-- After a slot was given up, it is not given up again. -/
theorem trans (first : heap.Releases after) (second : after.Releases last) : heap.Releases last := by
  refine ⟨fun slot held => first.holds slot (second.holds slot held), fun slot => ?_⟩
  have back := first.holds slot
  have further := second.holds slot
  rw [second.passes, first.passes, frees, frees, frees]
  revert back further
  cases heap.holds slot <;> cases after.holds slot <;> cases last.holds slot <;> simp

theorem ofViews (generation : ∀ slot, after.generation? slot = heap.generation? slot)
    (occupied : ∀ slot, (after.object? slot).isSome = (heap.object? slot).isSome) : heap.Releases after := by
  have same (slot : Nat) : after.holds slot = heap.holds slot := occupied slot
  refine ⟨fun slot held => same slot ▸ held, fun slot => ?_⟩
  simp [generationOf, generation, frees, same]

end Releases

theorem contains_eq_false : heap.contains handle = false ↔ heap.get? handle = none := by
  rw [Heap.contains, Option.isSome_eq_false_iff, Option.isNone_iff_eq_none]

theorem releases_modify (heap : Heap) (handle : Handle) (change : HeapObject → HeapObject) :
    heap.Releases (heap.modify handle change) :=
  .ofViews (generation?_modify _ _ _) (isSome_object?_modify _ _ _)

theorem releases_clearMarks (heap : Heap) : heap.Releases heap.clearMarks := by
  refine .ofViews (fun slot => generation?_foldl_setMark _ _ _ _) fun slot => ?_
  rw [Heap.clearMarks, object?_foldl_setMark]
  split <;> simp

theorem holds_vacate (heap : Heap) (slot other : Nat) :
    (heap.vacate slot).holds other = (decide (slot ≠ other) && heap.holds other) := by
  rw [holds, holds, object?, object?, node?_vacate]
  split <;> simp_all

theorem releases_vacate (held : heap.holds slot = true) : heap.Releases (heap.vacate slot) := by
  refine ⟨fun other => ?_, fun other => ?_⟩
  · rw [holds_vacate]
    exact fun both => (Bool.and_eq_true_iff.mp both).2
  · rw [generationOf, generationOf, generation?_vacate, frees, holds_vacate]
    by_cases same : slot = other
    · subst same
      obtain ⟨node, occupied⟩ : ∃ node, heap.node? slot = some node := by
        simpa [holds, object?, Option.isSome_iff_exists] using held
      obtain ⟨generation, current⟩ := generation_of_node occupied
      simp [current, held]
    · simp [same]

theorem releases_deallocate (heap : Heap) (handle : Handle) : heap.Releases (heap.deallocate handle) := by
  cases named : heap.named? handle with
  | none =>
      rw [deallocate_of_unnamed (by simp [Heap.get?, named])]
      exact .refl heap
  | some found =>
      obtain ⟨slot, node⟩ := found
      obtain ⟨-, occupied⟩ := handleOf_of_named named
      have held : heap.holds slot = true := by simp [holds, object?, occupied]
      rw [deallocate_of_named named]
      refine (releases_vacate held).trans (.ofViews ?_ ?_) <;> simp

theorem releases_remove (heap : Heap) (entries : List (Handle × HeapObject)) :
    heap.Releases (heap.remove entries).2 := by
  induction entries generalizing heap with
  | nil => exact .refl heap
  | cons entry rest ih =>
      obtain ⟨handle, object⟩ := entry
      rw [Heap.remove]
      split
      · exact (releases_deallocate heap handle).trans (ih _)
      · exact ih heap

theorem releases_sweep (heap : Heap) : heap.Releases heap.sweep.2 :=
  (releases_remove heap _).trans (.ofViews (fun _ => rfl) fun _ => rfl)

/-- Each slot is given up once. -/
theorem releases_foldl_vacate {slots : List Nat} (nodup : slots.Nodup)
    (held : ∀ slot ∈ slots, heap.holds slot = true) : heap.Releases (slots.foldl vacate heap) := by
  induction slots generalizing heap with
  | nil => exact .refl heap
  | cons slot rest ih =>
      obtain ⟨absent, nodup⟩ := List.nodup_cons.mp nodup
      refine (releases_vacate (held slot List.mem_cons_self)).trans (ih nodup fun other mem => ?_)
      have different : slot ≠ other := fun same => absent (same ▸ mem)
      rw [holds_vacate, held other (List.mem_cons_of_mem _ mem), Bool.and_true, decide_eq_true different]

theorem releases_reset (heap : Heap) : heap.Releases heap.reset := by
  refine (releases_foldl_vacate (List.nodup_range.filter _) fun slot mem => ?_).trans
    (.ofViews (fun _ => rfl) fun _ => rfl)
  obtain ⟨node, occupied⟩ := mem_occupied.mp mem
  simp [holds, object?, occupied]

/-- What a new object leads to: no slot is given up, and the object is found under a
    handle that named nothing. -/
structure Fills (heap : Heap) (handle : Handle) (after : Heap) : Prop where
  fresh : heap.get? handle = none
  contains : after.contains handle = true
  holds : ∀ slot, heap.holds slot = true → after.holds slot = true
  filled : ∀ slot, after.holds slot = true →
    heap.holds slot = true ∨ handle = .entry slot (after.generationOf slot)
  passes : heap.Passes after
  others : ∀ other, other ≠ handle → after.get? other = heap.get? other

theorem fills_place (pooled : heap.Pooled) (gap : Gap) (object : HeapObject) :
    heap.Fills (heap.place gap object).1 (heap.place gap object).2 := by
  obtain ⟨fresh, named⟩ := pooled.get?_place gap object
  have holds (slot : Nat) (held : heap.holds slot = true) : (heap.place gap object).2.holds slot = true := by
    rw [Heap.holds, object?_place pooled.within]
    split
    · rfl
    · exact held
  refine ⟨fresh, contains_iff.mpr ⟨object, by rw [named, if_pos rfl]⟩, holds, fun slot held => ?_, fun slot => ?_,
    fun other different => by rw [named, if_neg different]⟩
  · by_cases same : heap.nextSlot = slot
    · exact .inr (by rw [fst_place, handleOf, same]; rfl)
    · rw [Heap.holds, object?_place pooled.within, if_neg same] at held
      exact .inl held
  have none : heap.frees (heap.place gap object).2 slot = false := by
    cases held : heap.holds slot with
    | false => simp [frees, held]
    | true => simp [frees, holds slot held]
  rw [none, generationOf, generationOf]
  by_cases same : slot = heap.nextSlot
  · rw [same, generation?_place_nextSlot pooled]
    simp
  · rw [generation?_place, Pooled.generation?_occupy_of_ne _ same]
    simp

theorem fills_allocate (pooled : heap.Pooled) {payload : Payload}
    (allocated : heap.allocate size payload floor = .ok (handle, after)) : heap.Fills handle after := by
  obtain ⟨gap, object, placed⟩ := place_of_allocate allocated
  have fills := fills_place pooled gap object
  rw [placed] at fills
  exact fills

/-- To grow, an object moves to a new place, and then the old one is given up. -/
theorem resize_grown (found : heap.get? handle = some object) (grows : object.size < size)
    (resized : heap.resize handle size floor = .ok (moved, after)) :
    ∃ placed, heap.allocate size (placeholder object.payload handle) floor = .ok (moved, placed) ∧
      after = (placed.deallocate handle).modify moved ({ · with payload := object.payload }) := by
  simp only [Heap.resize, found, if_neg (Nat.not_le_of_lt grows)] at resized
  cases allocated : heap.allocate size (placeholder object.payload handle) floor with
  | error error =>
      rw [allocated] at resized
      cases resized
  | ok placed =>
      rw [allocated] at resized
      obtain ⟨rfl, rfl⟩ := Prod.mk.inj (Except.ok.inj resized)
      exact ⟨placed.2, rfl, rfl⟩

theorem holds_of_contains (contained : heap.contains handle = true) :
    ∃ slot, handle = .entry slot (heap.generationOf slot) ∧ heap.holds slot = true := by
  obtain ⟨object, found⟩ := contains_iff.mp contained
  cases handle with
  | dangling => cases found
  | entry slot generation =>
      rw [get?_entry] at found
      split at found
      · next current => exact ⟨slot, by simp [generationOf, current], by simp [holds, found]⟩
      · cases found

/-- An object that grows leaves its slot for another one; one that shrinks stays. -/
theorem passes_resize (pooled : heap.Pooled) (resized : heap.resize handle size floor = .ok (moved, after)) :
    heap.Passes after := by
  cases found : heap.get? handle with
  | none => simp [Heap.resize, found] at resized
  | some object =>
      by_cases grows : object.size < size
      · obtain ⟨placed, allocated, rfl⟩ := resize_grown found grows resized
        have fills := fills_allocate pooled allocated
        have different : moved ≠ handle := fun same => by simpa [same, found] using fills.fresh
        have releases := (releases_deallocate placed handle).trans
          (releases_modify (placed.deallocate handle) moved ({ · with payload := object.payload }))
        have kept : ((placed.deallocate handle).modify moved ({ · with payload := object.payload })).contains moved =
            true := by
          obtain ⟨object', here⟩ := contains_iff.mp fills.contains
          refine contains_iff.mpr ⟨{ object' with payload := object.payload }, ?_⟩
          rw [get?_modify, if_pos rfl, get?_deallocate, if_neg different, here]
          rfl
        generalize (placed.deallocate handle).modify moved _ = after at releases kept ⊢
        -- The slot that was filled is kept, so a slot that is given up was filled all along.
        refine fun slot => ?_
        have filled : placed.holds slot = true → after.holds slot = false → heap.holds slot = true := by
          intro held gone
          refine (fills.filled slot held).resolve_right fun same => ?_
          obtain ⟨place, named, here⟩ := holds_of_contains kept
          obtain rfl := (Handle.entry.inj (same.symm.trans named)).1
          exact absurd here (by simp [gone])
        have back := releases.holds slot
        have forth := fills.holds slot
        rw [releases.passes, fills.passes, frees, frees, frees]
        revert filled back forth
        cases heap.holds slot <;> cases placed.holds slot <;> cases after.holds slot <;> simp
      · simp only [Heap.resize, found, if_pos (Nat.le_of_not_lt grows), Except.ok.injEq, Prod.mk.injEq] at resized
        rw [← resized.2]
        exact (releases_modify heap handle _).passes

/-- What an operation does that is given `given` and ends with `after`: the handle is of
    a new object, and what it removes is found no longer. -/
structure Advances (heap : Heap) (given : Option Handle) (after : Heap) (removes : Handle → Prop) : Prop where
  wellFormed : after.WellFormed
  passes : heap.Passes after
  fresh : ∀ handle, given = some handle → heap.get? handle = none ∧ after.contains handle = true
  removed : ∀ handle, heap.contains handle = true → removes handle → after.get? handle = none

theorem Advances.ofReleases {removes : Handle → Prop} (wellFormed : after.WellFormed) (releases : heap.Releases after)
    (removed : ∀ handle, heap.contains handle = true → removes handle → after.get? handle = none) :
    heap.Advances none after removes :=
  ⟨wellFormed, releases.passes, by simp, removed⟩

theorem advances_allocate (wellFormed : heap.WellFormed) (size : Nat) (payload : Payload) (floor : Nat) :
    heap.Advances ((HeapOperation.allocate size payload floor).run heap).1
      ((HeapOperation.allocate size payload floor).run heap).2 fun _ => False := by
  rw [HeapOperation.run]
  rcases wellFormed.allocate size payload floor with refused | ⟨address, handle, after, allocated, placed⟩
  · rw [refused]
    exact .ofReleases wellFormed (.refl heap) (by simp)
  · rw [allocated]
    have fills := fills_allocate wellFormed.pooled allocated
    refine ⟨placed.wellFormed, fills.passes, ?_, by simp⟩
    rintro _ ⟨⟩
    exact ⟨fills.fresh, fills.contains⟩

theorem advances_resize (wellFormed : heap.WellFormed) (handle : Handle) (size floor : Nat) :
    heap.Advances ((HeapOperation.resize handle size floor).run heap).1
      ((HeapOperation.resize handle size floor).run heap).2
      ((HeapOperation.resize handle size floor).Removes heap) := by
  rw [HeapOperation.run]
  cases found : heap.get? handle with
  | none =>
      have refused : heap.resize handle size floor = .error .dangling := by simp only [Heap.resize, found]
      rw [refused]
      refine .ofReleases wellFormed (.refl heap) ?_
      rintro other - ⟨rfl, grows, -⟩
      simp [found] at grows
  | some object =>
      rcases wellFormed.resize found size floor with refused | ⟨moved, after, resized, facts, -⟩
      · rw [refused]
        refine .ofReleases wellFormed (.refl heap) ?_
        rintro other - ⟨rfl, -, done⟩
        simp [refused, Except.isOk, Except.toBool] at done
      · rw [resized]
        obtain ⟨address, reachable, get?⟩ := facts.get?
        have fresh (grows : object.size < size) : heap.get? moved = none := by
          obtain ⟨placed, allocated, -⟩ := resize_grown found grows resized
          exact (fills_allocate wellFormed.pooled allocated).fresh
        refine ⟨facts.wellFormed, passes_resize wellFormed.pooled resized, fun other given => ?_, ?_⟩
        · by_cases grows : object.size < size
          · simp only [Option.any_some, decide_eq_true grows, if_true, Option.some.injEq] at given
            obtain rfl := given
            exact ⟨fresh grows, contains_iff.mpr ⟨_, by rw [get?, if_pos rfl]⟩⟩
          · simp [grows] at given
        · rintro other - ⟨rfl, grows, -⟩
          have grows : object.size < size := by simpa [found] using grows
          have different : handle ≠ moved := fun same => by simpa [← same, found] using fresh grows
          rw [get?, if_neg different, if_pos rfl]

/-- No operation breaks a heap, and each gives up a slot at most once. -/
theorem advances (wellFormed : heap.WellFormed) (operation : HeapOperation) :
    heap.Advances (operation.run heap).1 (operation.run heap).2 (operation.Removes heap) := by
  cases operation with
  | allocate size payload floor => exact advances_allocate wellFormed size payload floor
  | resize handle size floor => exact advances_resize wellFormed handle size floor
  | deallocate handle =>
      refine .ofReleases (wellFormed.deallocate handle) (releases_deallocate heap handle) ?_
      rintro other - rfl
      exact (get?_deallocate heap handle handle).trans (if_pos rfl)
  | setTarget cell object =>
      refine .ofReleases (wellFormed.setTarget cell object) ?_ fun _ _ => False.elim
      exact releases_modify heap cell ({ · with payload := .target object })
  | mark handle =>
      refine .ofReleases (wellFormed.mark handle) ?_ fun _ _ => False.elim
      exact releases_modify heap handle ({ · with reachable := true })
  | clearMarks => exact .ofReleases wellFormed.clearMarks (releases_clearMarks heap) fun _ _ => False.elim
  | sweep =>
      obtain ⟨kept, -, left, -⟩ := wellFormed.sweep
      refine .ofReleases kept (releases_sweep heap) fun other contained unmarked => ?_
      obtain ⟨object, found⟩ := contains_iff.mp contained
      have unreached : object.reachable = false := by simpa [HeapOperation.Removes, isMarked, found] using unmarked
      show heap.sweep.2.get? other = none
      rw [left, found, Option.filter_some, unreached]
      rfl
  | reset => exact .ofReleases wellFormed.reset (releases_reset heap) fun other _ _ => get?_reset heap other

theorem performed_append (heap : Heap) (first second : List HeapOperation) :
    heap.performed (first ++ second) = (heap.performed first).performed second := by
  rw [performed, List.foldl_append]
  rfl

theorem timesFreed_append (slot : Nat) (heap : Heap) (first second : List HeapOperation) :
    timesFreed slot heap (first ++ second) =
      timesFreed slot heap first + timesFreed slot (heap.performed first) second := by
  induction first generalizing heap with
  | nil => simp [timesFreed, performed]
  | cons operation rest ih =>
      rw [List.cons_append, timesFreed, timesFreed, ih, Nat.add_assoc]
      rfl

theorem wellFormed_performed (wellFormed : heap.WellFormed) (operations : List HeapOperation) :
    (heap.performed operations).WellFormed := by
  induction operations generalizing heap with
  | nil => exact wellFormed
  | cons operation rest ih => exact ih (advances wellFormed operation).wellFormed

/-- No operation takes a slot that there is no room for. -/
theorem Fits.run (fits : heap.Fits heap.limit) (wellFormed : heap.WellFormed) (operation : HeapOperation) :
    (operation.run heap).2.Fits (operation.run heap).2.limit ∧ (operation.run heap).2.limit = heap.limit := by
  have same {after : Heap} (size : after.slots.size = heap.slots.size) (limit : after.limit = heap.limit) :
      after.Fits after.limit ∧ after.limit = heap.limit := by
    rw [Fits, size, limit]
    exact ⟨fits, rfl⟩
  cases operation with
  | allocate size payload floor =>
      rw [HeapOperation.run]
      split
      · next allocated => exact fits.allocate wellFormed allocated
      · exact ⟨fits, rfl⟩
  | resize handle size floor =>
      rw [HeapOperation.run]
      split
      · next resized => exact fits.resize wellFormed resized
      · exact ⟨fits, rfl⟩
  | deallocate handle => exact same (size_deallocate heap handle) (limit_deallocate heap handle)
  | setTarget cell object => exact same (size_modify heap cell _) (limit_modify heap cell _)
  | mark handle => exact same (size_modify heap handle _) (limit_modify heap handle _)
  | clearMarks => exact same (size_clearMarks heap) (limit_clearMarks heap)
  | sweep => exact same (size_remove heap _) wellFormed.sweep.2.1
  | reset => exact same (size_foldl_vacate _ _) (limit_reset heap)

theorem fits_performed (limit : Nat) (operations : List HeapOperation) :
    ((empty limit).performed operations).Fits limit := by
  have whole : ((empty limit).performed operations).Fits ((empty limit).performed operations).limit ∧
      ((empty limit).performed operations).limit = limit := by
    induction operations using List.reverseRecOn with
    | nil => exact ⟨by simp [Fits, performed, empty], rfl⟩
    | append_singleton rest operation ih =>
        rw [performed_append]
        have next := ih.1.run (wellFormed_performed (.empty limit) rest) operation
        exact ⟨next.1, next.2.trans ih.2⟩
  exact Nat.le_trans whole.1 (Nat.le_of_eq whole.2)

/-- A slot is in as late a generation as it was given up often, modulo 2³². -/
theorem generationOf_performed (wellFormed : heap.WellFormed) (operations : List HeapOperation) (slot : Nat) :
    (heap.performed operations).generationOf slot =
      heap.generationOf slot + UInt32.ofNat (timesFreed slot heap operations) := by
  induction operations generalizing heap with
  | nil => simp [performed, timesFreed]
  | cons operation rest ih =>
      have advances := advances wellFormed operation
      rw [performed, List.foldl_cons, ← performed, ih advances.wellFormed, advances.passes, timesFreed,
        UInt32.ofNat_add, UInt32.add_assoc]

/-- A slot that is not given up keeps its object. -/
theorem holds_performed (held : heap.holds slot = true) (kept : timesFreed slot heap operations = 0) :
    (heap.performed operations).holds slot = true := by
  induction operations generalizing heap with
  | nil => exact held
  | cons operation rest ih =>
      rw [timesFreed, Nat.add_eq_zero_iff, Bool.toNat_eq_zero, frees, held, Bool.true_and,
        Bool.not_eq_false'] at kept
      exact ih kept.1 kept.2

theorem contains_of_holds (held : heap.holds slot = true) :
    heap.contains (.entry slot (heap.generationOf slot)) = true := by
  obtain ⟨object, here⟩ := Option.isSome_iff_exists.mp held
  obtain ⟨node, occupied, -⟩ := Option.map_eq_some_iff.mp here
  obtain ⟨generation, current⟩ := generation_of_node occupied
  refine contains_iff.mpr ⟨object, ?_⟩
  rw [get?_entry, if_pos (by simp [generationOf, current]), here]

/-- While no slot runs through all its generations, a handle that is gone stays gone. -/
theorem gone_performed (wellFormed : heap.WellFormed) (first second : List HeapOperation)
    (few : ∀ slot, timesFreed slot heap (first ++ second) < generations)
    (contained : heap.contains handle = true) (gone : (heap.performed first).contains handle = false) :
    (heap.performed (first ++ second)).contains handle = false := by
  obtain ⟨slot, named, held⟩ := holds_of_contains contained
  by_contra again
  obtain ⟨slot', named', -⟩ := holds_of_contains (Bool.not_eq_false _ ▸ again)
  obtain ⟨rfl, current⟩ := Handle.entry.inj (named.symm.trans named')
  -- The slot is in the generation of the handle again, so it was never given up.
  have never : timesFreed slot heap (first ++ second) = 0 := by
    rw [generationOf_performed wellFormed, eq_comm, UInt32.add_eq_left] at current
    have zero := congrArg UInt32.toNat current
    rwa [UInt32.toNat_ofNat', UInt32.toNat_zero, Nat.mod_eq_of_lt] at zero
    exact few slot
  rw [timesFreed_append, Nat.add_eq_zero_iff] at never
  have here := contains_of_holds (holds_performed held never.1)
  rw [generationOf_performed wellFormed, never.1, show UInt32.ofNat 0 = 0 from rfl, UInt32.add_zero, ← named,
    gone] at here
  cases here

theorem mem_issued (mem : handle ∈ heap.issued operations) : ∃ first operation second,
    operations = first ++ operation :: second ∧ (operation.run (heap.performed first)).1 = some handle := by
  induction operations generalizing heap with
  | nil => cases mem
  | cons operation rest ih =>
      rcases List.mem_append.mp mem with here | later
      · exact ⟨[], operation, rest, rfl, Option.mem_toList.mp here⟩
      · obtain ⟨first, other, second, rfl, given⟩ := ih later
        exact ⟨operation :: first, other, second, rfl, given⟩

/-- The handle of an object is not given to another one. -/
theorem not_mem_issued (wellFormed : heap.WellFormed) (few : ∀ slot, timesFreed slot heap operations < generations)
    (contained : heap.contains handle = true) : handle ∉ heap.issued operations := by
  intro mem
  obtain ⟨first, operation, second, rfl, given⟩ := mem_issued mem
  obtain ⟨fresh, again⟩ := (advances (wellFormed_performed wellFormed first) operation).fresh handle given
  have gone := gone_performed wellFormed first [operation] (fun slot => ?_) contained (contains_eq_false.mpr fresh)
  · rw [performed_append] at gone
    exact absurd (gone.symm.trans again) (by simp)
  · refine Nat.lt_of_le_of_lt ?_ (few slot)
    rw [timesFreed_append, timesFreed_append, timesFreed, timesFreed, timesFreed]
    omega

theorem nodup_issued (wellFormed : heap.WellFormed) (few : ∀ slot, timesFreed slot heap operations < generations) :
    (heap.issued operations).Nodup := by
  induction operations generalizing heap with
  | nil => exact .nil
  | cons operation rest ih =>
      have advances := advances wellFormed operation
      have fewer (slot : Nat) : timesFreed slot (operation.run heap).2 rest < generations :=
        Nat.lt_of_le_of_lt (Nat.le_add_left _ _) (few slot)
      have later := ih advances.wellFormed fewer
      rw [issued]
      cases given : (operation.run heap).1 with
      | none => exact later
      | some handle =>
          have contained := (advances.fresh handle given).2
          exact List.nodup_cons.mpr ⟨not_mem_issued advances.wellFormed fewer contained, later⟩

/-- Whatever is done to a heap: as long as no slot is given up 2³² times, all handles of
    objects are different ones, the slots without an object are listed as vacant, once,
    and a handle whose object was removed, or moved, is dead from then on. There are no
    more slots than headers fit into memory, so that the number of a slot is below 2³²
    unless memory has 2³⁵ bytes. -/
theorem handles_are_given_once (limit : Nat) (operations : List HeapOperation)
    (few : ∀ slot, timesFreed slot (empty limit) operations < generations) :
    ((empty limit).issued operations).Nodup ∧ ((empty limit).performed operations).Pooled ∧
      (∀ earlier operation later handle, operations = earlier ++ operation :: later →
        ((empty limit).performed earlier).contains handle = true →
        operation.Removes ((empty limit).performed earlier) handle →
        ((empty limit).performed operations).Dead handle) ∧
      ((empty limit).performed operations).Dead .dangling ∧ ((empty limit).performed operations).Fits limit := by
  have wellFormed := WellFormed.empty limit
  refine ⟨nodup_issued wellFormed few, (wellFormed_performed wellFormed operations).pooled, ?_, dead_of_get? rfl,
    fits_performed limit operations⟩
  rintro earlier operation later handle rfl contained removes
  have before := wellFormed_performed wellFormed earlier
  have gone := (advances before operation).removed handle contained removes
  refine dead_of_get? (contains_eq_false.mp ?_)
  rw [performed_append]
  refine gone_performed before [operation] later (fun slot => ?_) contained (contains_eq_false.mpr gone)
  have total := few slot
  rw [timesFreed_append] at total
  exact Nat.lt_of_le_of_lt (Nat.le_add_left _ _) total

theorem timesFreed_le_length (slot : Nat) (heap : Heap) (operations : List HeapOperation) :
    timesFreed slot heap operations ≤ operations.length := by
  induction operations generalizing heap with
  | nil => exact Nat.le_refl 0
  | cons operation rest ih =>
      have once := Bool.toNat_le (heap.frees (operation.run heap).2 slot)
      have rest := ih (operation.run heap).2
      rw [timesFreed, List.length_cons]
      omega

/-- The slot of an object that is removed is used again. -/
def reuse : List HeapOperation :=
  [.allocate 3 (.bytes []) 0, .deallocate (.entry 0 0), .allocate 5 (.bytes []) 0]

theorem handles_are_given_once_reuse :
    (∀ slot, timesFreed slot (empty 100) reuse < generations) ∧
      (empty 100).issued reuse = [.entry 0 0, .entry 0 1] ∧ ((empty 100).issued reuse).Nodup ∧
      ((empty 100).performed reuse).Pooled ∧ ((empty 100).performed reuse).Dead (.entry 0 0) := by
  have few (slot : Nat) : timesFreed slot (empty 100) reuse < generations :=
    Nat.lt_of_le_of_lt (timesFreed_le_length slot _ reuse) (by decide)
  obtain ⟨distinct, pooled, dead, -⟩ := handles_are_given_once 100 reuse few
  refine ⟨few, by decide, distinct, pooled, ?_⟩
  exact dead [.allocate 3 (.bytes []) 0] (.deallocate (.entry 0 0)) _ _ rfl (by decide) rfl

end Heap

end PocketScript
