import PocketScript.Proofs.Heap.Invariant

/-! # Allocation

What placing, removing and resizing an object does to the invariant and to what
handles name.
-/

namespace PocketScript.Heap

variable {heap : Heap} {handle other : Handle} {object : HeapObject} {payload : Payload}
  {size floor : Nat}

theorem fst_place (heap : Heap) (gap : Gap) (object : HeapObject) :
    (heap.place gap object).1 = (heap.place gap object).2.handleOf heap.nextSlot := by
  rw [place_eq]

theorem object?_place (within : ∀ slot ∈ heap.vacant, slot < heap.slots.size) (gap : Gap)
    (object : HeapObject) (slot : Nat) :
    (heap.place gap object).2.object? slot =
      if heap.nextSlot = slot then some object else heap.object? slot := by
  let node : HeapNode := ⟨object, gap.above, gap.below⟩
  rw [place_eq]
  calc (((heap.occupy node).2.setBelow gap.above (some heap.nextSlot)).setAbove gap.below
        (some heap.nextSlot)).object? slot
    _ = ((heap.occupy node).2.node? slot).map (·.object) := by
        rw [object?_setAbove, object?_setBelow, object?]
    _ = if heap.nextSlot = slot then some object else heap.object? slot := by
        rw [node?_occupy node within]
        split <;> rfl

theorem generation?_place (gap : Gap) (object : HeapObject) (slot : Nat) :
    (heap.place gap object).2.generation? slot =
      (heap.occupy ⟨object, gap.above, gap.below⟩).2.generation? slot := by
  rw [place_eq]
  calc (((heap.occupy ⟨object, gap.above, gap.below⟩).2.setBelow gap.above
        (some heap.nextSlot)).setAbove gap.below (some heap.nextSlot)).generation? slot
    _ = (heap.occupy ⟨object, gap.above, gap.below⟩).2.generation? slot := by simp

@[simp]
theorem limit_place (gap : Gap) (object : HeapObject) :
    (heap.place gap object).2.limit = heap.limit := by
  rw [place_eq]
  simp [counted]

theorem vacant_place (gap : Gap) (object : HeapObject) :
    (heap.place gap object).2.vacant = heap.vacant.tail := by
  rw [place_eq]
  simp [counted]

theorem size_place (gap : Gap) (object : HeapObject) : (heap.place gap object).2.slots.size =
    if heap.vacant = [] then heap.slots.size + 1 else heap.slots.size := by
  rw [place_eq, ← size_occupy ⟨object, gap.above, gap.below⟩]
  simp [counted]

theorem node?_eq_none_iff {slot : Nat} : heap.node? slot = none ↔ heap.object? slot = none := by
  simp [object?]

namespace Pooled

theorem within (pooled : heap.Pooled) : ∀ slot ∈ heap.vacant, slot < heap.slots.size :=
  fun slot mem => ((pooled.mem_iff slot).mp mem).1

theorem node?_nextSlot (pooled : heap.Pooled) : heap.node? heap.nextSlot = none := by
  cases listed : heap.vacant with
  | nil => simp [nextSlot, listed, node?]
  | cons slot rest =>
      simpa [nextSlot, listed] using ((pooled.mem_iff slot).mp (by simp [listed])).2

theorem object?_nextSlot (pooled : heap.Pooled) : heap.object? heap.nextSlot = none := by
  simp [object?, pooled.node?_nextSlot]

/-- The next slot is in some generation once it is filled. -/
theorem generation?_occupy_nextSlot (pooled : heap.Pooled) (node : HeapNode) :
    ∃ generation, (heap.occupy node).2.generation? heap.nextSlot = some generation := by
  have filled : (heap.occupy node).2.node? heap.nextSlot = some node := by
    rw [node?_occupy node pooled.within, if_pos rfl]
  exact generation_of_node filled

theorem generation?_occupy_of_ne {slot : Nat} (node : HeapNode) (different : slot ≠ heap.nextSlot) :
    (heap.occupy node).2.generation? slot = heap.generation? slot := by
  cases listed : heap.vacant with
  | nil =>
      have different : ¬ slot = heap.slots.size := by simpa [nextSlot, listed] using different
      simp [occupy, listed, generation?, Array.getElem?_push, different]
  | cons first rest =>
      have different : ¬ first = slot := by simpa [nextSlot, listed, eq_comm] using different
      simp [occupy, listed, generation?, Array.getElem?_modify, different]

/-- After an object was placed its handle names it; before, the handle named
    nothing. -/
theorem get?_place (pooled : heap.Pooled) (gap : Gap) (object : HeapObject) :
    heap.get? (heap.place gap object).1 = none ∧
      ∀ other, (heap.place gap object).2.get? other =
        if other = (heap.place gap object).1 then some object else heap.get? other := by
  obtain ⟨generation, current⟩ := pooled.generation?_occupy_nextSlot ⟨object, gap.above, gap.below⟩
  rw [← generation?_place] at current
  have named : (heap.place gap object).1 = .entry heap.nextSlot generation := by
    rw [fst_place, handleOf_eq current]
  rw [named]
  refine ⟨?_, fun other => ?_⟩
  · rw [get?_entry, pooled.object?_nextSlot, ite_self]
  · cases other with
    | dangling => simp
    | entry slot version =>
        rw [get?_entry, get?_entry, object?_place pooled.within]
        by_cases here : slot = heap.nextSlot
        · subst here
          rw [current, pooled.object?_nextSlot, ite_self, if_pos rfl]
          simp [eq_comm]
        · have elsewhere : ¬ heap.nextSlot = slot := fun same => here same.symm
          have apart : ¬ Handle.entry slot version = .entry heap.nextSlot generation := by
            simp [here]
          rw [generation?_place, generation?_occupy_of_ne _ here, if_neg elsewhere, if_neg apart]

/-- The slot of a new object is not vacant any more. -/
theorem place (pooled : heap.Pooled) (gap : Gap) (object : HeapObject) :
    (heap.place gap object).2.Pooled := by
  have within := pooled.within
  obtain ⟨nodup, mem_iff⟩ := pooled
  have free : ∀ slot, (heap.place gap object).2.node? slot = none ↔
      heap.nextSlot ≠ slot ∧ heap.node? slot = none := by
    intro slot
    rw [node?_eq_none_iff, node?_eq_none_iff, object?_place within]
    split <;> simp_all
  have distinct : (heap.place gap object).2.vacant.Nodup := by
    rw [vacant_place]
    exact nodup.sublist (List.tail_sublist _)
  refine ⟨distinct, fun slot => ?_⟩
  rw [vacant_place, size_place, free]
  cases listed : heap.vacant with
  | nil =>
      have full : ¬ (slot < heap.slots.size ∧ heap.node? slot = none) := by
        rw [← mem_iff, listed]
        exact List.not_mem_nil
      simp only [nextSlot, listed, List.tail_nil, List.not_mem_nil, List.headD_nil, if_true,
        false_iff]
      rintro ⟨inside, different, empty⟩
      exact full ⟨by omega, empty⟩
  | cons first rest =>
      have listed_iff : slot = first ∨ slot ∈ rest ↔ slot < heap.slots.size ∧ heap.node? slot = none := by
        rw [← mem_iff, listed, List.mem_cons]
      have absent : first ∉ rest := (List.nodup_cons.mp (listed ▸ nodup)).1
      simp only [nextSlot, listed, List.tail_cons, List.headD_cons, reduceCtorEq, if_false]
      constructor
      · intro mem
        obtain ⟨inside, empty⟩ := listed_iff.mp (.inr mem)
        exact ⟨inside, fun same => absent (same ▸ mem), empty⟩
      · rintro ⟨inside, different, empty⟩
        exact (listed_iff.mpr ⟨inside, empty⟩).resolve_left fun same => different same.symm

end Pooled

/-- What a successful allocation leads to. -/
structure Allocated (heap : Heap) (object : HeapObject) (floor : Nat) (handle : Handle)
    (placed : Heap) : Prop where
  wellFormed : placed.WellFormed
  limit : placed.limit = heap.limit
  fresh : heap.get? handle = none
  get? : ∀ other, placed.get? other = if other = handle then some object else heap.get? other
  floor : floor ≤ object.bottom

/-- An allocation yields a new object, or the space does not suffice. -/
theorem WellFormed.allocate (wellFormed : heap.WellFormed) (size : Nat) (payload : Payload)
    (floor : Nat) :
    heap.allocate size payload floor = .error .collision ∨
      ∃ address handle placed, heap.allocate size payload floor = .ok (handle, placed) ∧
        heap.Allocated ⟨address, size, false, payload⟩ floor handle placed := by
  obtain ⟨chained, spaced, pooled⟩ := wellFormed
  have enough : heap.order.length < heap.slots.size + 1 := by
    have := chained.length_le
    omega
  have search := findGap_spec size chained.linked spaced rfl enough
  rw [← chained.highest] at search
  obtain none | ⟨upper, lower, address, split, found, room⟩ := search
  · refine .inl ?_
    simp only [Heap.allocate, none]
    rfl
  · have step : heap.allocate size payload floor =
        if address < HeapObject.headerSize ∨ address - HeapObject.headerSize < floor then
          .error .collision
        else .ok (heap.place ⟨upper.getLast?.or none, lower.head?, address⟩
          ⟨address, size, false, payload⟩) := by
      simp only [Heap.allocate, found]
      rfl
    rw [step, Option.or_none]
    by_cases low : address < HeapObject.headerSize ∨ address - HeapObject.headerSize < floor
    · exact .inl (if_pos low)
    · rw [not_or, Nat.not_lt, Nat.not_lt] at low
      obtain ⟨header, above⟩ := low
      let object : HeapObject := ⟨address, size, false, payload⟩
      let gap : Gap := ⟨upper.getLast?, lower.head?, address⟩
      obtain ⟨fresh, named⟩ := pooled.get?_place gap object
      have objects := object?_place pooled.within gap object
      have chain : (heap.place gap object).2.Chained (upper ++ heap.nextSlot :: lower) :=
        Chained.place (split ▸ chained) pooled.within pooled.node?_nextSlot address object
      have here : (heap.place gap object).2.object? heap.nextSlot = some object := by
        rw [objects, if_pos rfl]
      have elsewhere : ∀ slot ∈ upper ++ lower,
          (heap.place gap object).2.object? slot = heap.object? slot := by
        intro slot mem
        rw [objects, if_neg]
        rintro rfl
        obtain ⟨node, occupied⟩ := (chained.mem_iff _).mp (split ▸ mem)
        simp [pooled.node?_nextSlot] at occupied
      have apart : (heap.place gap object).2.Spaced heap.limit (upper ++ heap.nextSlot :: lower) :=
        (split ▸ spaced).insert room header elsewhere here rfl rfl
      refine .inr ⟨address, (heap.place gap object).1, (heap.place gap object).2,
        if_neg (by omega), ?_, limit_place gap object, fresh, named, above⟩
      refine .of_chain chain ?_ (pooled.place gap object)
      rw [limit_place]
      exact apart

theorem Allocated.le_boundary {placed : Heap} (allocated : heap.Allocated object floor handle placed)
    (wellFormed : heap.WellFormed) (low : floor ≤ heap.boundary) : floor ≤ placed.boundary := by
  obtain ⟨limit, below⟩ := wellFormed.le_boundary_iff.mp low
  refine allocated.wellFormed.le_boundary_iff.mpr ⟨allocated.limit ▸ limit, fun other found here => ?_⟩
  rw [allocated.get?] at here
  split at here
  · obtain rfl := Option.some.inj here
    exact allocated.floor
  · exact below other found here

section Deallocate

variable {slot : Nat} {node : HeapNode}

theorem deallocate_of_named (named : heap.named? handle = some (slot, node)) :
    heap.deallocate handle =
      ((heap.vacate slot).setBelow node.above node.below).setAbove node.below node.above := by
  simp only [Heap.deallocate, named]

theorem object?_deallocate (named : heap.named? handle = some (slot, node)) (other : Nat) :
    (heap.deallocate handle).object? other = if slot = other then none else heap.object? other := by
  rw [deallocate_of_named named, object?_setAbove, object?_setBelow, object?, node?_vacate]
  split <;> rfl

theorem generation?_deallocate (named : heap.named? handle = some (slot, node)) (other : Nat) :
    (heap.deallocate handle).generation? other =
      if slot = other then (heap.generation? other).map (· + 1) else heap.generation? other := by
  rw [deallocate_of_named named, generation?_setAbove, generation?_setBelow, generation?_vacate]

@[simp]
theorem limit_deallocate (heap : Heap) (handle : Handle) : (heap.deallocate handle).limit = heap.limit := by
  rw [Heap.deallocate]
  split
  · simp [vacate]
  · rfl

end Deallocate

theorem deallocate_of_unnamed (unnamed : heap.get? handle = none) : heap.deallocate handle = heap := by
  have nothing : heap.named? handle = none := by simpa [get?] using unnamed
  simp only [Heap.deallocate, nothing]

/-- A handle of a removed object names nothing, as the slot is in another
    generation then. -/
theorem get?_deallocate (heap : Heap) (handle other : Handle) :
    (heap.deallocate handle).get? other = if other = handle then none else heap.get? other := by
  cases named : heap.named? handle with
  | none =>
      have unnamed : heap.get? handle = none := by simp [get?, named]
      rw [deallocate_of_unnamed unnamed]
      split
      · next same => rw [same, unnamed]
      · rfl
  | some found =>
      obtain ⟨slot, node⟩ := found
      obtain ⟨generation, rfl, entry⟩ := slot_of_named named
      have current : heap.generation? slot = some generation := by simp [generation?, entry]
      cases other with
      | dangling => simp
      | entry index version =>
          simp only [get?_entry, object?_deallocate named, generation?_deallocate named,
            Handle.entry.injEq]
          by_cases here : slot = index
          · subst here
            by_cases now : version = generation
            · simp [now]
            · have stale : ¬ some generation = some version := by simpa [eq_comm] using now
              simp [current, stale, now]
          · have elsewhere : ¬ index = slot := fun same => here same.symm
            simp [here, elsewhere]

theorem Pooled.deallocate (pooled : heap.Pooled) (handle : Handle) : (heap.deallocate handle).Pooled := by
  cases named : heap.named? handle with
  | none => rwa [deallocate_of_unnamed (by simp [get?, named])]
  | some found =>
      obtain ⟨slot, node⟩ := found
      obtain ⟨rfl, occupied⟩ := handleOf_of_named named
      obtain ⟨nodup, mem_iff⟩ := pooled
      have absent : slot ∉ heap.vacant := fun mem => by
        simp [((mem_iff slot).mp mem).2] at occupied
      have vacant : (heap.deallocate (heap.handleOf slot)).vacant = slot :: heap.vacant := by
        rw [deallocate_of_named named]
        simp [vacate]
      have size : (heap.deallocate (heap.handleOf slot)).slots.size = heap.slots.size := by
        rw [deallocate_of_named named]
        simp
      refine ⟨vacant ▸ List.nodup_cons.mpr ⟨absent, nodup⟩, fun other => ?_⟩
      rw [vacant, size, List.mem_cons, mem_iff, node?_eq_none_iff, node?_eq_none_iff,
        object?_deallocate named]
      have inside := lt_size_of_node occupied
      by_cases same : slot = other
      · subst same
        simp [inside]
      · have elsewhere : ¬ other = slot := fun h => same h.symm
        simp [same, elsewhere]

theorem WellFormed.deallocate (wellFormed : heap.WellFormed) (handle : Handle) :
    (heap.deallocate handle).WellFormed := by
  cases named : heap.named? handle with
  | none => rwa [deallocate_of_unnamed (by simp [get?, named])]
  | some found =>
      obtain ⟨slot, node⟩ := found
      obtain ⟨rfl, occupied⟩ := handleOf_of_named named
      obtain ⟨front, back, split⟩ := List.append_of_mem (wellFormed.chained.mem_of_node occupied)
      have chained := split ▸ wellFormed.chained
      have spaced := split ▸ wellFormed.spaced
      refine .of_chain chained.deallocate ?_ (wellFormed.pooled.deallocate _)
      rw [limit_deallocate]
      refine spaced.remove.congr fun other mem => ?_
      have different : slot ≠ other := by
        rintro rfl
        exact (List.nodup_cons.mp (List.nodup_middle.mp chained.nodup)).1 mem
      rw [object?_deallocate named, if_neg different]

theorem WellFormed.le_boundary_deallocate (wellFormed : heap.WellFormed) (handle : Handle)
    (low : floor ≤ heap.boundary) : floor ≤ (heap.deallocate handle).boundary := by
  refine wellFormed.le_boundary_of_addresses (wellFormed.deallocate handle) (limit_deallocate _ _) ?_ low
  intro other object found
  rw [get?_deallocate] at found
  split at found
  · simp at found
  · exact ⟨object, found, rfl⟩

/-- What a successful change of size leads to. -/
structure Resized (heap : Heap) (handle : Handle) (object : HeapObject) (size : Nat) (moved : Handle)
    (resized : Heap) : Prop where
  wellFormed : resized.WellFormed
  limit : resized.limit = heap.limit
  place : moved = handle ∨ heap.get? moved = none
  get? : ∃ address reachable, ∀ other, resized.get? other =
    if other = moved then some ⟨address, size, reachable, object.payload⟩
    else if other = handle then none else heap.get? other

theorem WellFormed.shrink (wellFormed : heap.WellFormed) (found : heap.get? handle = some object)
    (smaller : size ≤ object.size) :
    heap.Resized handle object size handle (heap.modify handle ({ · with size })) ∧
      (floor ≤ heap.boundary → floor ≤ (heap.modify handle ({ · with size })).boundary) := by
  let shrunk : HeapObject → HeapObject := ({ · with size })
  have stays : ∀ object, (shrunk object).address = object.address := fun _ => rfl
  have fits : ∀ object', heap.get? handle = some object' → (shrunk object').size ≤ object'.size :=
    fun object' here => Option.some.inj (found.symm.trans here) ▸ smaller
  refine ⟨⟨wellFormed.modify stays fits, by simp, .inl rfl, object.address, object.reachable,
    fun other => ?_⟩, wellFormed.le_boundary_modify stays fits⟩
  rw [get?_modify]
  split
  · next same =>
    rw [same, found]
    rfl
  · rfl

/-- A change of size yields the object under its handle or a new one, or the
    space does not suffice. -/
theorem WellFormed.resize (wellFormed : heap.WellFormed) (found : heap.get? handle = some object)
    (size floor : Nat) :
    heap.resize handle size floor = .error .collision ∨
      ∃ moved resized, heap.resize handle size floor = .ok (moved, resized) ∧
        heap.Resized handle object size moved resized ∧
        (floor ≤ heap.boundary → floor ≤ resized.boundary) := by
  simp only [Heap.resize, found]
  by_cases smaller : size ≤ object.size
  · exact .inr ⟨handle, _, if_pos smaller, wellFormed.shrink found smaller⟩
  · rw [if_neg smaller]
    obtain none | ⟨address, moved, placed, allocated, new⟩ :=
      wellFormed.allocate size (placeholder object.payload handle) floor
    · refine .inl ?_
      rw [none]
      rfl
    · have different : moved ≠ handle := fun same => by
        simpa [same, found] using new.fresh
      have removed := new.wellFormed.deallocate handle
      let filled : HeapObject → HeapObject := ({ · with payload := object.payload })
      have stays : ∀ object, (filled object).address = object.address := fun _ => rfl
      have fits : ∀ object', (placed.deallocate handle).get? moved = some object' →
          (filled object').size ≤ object'.size := fun _ _ => Nat.le_refl _
      refine .inr ⟨moved, (placed.deallocate handle).modify moved filled, by rw [allocated]; rfl,
        ⟨removed.modify stays fits, by simp [new.limit], .inr new.fresh, address, false,
          fun other => ?_⟩, fun low => ?_⟩
      · rw [get?_modify, get?_deallocate, new.get?]
        by_cases same : other = moved
        · simp [same, different, filled]
        · simp [same]
      · exact removed.le_boundary_modify stays fits
          (new.wellFormed.le_boundary_deallocate handle (new.le_boundary wellFormed low))

end PocketScript.Heap
