import PocketScript.Proofs.Heap.Allocation

/-! # Marking and sweeping the heap

What clearing the marks, marking, sweeping and resetting do to the invariant and
to what handles name. A sweep leaves the marked objects as they are, and what it
reports is the number and the footprint of the others.
-/

namespace PocketScript

namespace HeapObject

/-- An object with its mark set or cleared. -/
def marked (reachable : Bool) (object : HeapObject) : HeapObject :=
  { object with reachable }

@[simp]
theorem marked_marked (first second : Bool) (object : HeapObject) :
    (object.marked first).marked second = object.marked second :=
  rfl

end HeapObject

namespace Heap

variable {heap : Heap} {handle : Handle} {object : HeapObject}

namespace WellFormed

theorem mem_objects (wellFormed : heap.WellFormed) :
    (handle, object) ∈ heap.objects ↔ heap.get? handle = some object := by
  simp only [Heap.objects, List.mem_filterMap, Option.map_eq_some_iff, Prod.mk.injEq]
  constructor
  · rintro ⟨slot, -, node, occupied, rfl, rfl⟩
    exact get?_handleOf occupied
  · intro found
    obtain ⟨slot, node, rfl, mem, occupied, rfl⟩ := wellFormed.mem_order found
    exact ⟨slot, mem, node, occupied, rfl, rfl⟩

/-- Every object is listed once. -/
theorem nodup_objects (wellFormed : heap.WellFormed) : (heap.objects.map (·.1)).Nodup := by
  have handles : heap.objects.map (·.1) = heap.order.map heap.handleOf := by
    rw [Heap.objects, List.map_filterMap]
    rw [← List.filterMap_eq_map]
    refine List.filterMap_congr fun slot mem => ?_
    obtain ⟨node, occupied⟩ := (wellFormed.chained.mem_iff slot).mp mem
    simp [occupied]
  rw [handles]
  refine wellFormed.chained.nodup.map fun slot other same => ?_
  simp only [handleOf, Handle.entry.injEq] at same
  exact same.1

end WellFormed

section Marks

variable (slots : List Nat) (reachable : Bool) (slot : Nat)

theorem object?_setMark (heap : Heap) (other : Nat) :
    (heap.setMark reachable slot).object? other =
      if slot = other then (heap.object? other).map (.marked reachable) else heap.object? other := by
  rw [object?, setMark, node?_modifyNode]
  split
  · cases node : heap.node? other <;> simp [object?, node, HeapObject.marked]
  · rfl

theorem WellFormed.setMark (wellFormed : heap.WellFormed) : (heap.setMark reachable slot).WellFormed := by
  let change := HeapObject.marked reachable
  have stays : ∀ object, (change object).address = object.address := fun _ => rfl
  exact wellFormed.modifyNode slot stays fun _ _ => Nat.le_refl _

theorem object?_foldl_setMark (heap : Heap) :
    (slots.foldl (setMark · reachable) heap).object? slot =
      if slot ∈ slots then (heap.object? slot).map (.marked reachable) else heap.object? slot := by
  induction slots generalizing heap with
  | nil => simp
  | cons first rest ih =>
      rw [List.foldl_cons, ih, object?_setMark]
      by_cases same : first = slot
      · subst same
        cases heap.object? first <;> simp
      · have elsewhere : ¬ slot = first := fun h => same h.symm
        simp [same, elsewhere]

theorem generation?_foldl_setMark (heap : Heap) :
    (slots.foldl (setMark · reachable) heap).generation? slot = heap.generation? slot := by
  induction slots generalizing heap with
  | nil => rfl
  | cons first rest ih => rw [List.foldl_cons, ih, setMark, generation?_modifyNode]

theorem limit_foldl_setMark (heap : Heap) :
    (slots.foldl (setMark · reachable) heap).limit = heap.limit := by
  induction slots generalizing heap with
  | nil => rfl
  | cons first rest ih => rw [List.foldl_cons, ih, setMark, limit_modifyNode]

theorem WellFormed.foldl_setMark (wellFormed : heap.WellFormed) :
    (slots.foldl (Heap.setMark · reachable) heap).WellFormed := by
  induction slots generalizing heap with
  | nil => exact wellFormed
  | cons first rest ih => exact ih (wellFormed.setMark reachable first)

end Marks

theorem WellFormed.clearMarks (wellFormed : heap.WellFormed) : heap.clearMarks.WellFormed :=
  wellFormed.foldl_setMark _ _

@[simp]
theorem limit_clearMarks (heap : Heap) : heap.clearMarks.limit = heap.limit :=
  limit_foldl_setMark _ _ _

theorem WellFormed.get?_clearMarks (wellFormed : heap.WellFormed) (handle : Handle) :
    heap.clearMarks.get? handle = (heap.get? handle).map (.marked false) := by
  cases handle with
  | dangling => rfl
  | entry slot generation =>
      rw [get?_entry, get?_entry, Heap.clearMarks, object?_foldl_setMark, generation?_foldl_setMark]
      by_cases current : heap.generation? slot = some generation
      · rw [if_pos current, if_pos current]
        split
        · rfl
        · next absent =>
          have empty : heap.node? slot = none := by
            rw [Option.eq_none_iff_forall_ne_some]
            intro node occupied
            exact absent (wellFormed.chained.mem_of_node occupied)
          rw [node?_eq_none_iff.mp empty]
          rfl
      · rw [if_neg current, if_neg current]
        rfl

theorem get?_mark (heap : Heap) (handle other : Handle) :
    (heap.mark handle).get? other =
      if other = handle then (heap.get? other).map (.marked true) else heap.get? other :=
  get?_modify heap handle other _

@[simp]
theorem limit_mark (heap : Heap) (handle : Handle) : (heap.mark handle).limit = heap.limit :=
  limit_modify heap handle _

/-- What marking one object after the other keeps, marking all that can be
    reached keeps. -/
theorem markAll_induction {motive : Heap → Prop}
    (mark : ∀ heap handle, motive heap → motive (heap.mark handle)) (heap : Heap)
    (pending : List Value) (start : motive heap) : motive (heap.markAll pending) := by
  have visit : ∀ heap value, motive heap → motive (heap.visit value).1 := by
    intro heap value holds
    cases value with
    | missing | number _ | function _ => exact holds
    | string cell =>
        simp only [Heap.visit]
        split
        · exact mark _ _ (mark _ _ holds)
        · exact mark _ _ holds
    | list cell =>
        simp only [Heap.visit]
        split
        · split
          · exact mark _ _ (mark _ _ holds)
          · exact mark _ _ holds
        · exact holds
  induction heap, pending using markAll.induct with
  | case1 heap => rwa [markAll]
  | case2 heap value rest ih =>
      rw [markAll]
      exact ih (visit heap value start)

/-- What removing some objects leads to. -/
structure Removed (heap : Heap) (entries : List (Handle × HeapObject)) (swept : Swept) (left : Heap) :
    Prop where
  wellFormed : left.WellFormed
  limit : left.limit = heap.limit
  get? : ∀ handle, left.get? handle = if handle ∈ entries.map (·.1) then none else heap.get? handle
  swept : swept = ⟨entries.length, HeapObject.footprints (entries.map (·.2))⟩

theorem WellFormed.remove (wellFormed : heap.WellFormed) {entries : List (Handle × HeapObject)}
    (named : ∀ handle object, (handle, object) ∈ entries → heap.get? handle = some object)
    (distinct : (entries.map (·.1)).Nodup) :
    heap.Removed entries (heap.remove entries).1 (heap.remove entries).2 := by
  induction entries generalizing heap with
  | nil => exact ⟨wellFormed, rfl, fun handle => by simp [Heap.remove], rfl⟩
  | cons entry rest ih =>
      obtain ⟨handle, object⟩ := entry
      rw [List.map_cons, List.nodup_cons] at distinct
      obtain ⟨absent, distinct⟩ := distinct
      have found := named handle object List.mem_cons_self
      have still : ∀ other object', (other, object') ∈ rest →
          (heap.deallocate handle).get? other = some object' := by
        intro other object' mem
        have different : other ≠ handle := by
          rintro rfl
          exact absent (List.mem_map.mpr ⟨_, mem, rfl⟩)
        rw [get?_deallocate, if_neg different]
        exact named other object' (List.mem_cons_of_mem _ mem)
      obtain ⟨sound, limit, left, swept⟩ := ih (wellFormed.deallocate handle) still distinct
      have step : heap.remove ((handle, object) :: rest) =
          (⟨((heap.deallocate handle).remove rest).1.objects + 1,
              ((heap.deallocate handle).remove rest).1.bytes + object.footprint⟩,
            ((heap.deallocate handle).remove rest).2) := by
        simp only [Heap.remove, contains, found, Option.isSome_some, if_true]
      rw [step]
      refine ⟨sound, limit.trans (limit_deallocate heap handle), fun other => ?_, ?_⟩
      · rw [left, get?_deallocate]
        by_cases same : other = handle
        · subst same
          simp
        · by_cases listed : other ∈ rest.map (·.1)
          · have also : other ∈ ((handle, object) :: rest).map (·.1) := List.mem_cons_of_mem _ listed
            rw [if_pos listed, if_pos also]
          · have unlisted : other ∉ ((handle, object) :: rest).map (·.1) := by
              rw [List.map_cons, List.mem_cons, not_or]
              exact ⟨same, listed⟩
            rw [if_neg listed, if_neg unlisted, if_neg same]
      · rw [swept]
        simp only [List.length_cons, List.map_cons, HeapObject.footprints, Nat.add_comm]

/-- The objects without a mark. -/
def unreached (heap : Heap) : List (Handle × HeapObject) :=
  heap.objects.filter fun (_, object) => !object.reachable

theorem WellFormed.sweep (wellFormed : heap.WellFormed) :
    heap.sweep.2.WellFormed ∧ heap.sweep.2.limit = heap.limit ∧
      (∀ handle, heap.sweep.2.get? handle = (heap.get? handle).filter (·.reachable)) ∧
      heap.sweep.1 = ⟨heap.unreached.length, HeapObject.footprints (heap.unreached.map (·.2))⟩ := by
  have named : ∀ handle object, (handle, object) ∈ heap.unreached → heap.get? handle = some object :=
    fun handle object mem => wellFormed.mem_objects.mp (List.mem_of_mem_filter mem)
  have distinct : (heap.unreached.map (·.1)).Nodup :=
    wellFormed.nodup_objects.sublist (List.filter_sublist.map _)
  obtain ⟨⟨chained, spaced, pooled⟩, limit, left, swept⟩ := wellFormed.remove named distinct
  have linked : heap.sweep.2.Linked none (heap.remove heap.unreached).2.order none := by
    refine Linked.congr ?_ chained.linked
    exact fun _ _ => rfl
  have apart : heap.sweep.2.Spaced (heap.remove heap.unreached).2.limit
      (heap.remove heap.unreached).2.order := by
    refine Spaced.congr spaced ?_
    exact fun _ _ => rfl
  refine ⟨.of_chain ⟨chained.nodup, chained.mem_iff, chained.highest, chained.lowest, linked⟩ apart
    ⟨pooled.nodup, pooled.mem_iff⟩, limit, fun handle => ?_, swept⟩
  · have same : heap.sweep.2.get? handle = (heap.remove heap.unreached).2.get? handle := rfl
    rw [same, left]
    cases found : heap.get? handle with
    | none => simp
    | some object =>
        have listed : handle ∈ heap.unreached.map (·.1) ↔ object.reachable = false := by
          simp only [unreached, List.mem_map, List.mem_filter, Bool.not_eq_eq_eq_not, Bool.not_true,
            Prod.exists, exists_and_right, exists_eq_right, wellFormed.mem_objects, found]
          simp
        simp only [listed]
        cases reached : object.reachable <;> simp [Option.filter, reached]

section Vacating

variable (slots : List Nat)

theorem node?_foldl_vacate (heap : Heap) (slot : Nat) :
    (slots.foldl vacate heap).node? slot = if slot ∈ slots then none else heap.node? slot := by
  induction slots generalizing heap with
  | nil => simp
  | cons first rest ih =>
      rw [List.foldl_cons, ih, node?_vacate]
      by_cases same : first = slot
      · simp [same]
      · have elsewhere : ¬ slot = first := fun h => same h.symm
        simp [same, elsewhere]

theorem vacant_foldl_vacate (heap : Heap) :
    (slots.foldl vacate heap).vacant = slots.reverse ++ heap.vacant := by
  induction slots generalizing heap with
  | nil => rfl
  | cons first rest ih =>
      rw [List.foldl_cons, ih, List.reverse_cons, List.append_assoc]
      rfl

theorem size_foldl_vacate (heap : Heap) :
    (slots.foldl vacate heap).slots.size = heap.slots.size := by
  induction slots generalizing heap with
  | nil => rfl
  | cons first rest ih => rw [List.foldl_cons, ih, size_vacate]

theorem limit_foldl_vacate (heap : Heap) : (slots.foldl vacate heap).limit = heap.limit := by
  induction slots generalizing heap with
  | nil => rfl
  | cons first rest ih =>
      rw [List.foldl_cons, ih]
      rfl

end Vacating

theorem mem_occupied {slot : Nat} : slot ∈ heap.occupied ↔ ∃ node, heap.node? slot = some node := by
  simp only [occupied, List.mem_filter, List.mem_range, Option.isSome_iff_exists, and_iff_right_iff_imp]
  rintro ⟨node, here⟩
  exact lt_size_of_node here

theorem node?_reset (heap : Heap) (slot : Nat) : heap.reset.node? slot = none := by
  have same : heap.reset.node? slot = (heap.occupied.foldl vacate heap).node? slot := rfl
  rw [same, node?_foldl_vacate]
  split
  · rfl
  · next absent =>
    rw [Option.eq_none_iff_forall_ne_some]
    exact fun node here => absent (mem_occupied.mpr ⟨node, here⟩)

@[simp]
theorem limit_reset (heap : Heap) : heap.reset.limit = heap.limit :=
  limit_foldl_vacate heap.occupied heap

/-- After a reset no handle names anything. -/
@[simp]
theorem get?_reset (heap : Heap) (handle : Handle) : heap.reset.get? handle = none := by
  cases handle with
  | dangling => rfl
  | entry slot generation => simp [get?_entry, object?, node?_reset]

theorem WellFormed.reset (wellFormed : heap.WellFormed) : heap.reset.WellFormed := by
  have pooled : heap.reset.Pooled := by
    have vacant : heap.reset.vacant = heap.occupied.reverse ++ heap.vacant := vacant_foldl_vacate _ _
    have size : heap.reset.slots.size = heap.slots.size := size_foldl_vacate _ _
    refine ⟨?_, fun slot => ?_⟩
    · rw [vacant, List.nodup_append]
      refine ⟨List.nodup_reverse.mpr (List.nodup_range.filter _), wellFormed.pooled.nodup, ?_⟩
      rintro slot mem _ mem' rfl
      obtain ⟨node, here⟩ := mem_occupied.mp (List.mem_reverse.mp mem)
      simp [((wellFormed.pooled.mem_iff slot).mp mem').2] at here
    · rw [vacant, size, List.mem_append, List.mem_reverse, mem_occupied, wellFormed.pooled.mem_iff,
        node?_reset]
      constructor
      · rintro (⟨node, here⟩ | ⟨inside, -⟩)
        · exact ⟨lt_size_of_node here, rfl⟩
        · exact ⟨inside, rfl⟩
      · rintro ⟨inside, -⟩
        cases here : heap.node? slot with
        | none => exact .inr ⟨inside, rfl⟩
        | some node => exact .inl ⟨node, rfl⟩
  have chained : heap.reset.Chained [] :=
    ⟨.nil, fun slot => by simp [node?_reset], rfl, rfl, trivial⟩
  exact .of_chain chained trivial pooled

end Heap

end PocketScript
