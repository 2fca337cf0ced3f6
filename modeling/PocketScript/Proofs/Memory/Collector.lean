import PocketScript.Proofs.Memory.Layout
import PocketScript.Proofs.Memory.Reachability

/-! # What a collection keeps

While objects are marked, whatever is marked is reached, and whatever a marked
list holds is marked too or still pending. Once nothing is pending the marked
objects are those that the roots reach, and the sweep removes the others.
-/

namespace PocketScript

namespace Heap

variable {heap other : Heap} {cell handle : Handle}

/-- The same objects under the same handles, except for marks. -/
def Alike (heap other : Heap) : Prop :=
  ∀ handle, (other.get? handle).map (HeapObject.marked false) =
    (heap.get? handle).map (HeapObject.marked false)

namespace Alike

theorem refl (heap : Heap) : heap.Alike heap :=
  fun _ => rfl

theorem trans {third : Heap} (first : heap.Alike other) (second : other.Alike third) : heap.Alike third :=
  fun handle => (second handle).trans (first handle)

theorem mark (alike : heap.Alike other) (handle : Handle) : heap.Alike (other.mark handle) := by
  intro found
  rw [get?_mark, ← alike found]
  split
  · rw [Option.map_map]
    rfl
  · rfl

/-- Anything but the mark of an object can be read in either heap. -/
theorem map_eq {α : Type} (alike : heap.Alike other) (view : HeapObject → α)
    (blind : ∀ object, view (object.marked false) = view object) (handle : Handle) :
    (other.get? handle).map view = (heap.get? handle).map view := by
  have unmarked : view = view ∘ HeapObject.marked false := funext fun object => (blind object).symm
  rw [unmarked, ← Option.map_map, alike, Option.map_map]

theorem contains_eq (alike : heap.Alike other) (handle : Handle) :
    other.contains handle = heap.contains handle := by
  have same := alike.map_eq (fun _ => ()) (fun _ => rfl) handle
  rw [contains, contains, ← Option.isSome_map, same, Option.isSome_map]

theorem bind_eq {α : Type} (alike : heap.Alike other) (view : HeapObject → Option α)
    (blind : ∀ object, view (object.marked false) = view object) (handle : Handle) :
    (other.get? handle).bind view = (heap.get? handle).bind view := by
  have same := congrArg Option.join (alike.map_eq view blind handle)
  rw [← Option.bind_id_eq_join, ← Option.bind_id_eq_join, Option.bind_map, Option.bind_map] at same
  exact same

theorem target?_eq (alike : heap.Alike other) (cell : Handle) : other.target? cell = heap.target? cell :=
  alike.bind_eq (·.payload.target?) (fun _ => rfl) cell

end Alike

theorem alike_clearMarks (wellFormed : heap.WellFormed) : heap.Alike heap.clearMarks := by
  intro handle
  rw [wellFormed.get?_clearMarks, Option.map_map]
  rfl

namespace WellFormed

theorem contains_sweep (wellFormed : heap.WellFormed) (handle : Handle) :
    heap.sweep.2.contains handle = heap.isMarked handle := by
  obtain ⟨-, -, left, -⟩ := wellFormed.sweep
  rw [contains, left, isMarked]
  cases heap.get? handle with
  | none => rfl
  | some object => cases reached : object.reachable <;> simp [Option.filter, reached]

theorem mem_unreached (wellFormed : heap.WellFormed) {handle : Handle} :
    handle ∈ heap.unreached.map (·.1) ↔
      heap.contains handle = true ∧ heap.isMarked handle = false := by
  simp only [unreached, List.mem_map, List.mem_filter, Prod.exists, exists_and_right,
    exists_eq_right, Bool.not_eq_eq_eq_not, Bool.not_true, wellFormed.mem_objects]
  cases found : heap.get? handle <;> simp [contains, isMarked, found]

end WellFormed

theorem contains_of_isMarked (marked : heap.isMarked handle = true) : heap.contains handle = true := by
  cases found : heap.get? handle with
  | none => simp [isMarked, found] at marked
  | some object => simp [contains, found]

theorem contains_of_target {object : Handle} (target : heap.target? cell = some object) :
    heap.contains cell = true := by
  cases found : heap.get? cell with
  | none => simp [target?, found] at target
  | some object => simp [contains, found]

theorem isMarked_mark : (heap.mark cell).isMarked handle = true ↔
    heap.isMarked handle = true ∨ (handle = cell ∧ heap.contains handle = true) := by
  rw [isMarked, get?_mark]
  by_cases same : handle = cell
  · rw [if_pos same]
    subst same
    cases found : heap.get? handle <;> simp [isMarked, contains, found, HeapObject.marked]
  · rw [if_neg same]
    simp [isMarked, same]

theorem canMark_iff : heap.canMark cell = true ↔
    heap.contains cell = true ∧ ¬ heap.isMarked cell = true := by
  cases found : heap.get? cell <;> simp [canMark, isMarked, contains, found]

/-- Mark a cell and what it stands for. -/
def markCell (heap : Heap) (cell : Handle) : Heap :=
  match heap.target? cell with
  | some object => (heap.mark cell).mark object
  | none => heap.mark cell

theorem alike_markCell (heap : Heap) (cell : Handle) : heap.Alike (heap.markCell cell) := by
  rw [markCell]
  split
  · exact ((Alike.refl heap).mark cell).mark _
  · exact (Alike.refl heap).mark cell

theorem isMarked_markCell : (heap.markCell cell).isMarked handle = true ↔
    heap.isMarked handle = true ∨
      ((handle = cell ∨ heap.target? cell = some handle) ∧ heap.contains handle = true) := by
  rw [markCell]
  split
  · next object target =>
    rw [isMarked_mark, isMarked_mark, ((Alike.refl heap).mark cell).contains_eq, target,
      Option.some.injEq, eq_comm (a := object), or_assoc, or_and_right]
  · next target =>
    rw [isMarked_mark, target]
    simp

theorem visit_string (heap : Heap) (cell : Handle) : heap.visit (.string cell) = (heap.markCell cell, []) := by
  rw [visit, markCell]
  cases heap.target? cell <;> rfl

/-- The values of the list that a cell stands for. -/
def itemsOf (heap : Heap) (cell : Handle) : List Value :=
  (((heap.target? cell).bind heap.get?).bind (·.payload.values?)).getD []

theorem visit_list (heap : Heap) (cell : Handle) : heap.visit (.list cell) =
    if heap.canMark cell then (heap.markCell cell, (heap.itemsOf cell).reverse) else (heap, []) := by
  rw [visit, markCell, itemsOf]
  cases heap.target? cell <;> rfl

end Heap

namespace Memory

variable {memory : Memory} {value : Value} {cell object : Handle} {values : List Value}

section Typed

variable (wellFormed : memory.heap.WellFormed)

include wellFormed in
theorem Reaches.held (reaches : memory.Reaches value) : value ∈ memory.heldValues := by
  simp only [heldValues, List.mem_append]
  cases reaches with
  | root root value mem holds =>
      exact .inl (.inl (List.mem_flatMap.mpr ⟨root, Array.mem_toList_iff.mpr mem, holds⟩))
  | item cell values value _ list mem =>
      obtain ⟨target, object, -, found, payload⟩ := payload_eq_ok_iff.mp (list_eq_ok_iff.mp list)
      refine .inr (List.mem_flatMap.mpr ⟨(target, object), wellFormed.mem_objects.mpr found, ?_⟩)
      simpa [payload, Payload.values?] using mem

include wellFormed in
/-- A cell that is reached and still there stands for the object of a string or
    of a list. -/
theorem WellTyped.payload (typed : memory.WellTyped) (reaches : memory.Reaches value)
    (at_cell : value.cell? = some cell) (there : memory.heap.contains cell = true) :
    ∃ payload, memory.payload cell = .ok payload ∧ payload.target? = none := by
  have kind := typed value (reaches.held wellFormed)
  cases value with
  | missing | number _ | function _ => simp [Value.cell?] at at_cell
  | string cell' =>
      obtain rfl := Option.some.inj at_cell
      obtain ⟨bytes, string⟩ := kind there
      exact ⟨_, string_eq_ok_iff.mp string, rfl⟩
  | list cell' =>
      obtain rfl := Option.some.inj at_cell
      obtain ⟨values, list⟩ := kind there
      exact ⟨_, list_eq_ok_iff.mp list, rfl⟩

include wellFormed in
/-- What a reached cell stands for is no cell itself. -/
theorem WellTyped.not_target (typed : memory.WellTyped) (reaches : memory.Reaches value)
    (at_cell : value.cell? = some cell) (target : memory.heap.target? cell = some object)
    (lists : memory.Reaches (.list object)) : memory.heap.contains object = false := by
  rw [Bool.eq_false_iff]
  intro there
  obtain ⟨payload, ok, none⟩ :=
    typed.payload wellFormed reaches at_cell (Heap.contains_of_target target)
  obtain ⟨object', found, target', here, payload_eq⟩ := payload_eq_ok_iff.mp ok
  obtain rfl : object = object' := Option.some.inj (target.symm.trans target')
  obtain ⟨values, list⟩ := typed (.list object) (lists.held wellFormed) there
  obtain ⟨target, -, target', -, -⟩ := payload_eq_ok_iff.mp (list_eq_ok_iff.mp list)
  simp [Heap.target?, here, payload_eq, none] at target'

include wellFormed in
/-- No cell is reached both as a string and as a list. -/
theorem WellTyped.not_both (typed : memory.WellTyped) (strings : memory.Reaches (.string cell))
    (lists : memory.Reaches (.list cell)) : memory.heap.contains cell = false := by
  rw [Bool.eq_false_iff]
  intro there
  obtain ⟨bytes, string⟩ := typed _ (strings.held wellFormed) there
  obtain ⟨values, list⟩ := typed _ (lists.held wellFormed) there
  rw [string_eq_ok_iff] at string
  rw [list_eq_ok_iff, string] at list
  simp at list

end Typed

/-- The objects of a value are marked. -/
def Marked (memory : Memory) (heap : Heap) (value : Value) : Prop :=
  ∀ cell, value.cell? = some cell → memory.heap.contains cell = true →
    heap.isMarked cell = true ∧ ∀ object, memory.heap.target? cell = some object →
      memory.heap.contains object = true → heap.isMarked object = true

/-- What holds while objects are marked. -/
structure Marking (memory : Memory) (heap : Heap) (pending : List Value) : Prop where
  alike : memory.heap.Alike heap
  /-- Whatever is marked is reached. -/
  sound : ∀ handle, heap.isMarked handle = true → memory.ReachesObject handle
  reached : ∀ value ∈ pending, memory.Reaches value
  /-- The values of the roots are marked or pending. -/
  roots : ∀ root ∈ memory.roots, ∀ value ∈ memory.rootValues root,
    value ∈ pending ∨ memory.Marked heap value
  /-- If the cell of a list is marked, so is the list, and its values are marked
      or pending. -/
  lists : ∀ cell, memory.Reaches (.list cell) → heap.isMarked cell = true →
    memory.Marked heap (.list cell) ∧ ∀ values, memory.list cell = .ok values →
      ∀ value ∈ values, value ∈ pending ∨ memory.Marked heap value

namespace Marking

variable {heap marked : Heap} {rest pending : List Value}

theorem marked_mono (more : ∀ handle, heap.isMarked handle = true → marked.isMarked handle = true)
    (before : memory.Marked heap value) : memory.Marked marked value := by
  intro cell at_cell there
  obtain ⟨here, targets⟩ := before cell at_cell there
  exact ⟨more cell here, fun object target found => more object (targets object target found)⟩

theorem marked_markCell (alike : memory.heap.Alike heap) (at_cell : value.cell? = some cell) :
    memory.Marked (heap.markCell cell) value := by
  intro other at_other there
  obtain rfl := Option.some.inj (at_cell.symm.trans at_other)
  refine ⟨Heap.isMarked_markCell.mpr (.inr ⟨.inl rfl, ?_⟩), fun object target found =>
    Heap.isMarked_markCell.mpr (.inr ⟨.inr ?_, ?_⟩)⟩
  · rwa [alike.contains_eq]
  · rwa [alike.target?_eq]
  · rwa [alike.contains_eq]

/-- Marking the objects of the first pending value, whose own values, if it is a
    list, become pending. -/
theorem markCell (wellFormed : memory.heap.WellFormed) (typed : memory.WellTyped)
    (marking : memory.Marking heap (value :: rest)) (at_cell : value.cell? = some cell)
    (items : ∀ value ∈ pending, memory.Reaches value)
    (listed : ∀ values, value = .list cell → memory.list cell = .ok values → values ⊆ pending) :
    memory.Marking (heap.markCell cell) (pending ++ rest) := by
  obtain ⟨alike, sound, reached, roots, lists⟩ := marking
  have reaches : memory.Reaches value := reached value List.mem_cons_self
  have more : ∀ handle, heap.isMarked handle = true → (heap.markCell cell).isMarked handle = true :=
    fun handle before => Heap.isMarked_markCell.mpr (.inl before)
  have now : memory.Marked (heap.markCell cell) value := marked_markCell alike at_cell
  have carry : ∀ other, other ∈ value :: rest ∨ memory.Marked heap other →
      other ∈ pending ++ rest ∨ memory.Marked (heap.markCell cell) other := by
    rintro other (mem | before)
    · rcases List.mem_cons.mp mem with rfl | mem
      · exact .inr now
      · exact .inl (List.mem_append_right _ mem)
    · exact .inr (marked_mono more before)
  refine ⟨alike.trans (Heap.alike_markCell heap cell), fun handle mark => ?_, fun other mem => ?_,
    fun root mem other holds => carry other (roots root mem other holds), fun other lists_other mark => ?_⟩
  · rcases Heap.isMarked_markCell.mp mark with before | ⟨rfl | target, -⟩
    · exact sound handle before
    · exact .cell value handle reaches at_cell
    · exact .target value cell handle reaches at_cell (alike.target?_eq cell ▸ target)
  · rcases List.mem_append.mp mem with mem | mem
    · exact items other mem
    · exact reached other (List.mem_cons_of_mem _ mem)
  · rcases Heap.isMarked_markCell.mp mark with before | ⟨rfl | target, there⟩
    · obtain ⟨here, values⟩ := lists other lists_other before
      exact ⟨marked_mono more here, fun items list item mem => carry item (values items list item mem)⟩
    · -- The cell just marked: as a list it is the value itself, as it cannot be a string too.
      rw [alike.contains_eq] at there
      cases value with
      | missing | number _ | function _ => simp [Value.cell?] at at_cell
      | string cell' =>
          obtain rfl := Option.some.inj at_cell
          simp [typed.not_both wellFormed reaches lists_other] at there
      | list cell' =>
          obtain rfl := Option.some.inj at_cell
          exact ⟨now, fun values list item mem =>
            .inl (List.mem_append_left _ (listed values rfl list mem))⟩
    · -- The object that the cell stands for is no cell.
      rw [alike.contains_eq] at there
      rw [alike.target?_eq] at target
      simp [typed.not_target wellFormed reaches at_cell target lists_other] at there

/-- A pending value whose objects are marked is done with. -/
theorem drop (marking : memory.Marking heap (value :: rest)) (done : memory.Marked heap value) :
    memory.Marking heap rest := by
  obtain ⟨alike, sound, reached, roots, lists⟩ := marking
  have carry : ∀ other, other ∈ value :: rest ∨ memory.Marked heap other →
      other ∈ rest ∨ memory.Marked heap other := by
    rintro other (mem | before)
    · rcases List.mem_cons.mp mem with rfl | mem
      · exact .inr done
      · exact .inl mem
    · exact .inr before
  exact ⟨alike, sound, fun other mem => reached other (List.mem_cons_of_mem _ mem),
    fun root mem other holds => carry other (roots root mem other holds),
    fun cell lists_cell mark => ⟨(lists cell lists_cell mark).1, fun values list item mem =>
      carry item ((lists cell lists_cell mark).2 values list item mem)⟩⟩

theorem itemsOf_eq (alike : memory.heap.Alike heap) (list : memory.list cell = .ok values) :
    heap.itemsOf cell = values := by
  obtain ⟨target, object, at_target, found, payload⟩ := payload_eq_ok_iff.mp (list_eq_ok_iff.mp list)
  have same := alike.bind_eq (·.payload.values?) (fun _ => rfl) target
  rw [found, Option.bind_some, payload] at same
  rw [Heap.itemsOf, alike.target?_eq, at_target, Option.bind_some, same]
  rfl

/-- A visit keeps the invariant. -/
theorem visit (wellFormed : memory.heap.WellFormed) (typed : memory.WellTyped)
    (marking : memory.Marking heap (value :: rest)) :
    memory.Marking (heap.visit value).1 ((heap.visit value).2 ++ rest) := by
  cases value with
  | missing | number _ | function _ => exact marking.drop fun cell at_cell => by simp [Value.cell?] at at_cell
  | string cell =>
      rw [Heap.visit_string]
      exact marking.markCell wellFormed typed rfl (by simp) fun _ absurd => by simp at absurd
  | list cell =>
      have reaches : memory.Reaches (.list cell) := marking.reached _ List.mem_cons_self
      rw [Heap.visit_list]
      by_cases can : heap.canMark cell = true
      · have there : memory.heap.contains cell = true := by
          rw [← marking.alike.contains_eq]
          exact (Heap.canMark_iff.mp can).1
        obtain ⟨values, list⟩ := typed _ (reaches.held wellFormed) there
        have items := itemsOf_eq marking.alike list
        rw [if_pos can, items]
        refine marking.markCell wellFormed typed rfl (fun item mem => ?_) fun values' _ list' => ?_
        · exact .item cell values item reaches list (List.mem_reverse.mp mem)
        · obtain rfl := Except.ok.inj (list.symm.trans list')
          exact fun item mem => List.mem_reverse.mpr mem
      · rw [if_neg can]
        refine marking.drop fun other at_other there => ?_
        obtain rfl := Option.some.inj at_other
        have marked : heap.isMarked cell = true := by
          rw [Heap.canMark_iff, marking.alike.contains_eq, not_and_not_right] at can
          exact can there
        exact (marking.lists cell reaches marked).1 cell rfl there

theorem markAll (wellFormed : memory.heap.WellFormed) (typed : memory.WellTyped)
    (marking : memory.Marking heap pending) : memory.Marking (heap.markAll pending) [] := by
  induction heap, pending using Heap.markAll.induct with
  | case1 heap => rwa [Heap.markAll]
  | case2 heap value rest ih =>
      rw [Heap.markAll]
      exact ih (marking.visit wellFormed typed)

/-- Once nothing is pending, the objects of all reached values are marked. -/
theorem complete (marking : memory.Marking heap []) (reaches : memory.Reaches value) :
    memory.Marked heap value := by
  induction reaches with
  | root root value mem holds => simpa using marking.roots root mem value holds
  | item cell values value reaches list mem ih =>
      obtain ⟨target, object, at_target, -, -⟩ := payload_eq_ok_iff.mp (list_eq_ok_iff.mp list)
      have marked := (ih cell rfl (Heap.contains_of_target at_target)).1
      simpa using (marking.lists cell reaches marked).2 values list value mem

theorem isMarked_iff (marking : memory.Marking heap []) {handle : Handle} :
    heap.isMarked handle = true ↔
      memory.heap.contains handle = true ∧ memory.ReachesObject handle := by
  constructor
  · intro marked
    refine ⟨?_, marking.sound handle marked⟩
    rw [← marking.alike.contains_eq]
    exact Heap.contains_of_isMarked marked
  · rintro ⟨there, reaches⟩
    cases reaches with
    | cell value cell reaches at_cell =>
        exact (marking.complete reaches handle at_cell there).1
    | target value cell object reaches at_cell target =>
        exact (marking.complete reaches cell at_cell
          (Heap.contains_of_target target)).2 handle target there

/-- When marking starts, no object is marked and the values of all roots are
    pending. -/
theorem start (wellFormed : memory.heap.WellFormed) : memory.Marking memory.heap.clearMarks
    (memory.roots.toList.flatMap memory.rootValues).reverse := by
  have unmarked : ∀ handle, memory.heap.clearMarks.isMarked handle = false := by
    intro handle
    rw [Heap.isMarked, wellFormed.get?_clearMarks]
    cases memory.heap.get? handle <;> rfl
  have pending : ∀ value, value ∈ (memory.roots.toList.flatMap memory.rootValues).reverse ↔
      ∃ root ∈ memory.roots, value ∈ memory.rootValues root := by
    simp
  refine ⟨Heap.alike_clearMarks wellFormed, fun handle marked => ?_, fun value mem => ?_,
    fun root mem value holds => .inl ((pending value).mpr ⟨root, mem, holds⟩), fun cell _ marked => ?_⟩
  · simp [unmarked] at marked
  · obtain ⟨root, mem, holds⟩ := (pending value).mp mem
    exact .root root value mem holds
  · simp [unmarked] at marked

end Marking

/-- What a collection leads to. -/
structure Collected (memory : Memory) (swept : Swept) (after : Memory) : Prop where
  /-- The objects that are left are those that the roots reach. -/
  live : ∀ handle, after.heap.contains handle = true ↔
    memory.heap.contains handle = true ∧ memory.ReachesObject handle
  kept : ∀ handle object, after.heap.get? handle = some object →
    ∃ old, memory.heap.get? handle = some old ∧ object.address = old.address ∧
      object.size = old.size ∧ object.payload = old.payload
  swept : swept = ⟨(memory.heap.objects.filter fun (handle, _) => !after.heap.contains handle).length,
    HeapObject.footprints
      ((memory.heap.objects.filter fun (handle, _) => !after.heap.contains handle).map (·.2))⟩
  others : after = { memory with heap := after.heap }

theorem footprints_eq_sum {entries : List (Handle × HeapObject)} {footprint : Handle → Nat}
    (same : ∀ entry ∈ entries, footprint entry.1 = entry.2.footprint) :
    HeapObject.footprints (entries.map (·.2)) = ((entries.map (·.1)).map footprint).sum := by
  induction entries with
  | nil => rfl
  | cons entry rest ih =>
      have := ih fun other mem => same other (List.mem_cons_of_mem _ mem)
      simp only [List.map_cons, HeapObject.footprints, List.sum_cons, this, same entry List.mem_cons_self]

/-- Two lists of the same objects, each listed once, have the same length and the
    same footprint. -/
theorem footprints_congr (footprint : Handle → Nat) {entries others : List (Handle × HeapObject)}
    (once : (entries.map (·.1)).Nodup) (once' : (others.map (·.1)).Nodup)
    (same : ∀ handle, handle ∈ entries.map (·.1) ↔ handle ∈ others.map (·.1))
    (known : ∀ entry ∈ entries, footprint entry.1 = entry.2.footprint)
    (known' : ∀ entry ∈ others, footprint entry.1 = entry.2.footprint) :
    entries.length = others.length ∧
      HeapObject.footprints (entries.map (·.2)) = HeapObject.footprints (others.map (·.2)) := by
  have perm : (entries.map (·.1)).Perm (others.map (·.1)) :=
    (List.perm_ext_iff_of_nodup once once').mpr same
  refine ⟨by simpa using perm.length_eq, ?_⟩
  rw [footprints_eq_sum known, footprints_eq_sum known', (perm.map footprint).sum_nat]

theorem Marking.old_object {heap : Heap} (marking : memory.Marking heap []) {handle : Handle}
    {object : HeapObject} (found : heap.get? handle = some object) :
    ∃ old, memory.heap.get? handle = some old ∧ object.address = old.address ∧
      object.size = old.size ∧ object.payload = old.payload := by
  have same := marking.alike handle
  rw [found, Option.map_some, eq_comm, Option.map_eq_some_iff] at same
  obtain ⟨old, there, same⟩ := same
  simp only [HeapObject.marked, HeapObject.mk.injEq] at same
  exact ⟨old, there, same.1.symm, same.2.1.symm, same.2.2.2.symm⟩

/-- The sweep counts the objects of the marked heap; those of memory differ in
    marks only. -/
theorem Marking.counted {heap : Heap} (wellFormed : memory.heap.WellFormed)
    (marking : memory.Marking heap []) (sound : heap.WellFormed)
    {removed : List (Handle × HeapObject)}
    (removed_eq : removed = memory.heap.objects.filter fun (handle, _) => !heap.sweep.2.contains handle) :
    heap.unreached.length = removed.length ∧
      HeapObject.footprints (heap.unreached.map (·.2)) = HeapObject.footprints (removed.map (·.2)) := by
  subst removed_eq
  have gone : ∀ handle,
      handle ∈ (memory.heap.objects.filter fun (handle, _) => !heap.sweep.2.contains handle).map (·.1) ↔
        memory.heap.contains handle = true ∧ heap.isMarked handle = false := by
    intro handle
    simp only [List.mem_map, List.mem_filter, Prod.exists, exists_and_right, exists_eq_right,
      Bool.not_eq_eq_eq_not, Bool.not_true, Heap.contains_iff, wellFormed.mem_objects,
      sound.contains_sweep]
  let footprint (handle : Handle) : Nat := ((memory.heap.get? handle).map (·.footprint)).getD 0
  refine footprints_congr footprint
    (sound.nodup_objects.sublist (List.filter_sublist.map _))
    (wellFormed.nodup_objects.sublist (List.filter_sublist.map _))
    (fun handle => by rw [gone, sound.mem_unreached, marking.alike.contains_eq]) ?_ ?_
  · rintro ⟨handle, object⟩ mem
    obtain ⟨old, there, -, size, -⟩ :=
      marking.old_object (sound.mem_objects.mp (List.mem_of_mem_filter mem))
    simp [footprint, there, HeapObject.footprint, size]
  · rintro ⟨handle, object⟩ mem
    have there := wellFormed.mem_objects.mp (List.mem_of_mem_filter mem)
    simp [footprint, there]

/-- A sweep after all of the marking. -/
theorem Marking.collected {heap : Heap} (wellFormed : memory.heap.WellFormed)
    (marking : memory.Marking heap []) (sound : heap.WellFormed) :
    memory.Collected heap.sweep.1 { memory with heap := heap.sweep.2 } := by
  obtain ⟨-, -, left, swept⟩ := sound.sweep
  refine ⟨fun handle => ?_, fun handle object found => ?_, ?_, rfl⟩
  · rw [sound.contains_sweep, marking.isMarked_iff]
  · rw [left, Option.filter_eq_some_iff] at found
    exact marking.old_object found.1
  · obtain ⟨number, bytes⟩ := marking.counted wellFormed sound rfl
    rw [swept, number, bytes]

theorem WellTyped.collected (wellFormed : memory.heap.WellFormed) (typed : memory.WellTyped) :
    memory.Collected memory.collect.1 memory.collect.2 := by
  obtain ⟨sound, -, -⟩ := wellFormed.clearMarks.markAll (Nat.zero_le _)
    (memory.roots.toList.flatMap memory.rootValues).reverse
  exact ((Marking.start wellFormed).markAll wellFormed typed).collected wellFormed sound

/-- After any operations, if memory is well-typed then a collection is exact. -/
theorem collected_performAll (size : Nat) (operations : List MemoryOperation)
    (typed : (performAll size operations).WellTyped) :
    (performAll size operations).Collected (performAll size operations).collect.1
      (performAll size operations).collect.2 :=
  typed.collected (partitioned_performAll size operations).heap

/-- Create a list that holds itself, which is registered, and a string, which is
    not. -/
def selfContaining : List MemoryOperation :=
  [.createList [], .insertElement (.list (.entry 0 0)) 0 (.list (.entry 0 0)), .createString [0x61],
    .setRoots #[.value (.list (.entry 0 0))]]

theorem collected_selfContaining : (performAll 200 selfContaining).WellTyped ∧
    (performAll 200 selfContaining).Collected (performAll 200 selfContaining).collect.1
      (performAll 200 selfContaining).collect.2 := by
  have held : (performAll 200 selfContaining).heldValues =
      [.list (.entry 0 0), .list (.entry 0 0)] := by rfl
  have list : (performAll 200 selfContaining).list (.entry 0 0) = .ok [.list (.entry 0 0)] := by rfl
  have typed : (performAll 200 selfContaining).WellTyped := by
    intro value mem
    rw [held] at mem
    obtain rfl : value = .list (.entry 0 0) := by simpa using mem
    exact fun _ => ⟨_, list⟩
  exact ⟨typed, collected_performAll 200 selfContaining typed⟩

end Memory

end PocketScript
