import PocketScript.Proofs.Memory.Collector
import PocketScript.Proofs.Memory.Variables

/-! # What survives a collection

If memory is sound and every open scope is registered, then whatever variables,
registrations and lists hold survives a collection, and memory stays sound.
-/

namespace PocketScript

namespace Memory

variable {memory : Memory} {value : Value} {cell object : Handle}

/-- Every open scope is registered. -/
def Tracked (memory : Memory) : Prop :=
  ∀ index < memory.stack.scopes.size, Root.scope index ∈ memory.roots

theorem variableAt?_of_mem {scope : Scope} {index : Nat} (here : memory.stack.scopes[index]? = some scope)
    {binding : Variable} (mem : binding ∈ scope.bindings.toList) :
    ∃ place, memory.stack.variableAt? place = some binding := by
  obtain ⟨position, at_position⟩ := List.mem_iff_getElem?.mp mem
  refine ⟨⟨index, position⟩, ?_⟩
  simpa [ScopeStack.variableAt?, here] using at_position

/-- What a root keeps is live. -/
theorem Sound.live_of_root (sound : memory.Sound) {root : Root} (mem : root ∈ memory.roots)
    (holds : value ∈ memory.rootValues root) : memory.Live value := by
  cases root with
  | value held => exact sound.registered value ⟨_, mem, holds⟩
  | values held => exact sound.registered value ⟨_, mem, holds⟩
  | scope index =>
      simp only [rootValues] at holds
      split at holds
      · next scope here =>
        obtain ⟨binding, bound, rfl⟩ := List.mem_map.mp holds
        obtain ⟨place, at_place⟩ := variableAt?_of_mem here bound
        exact sound.bound place binding at_place
      · simp at holds

theorem Sound.wellTyped (sound : memory.Sound) : memory.WellTyped := by
  have typed : ∀ value, memory.Live value → memory.TypedValue value := by
    intro value live
    cases value with
    | missing | number _ | function _ => trivial
    | string cell => exact fun _ => live_string_iff.mp live
    | list cell => exact fun _ => live_list_iff.mp live
  intro value mem
  refine typed value ?_
  simp only [heldValues, List.mem_append, List.mem_flatMap, boundValues, listedValues] at mem
  rcases mem with (⟨root, mem, holds⟩ | ⟨scope, mem, bound⟩) | ⟨⟨handle, object⟩, mem, listed⟩
  · exact sound.live_of_root (Array.mem_toList_iff.mp mem) holds
  · obtain ⟨index, here⟩ := List.mem_iff_getElem?.mp mem
    obtain ⟨binding, listed, rfl⟩ := List.mem_map.mp bound
    obtain ⟨place, at_place⟩ := variableAt?_of_mem (by simpa using here) listed
    exact sound.bound place binding at_place
  · have found := sound.heap.mem_objects.mp mem
    cases payload : object.payload with
    | target _ | bytes _ => simp [payload, Payload.values?] at listed
    | values values =>
        have here : memory.heap.contents handle = some (.values values) := by
          simp [Heap.contents, found, payload]
        exact sound.consistent.items handle values here value (by simpa [payload, Payload.values?] using listed)

/-- What the roots reach is live. -/
theorem Sound.live_of_reaches (sound : memory.Sound) (reaches : memory.Reaches value) :
    memory.Live value := by
  induction reaches with
  | root root value mem holds => exact sound.live_of_root mem holds
  | item cell values value _ list mem _ => exact sound.items list value mem

/-- The contents that a collection leaves are those of the reached objects. -/
theorem Sound.contents_collect (sound : memory.Sound) (cell : Handle) :
    (memory.ReachesObject cell → memory.collect.2.heap.contents cell = memory.heap.contents cell) ∧
      ∀ payload, memory.collect.2.heap.contents cell = some payload →
        memory.ReachesObject cell ∧ memory.heap.contents cell = some payload := by
  obtain ⟨live, kept, -, -⟩ := sound.wellTyped.collected sound.heap
  have before : ∀ payload, memory.collect.2.heap.contents cell = some payload →
      memory.ReachesObject cell ∧ memory.heap.contents cell = some payload := by
    intro payload here
    obtain ⟨object, found, rfl⟩ := Option.map_eq_some_iff.mp here
    obtain ⟨old, there, -, -, same⟩ := kept cell object found
    refine ⟨((live cell).mp (Heap.contains_iff.mpr ⟨object, found⟩)).2, ?_⟩
    simp [Heap.contents, there, same]
  refine ⟨fun reaches => ?_, before⟩
  cases here : memory.heap.contents cell with
  | none =>
      cases after : memory.collect.2.heap.contents cell with
      | none => rfl
      | some payload => simp [(before payload after).2] at here
  | some payload =>
      obtain ⟨object, found, -⟩ := Option.map_eq_some_iff.mp here
      obtain ⟨left, there⟩ :=
        Heap.contains_iff.mp ((live cell).mpr ⟨Heap.contains_iff.mpr ⟨object, found⟩, reaches⟩)
      have after : memory.collect.2.heap.contents cell = some left.payload := by
        simp [Heap.contents, there]
      rw [after, ← here, (before _ after).2]

theorem Sound.survives (sound : memory.Sound) (reaches : memory.Reaches value) :
    memory.collect.2.Live value := by
  have live := sound.live_of_reaches reaches
  cases value with
  | missing | number _ | function _ => trivial
  | string cell =>
      obtain ⟨object, bytes, at_cell, at_object⟩ := live
      have target : memory.ReachesObject object :=
        .target _ cell object reaches rfl (Heap.target?_eq_some_iff.mpr at_cell)
      refine ⟨object, bytes, ?_, ?_⟩
      · rw [(sound.contents_collect cell).1 (.cell _ cell reaches rfl), at_cell]
      · rw [(sound.contents_collect object).1 target, at_object]
  | list cell =>
      obtain ⟨object, values, at_cell, at_object⟩ := live
      have target : memory.ReachesObject object :=
        .target _ cell object reaches rfl (Heap.target?_eq_some_iff.mpr at_cell)
      refine ⟨object, values, ?_, ?_⟩
      · rw [(sound.contents_collect cell).1 (.cell _ cell reaches rfl), at_cell]
      · rw [(sound.contents_collect object).1 target, at_object]

/-- What a reached object holds: as a cell it stands for an object that is there,
    and as a list it is the list of a reached value. -/
theorem Sound.reached_cell (sound : memory.Sound) (reaches : memory.ReachesObject cell)
    (at_cell : memory.heap.contents cell = some (.target object)) :
    memory.ReachesObject object ∧ (memory.heap.contents object).isSome := by
  cases reaches with
  | cell value cell reaches named =>
      refine ⟨.target value cell object reaches named (Heap.target?_eq_some_iff.mpr at_cell), ?_⟩
      have live := sound.live_of_reaches reaches
      cases value with
      | missing | number _ | function _ => simp [Value.cell?] at named
      | string _ =>
          obtain rfl := Option.some.inj named
          obtain ⟨object', bytes, at_cell', at_object⟩ := live
          obtain rfl : object = object' := by simpa [at_cell] using at_cell'
          simp [at_object]
      | list _ =>
          obtain rfl := Option.some.inj named
          obtain ⟨object', values, at_cell', at_object⟩ := live
          obtain rfl : object = object' := by simpa [at_cell] using at_cell'
          simp [at_object]
  | target value source target reaches named stands =>
      have source_target := Heap.target?_eq_some_iff.mp stands
      have live := sound.live_of_reaches reaches
      cases value with
      | missing | number _ | function _ => simp [Value.cell?] at named
      | string _ =>
          obtain rfl := Option.some.inj named
          obtain ⟨object', bytes, at_source, at_object⟩ := live
          obtain rfl : cell = object' := by simpa [source_target] using at_source
          simp [at_cell] at at_object
      | list _ =>
          obtain rfl := Option.some.inj named
          obtain ⟨object', values, at_source, at_object⟩ := live
          obtain rfl : cell = object' := by simpa [source_target] using at_source
          simp [at_cell] at at_object

theorem Sound.reached_items (sound : memory.Sound) (reaches : memory.ReachesObject object)
    {values : List Value} (at_object : memory.heap.contents object = some (.values values)) :
    ∀ value ∈ values, memory.Reaches value := by
  intro item mem
  cases reaches with
  | cell value object reaches named =>
      have live := sound.live_of_reaches reaches
      cases value with
      | missing | number _ | function _ => simp [Value.cell?] at named
      | string _ =>
          obtain rfl := Option.some.inj named
          obtain ⟨target, bytes, at_cell, -⟩ := live
          simp [at_object] at at_cell
      | list _ =>
          obtain rfl := Option.some.inj named
          obtain ⟨target, held, at_cell, -⟩ := live
          simp [at_object] at at_cell
  | target value source target reaches named stands =>
      have source_target := Heap.target?_eq_some_iff.mp stands
      have live := sound.live_of_reaches reaches
      cases value with
      | missing | number _ | function _ => simp [Value.cell?] at named
      | string _ =>
          obtain rfl := Option.some.inj named
          obtain ⟨object', bytes, at_source, held⟩ := live
          obtain rfl : object = object' := by simpa [source_target] using at_source
          simp [at_object] at held
      | list cell =>
          obtain rfl := Option.some.inj named
          refine .item cell values item reaches (list_eq_ok_iff.mpr ?_) mem
          exact payload_eq_ok_iff_contents.mpr ⟨object, source_target, at_object⟩

/-- A collection keeps memory sound if every open scope is registered. -/
theorem Sound.collect (sound : memory.Sound) (tracked : memory.Tracked) : memory.collect.2.Sound := by
  obtain ⟨dangling, targets, owned, items⟩ := sound.consistent
  have wellFormed : memory.collect.2.heap.WellFormed := by
    obtain ⟨marked, -, -⟩ := sound.heap.clearMarks.markAll (Nat.zero_le _)
      (memory.roots.toList.flatMap memory.rootValues).reverse
    exact (Heap.WellFormed.sweep marked).1
  refine ⟨wellFormed, ⟨rfl, fun cell object at_cell => ?_, fun cell other object at_cell at_other there => ?_,
    fun object values at_object value mem => ?_⟩, fun place binding here => ?_, fun value mem => ?_⟩
  · obtain ⟨reaches, before⟩ := (sound.contents_collect cell).2 _ at_cell
    obtain ⟨target, there⟩ := sound.reached_cell reaches before
    exact .inr (by rw [(sound.contents_collect object).1 target]; exact there)
  · obtain ⟨-, before⟩ := (sound.contents_collect cell).2 _ at_cell
    obtain ⟨-, before'⟩ := (sound.contents_collect other).2 _ at_other
    obtain ⟨payload, there⟩ := Option.isSome_iff_exists.mp there
    obtain ⟨-, there⟩ := (sound.contents_collect object).2 _ there
    exact owned cell other object before before' (by simp [there])
  · obtain ⟨reaches, before⟩ := (sound.contents_collect object).2 _ at_object
    exact sound.survives (sound.reached_items reaches before value mem)
  · -- The variable is in an open scope, which is registered.
    have here : memory.stack.variableAt? place = some binding := here
    refine sound.survives ?_
    rw [ScopeStack.variableAt?, Option.bind_eq_some_iff] at here
    obtain ⟨scope, at_scope, at_index⟩ := here
    have inside := (Array.getElem?_eq_some_iff.mp at_scope).1
    refine .root (.scope place.scope) binding.value (tracked _ inside) ?_
    simp only [rootValues, at_scope, List.mem_map]
    exact ⟨binding, Array.mem_toList_iff.mpr (Array.mem_of_getElem? at_index), rfl⟩
  · obtain ⟨root, mem, holds⟩ := mem
    refine sound.survives (.root root value mem ?_)
    cases root with
    | value held => exact holds
    | values held => exact holds
    | scope index => simp [Root.registered] at holds

end Memory

end PocketScript
