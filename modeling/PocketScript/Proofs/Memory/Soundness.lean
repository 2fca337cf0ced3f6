import PocketScript.Proofs.Memory.Contents
import PocketScript.Proofs.Memory.Partition
import PocketScript.Proofs.Memory.Registration

/-! # Sound memory

Memory is sound if its contents are consistent and everything in variables and
registrations is live. Operations on live values are never refused because of a
collected object, keep memory sound and keep every live value live; they may be
refused for other reasons, and then only the heap is known to be well-formed.
-/

namespace PocketScript

namespace Heap

variable {heap : Heap} {cell object : Handle}

/-- What the objects hold. -/
def contents (heap : Heap) : Contents :=
  fun handle => (heap.get? handle).map (·.payload)

theorem contents_modify (handle : Handle) (change : HeapObject → HeapObject) (found : Handle) :
    (heap.modify handle change).contents found =
      if found = handle then (heap.get? found).map (fun object => (change object).payload)
      else heap.contents found := by
  rw [contents, get?_modify]
  split
  · rw [Option.map_map]
    rfl
  · rfl

theorem contents_setTarget (found : Handle) : (heap.setTarget cell object).contents found =
    if found = cell then (heap.contents found).map (fun _ => .target object)
    else heap.contents found := by
  rw [setTarget, contents_modify]
  split
  · rw [contents, Option.map_map]
    rfl
  · rfl

theorem target?_eq_some_iff : heap.target? cell = some object ↔
    heap.contents cell = some (.target object) := by
  rw [target?, contents, Option.bind_eq_some_iff, Option.map_eq_some_iff]
  refine exists_congr fun found => and_congr_right fun _ => ?_
  cases found.payload <;> simp [Payload.target?]

end Heap

namespace Memory

open MemoryM

variable {memory after : Memory} {cell object : Handle} {payload : Payload} {α β : Type}

/-- A value whose string or list is there. -/
def Live (memory : Memory) (value : Value) : Prop :=
  memory.heap.contents.Live value

theorem live_missing (memory : Memory) : memory.Live .missing :=
  trivial

theorem live_number (memory : Memory) (number : Float32) : memory.Live (.number number) :=
  trivial

theorem live_function (memory : Memory) (header : Address) : memory.Live (.function header) :=
  trivial

theorem payload_eq_ok_iff_contents : memory.payload cell = .ok payload ↔
    ∃ object, memory.heap.contents cell = some (.target object) ∧ memory.heap.contents object = some payload := by
  simp only [payload_eq_ok_iff, Heap.target?_eq_some_iff, Heap.contents, Option.map_eq_some_iff,
    exists_and_left]

theorem live_string_iff : memory.Live (.string cell) ↔ ∃ bytes, memory.string cell = .ok bytes := by
  simp only [string_eq_ok_iff, payload_eq_ok_iff_contents]
  exact exists_comm

theorem live_list_iff : memory.Live (.list cell) ↔ ∃ values, memory.list cell = .ok values := by
  simp only [list_eq_ok_iff, payload_eq_ok_iff_contents]
  exact exists_comm

/-- What every evaluation keeps. -/
structure Sound (memory : Memory) : Prop where
  heap : memory.heap.WellFormed
  consistent : memory.heap.contents.Consistent
  bound : ∀ place binding, memory.stack.variableAt? place = some binding → memory.Live binding.value
  registered : ∀ value, memory.roots.Registered value → memory.Live value

theorem Sound.items (sound : memory.Sound) {values : List Value} (list : memory.list cell = .ok values) :
    ∀ value ∈ values, memory.Live value := by
  obtain ⟨object, -, found⟩ := payload_eq_ok_iff_contents.mp (list_eq_ok_iff.mp list)
  exact sound.consistent.items object values found

/-- What one operation leads to: every live value is live still, and no variable
    and no registration is lost. -/
structure Evolves (memory after : Memory) : Prop where
  sound : after.Sound
  keeps : ∀ value, memory.Live value → after.Live value
  depth : after.stack.scopes.size = memory.stack.scopes.size
  places : ∀ place, (memory.stack.variableAt? place).isSome → (after.stack.variableAt? place).isSome
  roots : memory.roots.Extends after.roots

namespace Evolves

theorem refl (sound : memory.Sound) : memory.Evolves memory :=
  ⟨sound, fun _ live => live, rfl, fun _ there => there, .refl _⟩

theorem trans {last : Memory} (first : memory.Evolves after) (second : after.Evolves last) :
    memory.Evolves last :=
  ⟨second.sound, fun value live => second.keeps value (first.keeps value live),
    second.depth.trans first.depth, fun place there => second.places place (first.places place there),
    first.roots.trans second.roots⟩

/-- Another heap. -/
theorem ofHeap (sound : memory.Sound) {heap : Heap} (wellFormed : heap.WellFormed)
    (change : heap.contents.Consistent ∧
      memory.heap.contents.Keeps heap.contents) :
    memory.Evolves { memory with heap } := by
  obtain ⟨consistent, keeps⟩ := change
  refine ⟨⟨wellFormed, consistent, fun place binding here => ?_, fun value mem => ?_⟩, keeps, rfl,
    fun _ there => there, .refl _⟩
  · exact keeps _ (sound.bound place binding here)
  · exact keeps _ (sound.registered value mem)

/-- Other scopes. -/
theorem ofStack (sound : memory.Sound) {stack : ScopeStack}
    (bound : ∀ place binding, stack.variableAt? place = some binding → memory.Live binding.value)
    (depth : stack.scopes.size = memory.stack.scopes.size)
    (places : ∀ place, (memory.stack.variableAt? place).isSome → (stack.variableAt? place).isSome) :
    memory.Evolves { memory with stack } :=
  ⟨⟨sound.heap, sound.consistent, bound, sound.registered⟩, fun _ live => live, depth, places, .refl _⟩

end Evolves

/-- An operation that is not refused because of a collected object. -/
def Runs (operation : MemoryM α) (memory : Memory) (done : α → Memory → Prop) : Prop :=
  Ends operation memory (fun result after => memory.Evolves after ∧ done result after)
    fun error after => error ≠ .dangling ∧ after.heap.WellFormed

section Runs

variable {operation : MemoryM α} {next : α → MemoryM β} {done : α → Memory → Prop}
  {done' : β → Memory → Prop}

theorem Runs.bind (first : Runs operation memory done)
    (rest : ∀ result after, memory.Evolves after → done result after → Runs (next result) after done') :
    Runs (operation >>= next) memory done' := by
  refine Ends.bind (first.mono ?_ fun _ _ refused => refused)
  intro result after done
  obtain ⟨evolves, holds⟩ := done
  refine (rest result after evolves holds).mono ?_ fun _ _ refused => refused
  intro result' last done'
  obtain ⟨evolves', holds'⟩ := done'
  exact ⟨evolves.trans evolves', holds'⟩

theorem Runs.pure (sound : memory.Sound) {result : α} (holds : done result memory) :
    Runs (Pure.pure result) memory done :=
  ⟨.refl sound, holds⟩

theorem Runs.throw (sound : memory.Sound) {error : MemoryError} (other : error ≠ .dangling) :
    Runs (throw error : MemoryM α) memory done :=
  ⟨other, sound.heap⟩

theorem Runs.look (sound : memory.Sound) {view : Memory → Except MemoryError α}
    (other : view memory ≠ .error .dangling)
    (holds : ∀ result, view memory = .ok result → done result memory) :
    Runs (Memory.look view) memory done := by
  refine Ends.look (fun result seen => ⟨.refl sound, holds result seen⟩) fun error seen => ?_
  refine ⟨?_, sound.heap⟩
  rintro rfl
  exact other seen

theorem Runs.mono (runs : Runs operation memory done) {done' : α → Memory → Prop}
    (more : ∀ result after, memory.Evolves after → done result after → done' result after) :
    Runs operation memory done' :=
  Ends.mono runs (fun result after done => ⟨done.1, more result after done.1 done.2⟩)
    fun _ _ refused => refused

/-- Looking at a live string. -/
theorem Runs.string (sound : memory.Sound) (live : memory.Live (.string cell)) :
    Runs (Memory.look (·.string cell)) memory
      fun bytes after => after = memory ∧ memory.string cell = .ok bytes := by
  obtain ⟨bytes, string⟩ := live_string_iff.mp live
  refine .look sound (by simp [string]) fun bytes seen => ⟨rfl, seen⟩

/-- Looking at a live list. -/
theorem Runs.list (sound : memory.Sound) (live : memory.Live (.list cell)) :
    Runs (Memory.look (·.list cell)) memory
      fun values after => after = memory ∧ memory.list cell = .ok values := by
  obtain ⟨values, list⟩ := live_list_iff.mp live
  refine .look sound (by simp [list]) fun values seen => ⟨rfl, seen⟩

/-- A check that needs no memory. -/
theorem Runs.require (sound : memory.Sound) {result : Except MemoryError α}
    (other : result ≠ .error .dangling) :
    Runs (Memory.require result) memory fun found after => after = memory ∧ result = .ok found :=
  .look sound other fun _ seen => ⟨rfl, seen⟩

end Runs

theorem checkPlace_ne (index : Int) (length : Nat) : checkPlace index length ≠ .error .dangling := by
  rw [checkPlace]
  split <;> simp

theorem checkRange_ne (start finish : Int) (length : Nat) :
    checkRange start finish length ≠ .error .dangling := by
  rw [checkRange]
  split <;> simp

/-- A new object. -/
theorem Sound.allocate (sound : memory.Sound) (fresh : memory.heap.contents.Fresh payload) (bytes : Nat) :
    Runs (allocate bytes payload) memory fun handle after =>
      memory.heap.contents handle = none ∧ handle ≠ .dangling ∧
        ∀ found, after.heap.contents found = if found = handle then some payload else memory.heap.contents found := by
  obtain none | ⟨address, handle, placed, ran, new⟩ :=
    sound.heap.allocate bytes payload memory.stack.boundary
  · refine Ends.onHeap (fun result heap ran => ?_) fun error missed => ?_
    · simp [none] at ran
    · obtain rfl : MemoryError.collision = error := by simpa [none] using missed
      exact ⟨by simp, sound.heap⟩
  · refine Ends.onHeap (fun result heap done => ?_) fun error missed => ?_
    · rw [ran, Except.ok.injEq, Prod.mk.injEq] at done
      obtain ⟨rfl, rfl⟩ := done
      have absent : memory.heap.contents handle = none := by simp [Heap.contents, new.fresh]
      have proper : handle ≠ .dangling := by
        rintro rfl
        simpa using new.get? .dangling
      have contents : ∀ found, placed.contents found =
          if found = handle then some payload else memory.heap.contents found := by
        intro found
        rw [Heap.contents, new.get?]
        split
        · rfl
        · rfl
      exact ⟨.ofHeap sound new.wellFormed (sound.consistent.insert absent proper fresh contents), absent,
        proper, contents⟩
    · simp [ran] at missed

/-- A new cell with what it stands for. -/
theorem Sound.createSequence (sound : memory.Sound) (payload : Payload) (fresh : memory.heap.contents.Fresh payload)
    (no_cell : payload.target? = none) (bytes : Nat) :
    Runs (createSequence bytes payload) memory fun cell after => after.payload cell = .ok payload := by
  have empty : memory.heap.contents.Fresh (.target .dangling) := rfl
  refine (sound.allocate empty pointerSize).bind ?_
  intro cell first evolves new
  obtain ⟨absent, proper, contents⟩ := new
  have fresh : first.heap.contents.Fresh payload := by
    cases payload with
    | target _ => simp [Payload.target?] at no_cell
    | bytes _ => trivial
    | values values => exact fun value mem => evolves.keeps value (fresh value mem)
  refine (evolves.sound.allocate fresh bytes).bind ?_
  intro object second evolves' new'
  obtain ⟨absent', proper', contents'⟩ := new'
  have apart : cell ≠ object := by
    rintro rfl
    simp [contents] at absent'
  have at_cell : second.heap.contents cell = some (.target .dangling) := by
    rw [contents', if_neg apart, contents, if_pos rfl]
  have at_object : second.heap.contents object = some payload := by rw [contents', if_pos rfl]
  -- The object is new, so no cell stood for it before.
  have unowned : ∀ other, second.heap.contents other ≠ some (.target object) := by
    intro other at_other
    rw [contents'] at at_other
    split at at_other
    · rw [Option.some.injEq] at at_other
      simp [at_other, Payload.target?] at no_cell
    · rcases evolves.sound.consistent.targets other object at_other with null | there
      · exact proper' null
      · simp [absent'] at there
  have linked : ∀ found, (second.heap.setTarget cell object).contents found =
      if found = cell then some (.target object) else second.heap.contents found := by
    intro found
    rw [Heap.contents_setTarget]
    split
    · next same => rw [same, at_cell, Option.map_some]
    · rfl
  have evolves'' : second.Evolves { second with heap := second.heap.setTarget cell object } :=
    .ofHeap evolves'.sound (evolves'.sound.heap.setTarget cell object)
      (evolves'.sound.consistent.link at_cell at_object no_cell unowned linked)
  have holds : { second with heap := second.heap.setTarget cell object }.payload cell = .ok payload := by
    refine payload_eq_ok_iff_contents.mpr ⟨object, by rw [linked, if_pos rfl], ?_⟩
    rw [linked, if_neg apart.symm, at_object]
  exact ⟨evolves'', holds⟩

/-- A new string is live. -/
theorem Sound.createString (sound : memory.Sound) (bytes : List UInt8) :
    Runs (createString bytes) memory fun cell after => after.Live (.string cell) := by
  refine (sound.createSequence (.bytes bytes) trivial rfl _).mono ?_
  intro cell after _ payload
  exact live_string_iff.mpr ⟨bytes, string_eq_ok_iff.mpr payload⟩

/-- A new list of live values is live. -/
theorem Sound.createList (sound : memory.Sound) {values : List Value}
    (live : ∀ value ∈ values, memory.Live value) :
    Runs (createList values) memory fun cell after => after.Live (.list cell) := by
  refine (sound.createSequence (.values values) live rfl _).mono ?_
  intro cell after _ payload
  exact live_list_iff.mpr ⟨values, list_eq_ok_iff.mpr payload⟩

theorem target?_of_payload (holds : memory.payload cell = .ok payload) :
    ∃ object found, memory.heap.target? cell = some object ∧ memory.heap.get? object = some found ∧
      found.payload = payload ∧ memory.heap.contents cell = some (.target object) ∧
      memory.heap.contents object = some payload := by
  obtain ⟨object, found, target, there, same⟩ := payload_eq_ok_iff.mp holds
  exact ⟨object, found, target, there, same, Heap.target?_eq_some_iff.mp target,
    by simp [Heap.contents, there, same]⟩

/-- Replacing what a cell stands for. -/
theorem Sound.setPayload (sound : memory.Sound) (holds : memory.payload cell = .ok payload)
    (no_cell : payload.target? = none) {payload' : Payload} (kind : payload'.kind = payload.kind)
    (fresh : memory.heap.contents.Fresh payload') : Runs (setPayload cell payload') memory fun _ _ => True := by
  obtain ⟨object, found, target, there, -, at_cell, at_object⟩ := target?_of_payload holds
  let replaced : HeapObject → HeapObject := ({ · with payload := payload' })
  have stays : ∀ object, (replaced object).address = object.address := fun _ => rfl
  have contents : ∀ other, (memory.heap.modify object replaced).contents other =
      if other = object then some payload' else memory.heap.contents other := by
    intro other
    rw [Heap.contents_modify]
    split
    · next same =>
      rw [same, there]
      rfl
    · rfl
  have evolves : memory.Evolves { memory with heap := memory.heap.modify object replaced } :=
    .ofHeap sound (sound.heap.modify stays fun _ _ => Nat.le_refl _)
      (sound.consistent.replace at_object no_cell kind fresh contents)
  refine Ends.modify ⟨?_, trivial⟩
  simp only [target]
  exact evolves

/-- What a cell stands for may move. -/
theorem Sound.move (sound : memory.Sound) (holds : memory.payload cell = .ok payload)
    (no_cell : payload.target? = none) (target : memory.heap.target? cell = some object) (size : Nat) :
    Runs (do setTarget cell (← resize object size)) memory fun _ after =>
      after.payload cell = .ok payload := by
  obtain ⟨object', found, target', there, held, at_cell, at_object⟩ := target?_of_payload holds
  obtain rfl : object = object' := Option.some.inj (target.symm.trans target')
  refine Ends.bind (Ends.onHeap (fun moved heap ran => ?_) fun error missed => ?_)
  · obtain none | ⟨moved, resized, ran', new, -⟩ :=
      sound.heap.resize there size memory.stack.boundary
    · simp [none] at ran
    · rw [ran', Except.ok.injEq, Prod.mk.injEq] at ran
      obtain ⟨rfl, rfl⟩ := ran
      obtain ⟨address, reachable, views⟩ := new.get?
      have views : ∀ other, resized.contents other =
          if other = moved then some payload else if other = object then none
          else memory.heap.contents other := by
        intro other
        rw [Heap.contents, views]
        split
        · simp [held]
        · split <;> rfl
      have cell_object : cell ≠ object := by
        rintro rfl
        rw [at_cell, Option.some.injEq] at at_object
        simp [← at_object, Payload.target?] at no_cell
      have cell_moved : cell ≠ moved := by
        rintro rfl
        rcases new.place with same | fresh
        · exact cell_object same
        · simp [Heap.contents, fresh] at at_cell
      have linked : ∀ other, (resized.setTarget cell moved).contents other =
          if other = cell then some (.target moved) else if other = moved then some payload
          else if other = object then none else memory.heap.contents other := by
        intro other
        rw [Heap.contents_setTarget, views]
        split
        · next same =>
          rw [same, if_neg cell_moved, if_neg cell_object, at_cell]
          rfl
        · rfl
      have wellFormed := new.wellFormed.setTarget cell moved
      have change : (resized.setTarget cell moved).contents.Consistent ∧
          memory.heap.contents.Keeps (resized.setTarget cell moved).contents := by
        rcases new.place with same | fresh
        · have unchanged : (resized.setTarget cell moved).contents = memory.heap.contents := by
            funext other
            rw [linked, same]
            split
            · next here => rw [here, at_cell]
            · split
              · next here => rw [here, at_object]
              · rfl
          rw [unchanged]
          exact ⟨sound.consistent, .refl _⟩
        · have absent : memory.heap.contents moved = none := by simp [Heap.contents, fresh]
          have proper : moved ≠ .dangling := by
            rintro rfl
            have here := views .dangling
            rw [if_pos rfl] at here
            simp [Heap.contents] at here
          exact sound.consistent.move at_cell at_object no_cell absent proper linked
      refine ⟨.ofHeap sound wellFormed change, payload_eq_ok_iff_contents.mpr ⟨moved, ?_, ?_⟩⟩
      · exact (linked cell).trans (if_pos rfl)
      · exact (linked moved).trans (by rw [if_neg cell_moved.symm, if_pos rfl])
  · obtain none | ⟨moved, resized, ran, -, -⟩ := sound.heap.resize there size memory.stack.boundary
    · obtain rfl : MemoryError.collision = error := by simpa [none] using missed
      exact ⟨by simp, sound.heap⟩
    · simp [ran] at missed

/-- Making room keeps what a cell stands for. -/
theorem Sound.resizePayload (sound : memory.Sound) (holds : memory.payload cell = .ok payload)
    (no_cell : payload.target? = none) (needed grown : Nat) :
    Runs (resizePayload cell needed grown) memory fun _ after => after.payload cell = .ok payload := by
  obtain ⟨object, found, target, there, -⟩ := target?_of_payload holds
  have capacity : memory.capacity cell = .ok found.size := by
    simp [Memory.capacity, target, there]
  have looks : Runs (Memory.look (·.capacity cell)) memory fun _ after => after = memory :=
    .look sound (by simp [capacity]) fun _ _ => rfl
  refine looks.bind ?_
  intro capacity _ _ same
  subst same
  split
  · refine Ends.bind (Ends.get ?_)
    simp only [target]
    exact sound.move holds no_cell target grown
  · exact .pure sound holds

/-- Making room for a live string or list. -/
theorem Sound.resizeLive (sound : memory.Sound) {value : Value} (live : memory.Live value)
    (at_cell : value.cell? = some cell) (needed grown : Nat) :
    Runs (Memory.resizePayload cell needed grown) memory fun _ _ => True := by
  obtain ⟨payload, holds, no_cell⟩ : ∃ payload, memory.payload cell = .ok payload ∧ payload.target? = none := by
    cases value with
    | missing | number _ | function _ => simp [Value.cell?] at at_cell
    | string _ =>
        obtain rfl := Option.some.inj at_cell
        obtain ⟨bytes, string⟩ := live_string_iff.mp live
        exact ⟨_, string_eq_ok_iff.mp string, rfl⟩
    | list _ =>
        obtain rfl := Option.some.inj at_cell
        obtain ⟨values, list⟩ := live_list_iff.mp live
        exact ⟨_, list_eq_ok_iff.mp list, rfl⟩
  exact (sound.resizePayload holds no_cell needed grown).mono fun _ _ _ _ => trivial

end Memory

end PocketScript
