import PocketScript.Proofs.Memory.Collector
import PocketScript.Proofs.Memory.Soundness

/-! # Cells own what they stand for

However the operations on strings and lists are mixed with those on scopes and
roots, and whatever values they are given, no two cells ever stand for one
object, and every string or list fits into the bytes its object may fill. So
whatever is done through one cell, the others still read what they did.
-/

namespace PocketScript

/-- How many bytes a payload takes at least. -/
def Payload.room : Payload → Nat
  | .target _ => 0
  | .bytes held => Memory.stringSize held.length
  | .values held => Memory.listSize held.length

namespace Contents

variable {contents other : Contents} {cell object moved handle : Handle} {payload payload' : Payload}

/-- What is read through a cell. -/
def read (contents : Contents) (cell : Handle) : Option Payload :=
  (contents cell).bind fun payload => payload.target?.bind contents

/-- No two cells stand for one object, and none for another cell. -/
structure Separate (contents : Contents) : Prop where
  dangling : contents .dangling = none
  targets : ∀ cell object, contents cell = some (.target object) →
    object = .dangling ∨ ∃ payload, contents object = some payload ∧ payload.target? = none
  owned : ∀ cell other object, contents cell = some (.target object) →
    contents other = some (.target object) → (contents object).isSome → cell = other

theorem target?_eq_some (same : payload.target? = some object) : payload = .target object := by
  cases payload with
  | target _ => rw [Option.some.inj same]
  | bytes _ | values _ => cases same

theorem read_eq_some_iff : contents.read cell = some payload ↔
    ∃ object, contents cell = some (.target object) ∧ contents object = some payload := by
  simp only [read, Option.bind_eq_some_iff]
  constructor
  · rintro ⟨held, at_cell, object, target, at_object⟩
    exact ⟨object, target?_eq_some target ▸ at_cell, at_object⟩
  · rintro ⟨object, at_cell, at_object⟩
    exact ⟨_, at_cell, object, rfl, at_object⟩

/-- Two contents read alike through a cell if they do wherever one of them reads
    something. -/
theorem read_congr (first : ∀ payload, contents.read cell = some payload → other.read cell = some payload)
    (second : ∀ payload, other.read cell = some payload → contents.read cell = some payload) :
    other.read cell = contents.read cell :=
  Option.ext fun payload => ⟨second payload, first payload⟩

namespace Separate

/-- A cell that stands for something stands for what is no cell. -/
theorem not_cell (separate : contents.Separate) (at_cell : contents cell = some (.target object))
    (at_object : contents object = some payload) : payload.target? = none := by
  rcases separate.targets cell object at_cell with rfl | ⟨held, there, no_cell⟩
  · simp [separate.dangling] at at_object
  · rw [at_object] at there
    rwa [Option.some.inj there]

/-- A new object that no cell stands for yet. -/
theorem insert (separate : contents.Separate) (absent : contents handle = none) (proper : handle ≠ .dangling)
    (fresh : payload = .target .dangling ∨ payload.target? = none)
    (after : ∀ found, other found = if found = handle then some payload else contents found) :
    other.Separate ∧ ∀ found, other.read found = contents.read found := by
  have here : other handle = some payload := by rw [after, if_pos rfl]
  have elsewhere : ∀ found, found ≠ handle → other found = contents found :=
    fun found different => by rw [after, if_neg different]
  have nowhere : other .dangling = none := by rw [elsewhere _ proper.symm, separate.dangling]
  -- A cell is the new one, or it is an old one and stands for an old object.
  have cells : ∀ cell object, other cell = some (.target object) →
      object = .dangling ∨ contents cell = some (.target object) ∧ other object = contents object := by
    intro cell object at_cell
    by_cases new : cell = handle
    · rw [new, here, Option.some.injEq] at at_cell
      rcases fresh with rfl | no_cell
      · exact .inl (by simpa using at_cell.symm)
      · simp [at_cell, Payload.target?] at no_cell
    · rw [elsewhere cell new] at at_cell
      rcases separate.targets cell object at_cell with null | ⟨held, there, -⟩
      · exact .inl null
      · refine .inr ⟨at_cell, elsewhere object ?_⟩
        rintro rfl
        simp [absent] at there
  refine ⟨⟨nowhere, fun cell object at_cell => ?_, fun cell cell' object at_cell at_cell' there => ?_⟩,
    fun found => read_congr (fun held reads => ?_) fun held reads => ?_⟩
  · rcases cells cell object at_cell with null | ⟨old, same⟩
    · exact .inl null
    · rw [same]
      exact separate.targets cell object old
  · rcases cells cell object at_cell with rfl | ⟨old, same⟩
    · simp [nowhere] at there
    · rcases cells cell' object at_cell' with rfl | ⟨old', -⟩
      · simp [nowhere] at there
      · exact separate.owned cell cell' object old old' (same ▸ there)
  · obtain ⟨object, at_cell, at_object⟩ := read_eq_some_iff.mp reads
    refine read_eq_some_iff.mpr ⟨object, ?_, ?_⟩
    · rw [elsewhere, at_cell]
      rintro rfl
      simp [absent] at at_cell
    · rw [elsewhere, at_object]
      rintro rfl
      simp [absent] at at_object
  · obtain ⟨object, at_cell, at_object⟩ := read_eq_some_iff.mp reads
    rcases cells found object at_cell with rfl | ⟨old, same⟩
    · simp [nowhere] at at_object
    · exact read_eq_some_iff.mpr ⟨object, old, same ▸ at_object⟩

/-- A cell that stood for nothing comes to stand for an object that no cell stood
    for. -/
theorem link (separate : contents.Separate) (at_cell : contents cell = some (.target .dangling))
    (at_object : contents object = some payload) (no_cell : payload.target? = none)
    (unowned : ∀ other, contents other ≠ some (.target object))
    (after : ∀ found, other found = if found = cell then some (.target object) else contents found) :
    other.Separate ∧ other.read cell = some payload ∧
      ∀ found, found ≠ cell → other.read found = contents.read found := by
  have apart : object ≠ cell := by
    rintro rfl
    rw [at_cell, Option.some.injEq] at at_object
    simp [← at_object, Payload.target?] at no_cell
  have here : other cell = some (.target object) := by rw [after, if_pos rfl]
  have elsewhere : ∀ found, found ≠ cell → other found = contents found :=
    fun found different => by rw [after, if_neg different]
  have nowhere : other .dangling = none := by
    rw [elsewhere, separate.dangling]
    rintro rfl
    simp [separate.dangling] at at_cell
  have there : other object = some payload := by rw [elsewhere object apart, at_object]
  -- No other cell stands for this one.
  have others : ∀ found target, contents found = some (.target target) → target ≠ cell := by
    rintro found target at_found rfl
    have := separate.not_cell at_found at_cell
    simp [Payload.target?] at this
  refine ⟨⟨nowhere, fun found target at_found => ?_, fun found found' target at_found at_found' present => ?_⟩,
    read_eq_some_iff.mpr ⟨object, here, there⟩, fun found different => ?_⟩
  · by_cases same : found = cell
    · rw [same, here] at at_found
      obtain rfl : object = target := by simpa using at_found
      exact .inr ⟨payload, there, no_cell⟩
    · rw [elsewhere found same] at at_found
      rw [elsewhere target (others found target at_found)]
      exact separate.targets found target at_found
  · by_cases same : found = cell <;> by_cases same' : found' = cell
    · rw [same, same']
    · rw [same, here] at at_found
      rw [elsewhere found' same'] at at_found'
      obtain rfl : object = target := by simpa using at_found
      exact absurd at_found' (unowned found')
    · rw [same', here] at at_found'
      rw [elsewhere found same] at at_found
      obtain rfl : object = target := by simpa using at_found'
      exact absurd at_found (unowned found)
    · rw [elsewhere found same] at at_found
      rw [elsewhere found' same'] at at_found'
      rw [elsewhere target (others found target at_found)] at present
      exact separate.owned found found' target at_found at_found' present
  · refine read_congr (fun held reads => ?_) fun held reads => ?_
    · obtain ⟨target, at_found, at_target⟩ := read_eq_some_iff.mp reads
      refine read_eq_some_iff.mpr ⟨target, by rw [elsewhere found different, at_found], ?_⟩
      rw [elsewhere target (others found target at_found), at_target]
    · obtain ⟨target, at_found, at_target⟩ := read_eq_some_iff.mp reads
      rw [elsewhere found different] at at_found
      rw [elsewhere target (others found target at_found)] at at_target
      exact read_eq_some_iff.mpr ⟨target, at_found, at_target⟩

/-- The object that a cell stands for comes to hold something else, and may be
    another one from then on. -/
theorem replace (separate : contents.Separate) (at_cell : contents cell = some (.target object))
    (at_object : contents object = some payload) (no_cell : payload'.target? = none)
    (place : moved = object ∨ contents moved = none ∧ moved ≠ .dangling)
    (after : ∀ found, other found = if found = cell then some (.target moved)
      else if found = moved then some payload' else if found = object then none else contents found) :
    other.Separate ∧ other.read cell = some payload' ∧
      ∀ found, found ≠ cell → other.read found = contents.read found := by
  have was_no_cell := separate.not_cell at_cell at_object
  have cell_object : cell ≠ object := by
    rintro rfl
    rw [at_cell, Option.some.injEq] at at_object
    simp [← at_object, Payload.target?] at was_no_cell
  have cell_moved : cell ≠ moved := by
    rintro rfl
    rcases place with same | ⟨absent, -⟩
    · exact cell_object same
    · simp [absent] at at_cell
  have cell_proper : cell ≠ .dangling := by
    rintro rfl
    simp [separate.dangling] at at_cell
  have moved_proper : moved ≠ .dangling := by
    rcases place with rfl | ⟨-, proper⟩
    · rintro rfl
      simp [separate.dangling] at at_object
    · exact proper
  have here : other cell = some (.target moved) := by rw [after, if_pos rfl]
  have there : other moved = some payload' := by rw [after, if_neg cell_moved.symm, if_pos rfl]
  have elsewhere : ∀ found, found ≠ cell → found ≠ moved → found ≠ object → other found = contents found :=
    fun found first second third => by rw [after, if_neg first, if_neg second, if_neg third]
  have gone : object ≠ moved → other object = none :=
    fun different => by rw [after, if_neg cell_object.symm, if_neg different, if_pos rfl]
  have nowhere : other .dangling = none := by
    by_cases same : object = .dangling
    · exact same ▸ gone (same ▸ moved_proper.symm)
    · rw [elsewhere _ cell_proper.symm moved_proper.symm (Ne.symm same), separate.dangling]
  -- Another cell is an old one, and what it stands for is none of the three.
  have others : ∀ found target, found ≠ cell → contents found = some (.target target) →
      other found = some (.target target) ∧ other target = contents target := by
    intro found target first at_found
    have second : found ≠ moved := by
      rintro rfl
      rcases place with rfl | ⟨absent, -⟩
      · rw [at_found, Option.some.injEq] at at_object
        simp [← at_object, Payload.target?] at was_no_cell
      · simp [absent] at at_found
    have third : found ≠ object := by
      rintro rfl
      rw [at_found, Option.some.injEq] at at_object
      simp [← at_object, Payload.target?] at was_no_cell
    have target_object : target ≠ object := by
      rintro rfl
      exact first (separate.owned found cell target at_found at_cell (by simp [at_object]))
    refine ⟨(elsewhere found first second third).trans at_found, ?_⟩
    rcases separate.targets found target at_found with rfl | ⟨held, present, no_cell⟩
    · rw [nowhere, separate.dangling]
    · refine elsewhere target ?_ ?_ target_object
      · rintro rfl
        rw [at_cell, Option.some.injEq] at present
        simp [← present, Payload.target?] at no_cell
      · rintro rfl
        rcases place with same | ⟨absent, -⟩
        · exact target_object same
        · simp [absent] at present
  have old : ∀ found target, found ≠ cell → other found = some (.target target) →
      contents found = some (.target target) := by
    intro found target first at_found
    by_cases second : found = moved
    · rw [second, there, Option.some.injEq] at at_found
      simp [at_found, Payload.target?] at no_cell
    · by_cases third : found = object
      · rw [third, gone (third ▸ second)] at at_found
        cases at_found
      · rwa [elsewhere found first second third] at at_found
  have unowned : ∀ found, found ≠ cell → other found ≠ some (.target moved) := by
    intro found first at_found
    have before := old found moved first at_found
    rcases place with rfl | ⟨absent, proper⟩
    · exact first (separate.owned found cell moved before at_cell (by simp [at_object]))
    · rcases separate.targets found moved before with null | ⟨held, present, -⟩
      · exact proper null
      · simp [absent] at present
  refine ⟨⟨nowhere, fun found target at_found => ?_, fun found found' target at_found at_found' present => ?_⟩,
    read_eq_some_iff.mpr ⟨moved, here, there⟩, fun found different => ?_⟩
  · by_cases same : found = cell
    · rw [same, here] at at_found
      obtain rfl : moved = target := by simpa using at_found
      exact .inr ⟨payload', there, no_cell⟩
    · have before := old found target same at_found
      rw [(others found target same before).2]
      exact separate.targets found target before
  · by_cases same : found = cell <;> by_cases same' : found' = cell
    · rw [same, same']
    · rw [same, here] at at_found
      obtain rfl : moved = target := by simpa using at_found
      exact absurd at_found' (unowned found' same')
    · rw [same', here] at at_found'
      obtain rfl : moved = target := by simpa using at_found'
      exact absurd at_found (unowned found same)
    · have before := old found target same at_found
      rw [(others found target same before).2] at present
      exact separate.owned found found' target before (old found' target same' at_found') present
  · refine read_congr (fun held reads => ?_) fun held reads => ?_
    · obtain ⟨target, at_found, at_target⟩ := read_eq_some_iff.mp reads
      obtain ⟨still, same⟩ := others found target different at_found
      exact read_eq_some_iff.mpr ⟨target, still, same.trans at_target⟩
    · obtain ⟨target, at_found, at_target⟩ := read_eq_some_iff.mp reads
      have before := old found target different at_found
      exact read_eq_some_iff.mpr ⟨target, before, (others found target different before).2 ▸ at_target⟩

/-- Fewer objects, but with a cell also what it stands for. -/
theorem restrict (separate : contents.Separate)
    (kept : ∀ found payload, other found = some payload → contents found = some payload)
    (closed : ∀ cell object, other cell = some (.target object) → (contents object).isSome →
      (other object).isSome) : other.Separate := by
  have same : ∀ found payload, (other found).isSome → contents found = some payload → other found = some payload := by
    intro found payload there before
    obtain ⟨held, there⟩ := Option.isSome_iff_exists.mp there
    rw [there, ← before, kept found held there]
  refine ⟨?_, fun cell object at_cell => ?_, fun cell cell' object at_cell at_cell' there => ?_⟩
  · cases here : other .dangling with
    | none => rfl
    | some payload => simpa [separate.dangling] using kept _ _ here
  · rcases separate.targets cell object (kept _ _ at_cell) with null | ⟨payload, there, no_cell⟩
    · exact .inl null
    · exact .inr ⟨payload, same object payload (closed cell object at_cell (by simp [there])) there, no_cell⟩
  · obtain ⟨payload, there⟩ := Option.isSome_iff_exists.mp there
    exact separate.owned cell cell' object (kept _ _ at_cell) (kept _ _ at_cell') (by simp [kept _ _ there])

end Separate

end Contents

namespace Heap

variable {heap marked : Heap} {cell : Handle}

/-- What a marked cell stands for is marked. -/
def MarksTargets (heap : Heap) : Prop :=
  ∀ cell object, heap.target? cell = some object → heap.isMarked cell = true → heap.contains object = true →
    heap.isMarked object = true

theorem Alike.contents_eq (alike : heap.Alike marked) : marked.contents = heap.contents :=
  funext fun handle => alike.map_eq (·.payload) (fun _ => rfl) handle

theorem MarksTargets.markCell (separate : heap.contents.Separate) (closed : heap.MarksTargets) (cell : Handle) :
    (heap.markCell cell).MarksTargets := by
  have alike := alike_markCell heap cell
  intro other object target reached there
  rw [alike.target?_eq] at target
  rw [alike.contains_eq] at there
  rcases isMarked_markCell.mp reached with before | ⟨rfl | target', -⟩
  · exact isMarked_markCell.mpr (.inl (closed other object target before there))
  · exact isMarked_markCell.mpr (.inr ⟨.inr target, there⟩)
  · -- What a cell stands for is no cell.
    have := separate.not_cell (target?_eq_some_iff.mp target') (target?_eq_some_iff.mp target)
    simp [Payload.target?] at this

theorem MarksTargets.visit (separate : heap.contents.Separate) (closed : heap.MarksTargets) (value : Value) :
    heap.Alike (heap.visit value).1 ∧ (heap.visit value).1.MarksTargets := by
  cases value with
  | missing | number _ | function _ => exact ⟨.refl heap, closed⟩
  | string cell =>
      rw [visit_string]
      exact ⟨alike_markCell heap cell, closed.markCell separate cell⟩
  | list cell =>
      rw [visit_list]
      split
      · exact ⟨alike_markCell heap cell, closed.markCell separate cell⟩
      · exact ⟨.refl heap, closed⟩

theorem MarksTargets.markAll (separate : heap.contents.Separate) (closed : heap.MarksTargets)
    (pending : List Value) : heap.Alike (heap.markAll pending) ∧ (heap.markAll pending).MarksTargets := by
  induction heap, pending using Heap.markAll.induct with
  | case1 heap =>
      rw [Heap.markAll]
      exact ⟨.refl heap, closed⟩
  | case2 heap value rest ih =>
      obtain ⟨alike, closed⟩ := closed.visit separate value
      obtain ⟨alike', closed'⟩ := ih (alike.contents_eq ▸ separate) closed
      rw [Heap.markAll]
      exact ⟨alike.trans alike', closed'⟩

end Heap

namespace Memory

open MemoryM

variable {memory after last : Memory} {cell object handle : Handle} {payload payload' : Payload} {size : Nat}

/-- What is read through a cell. -/
theorem payload_eq_read : memory.payload cell =
    ((memory.heap.contents.read cell).elim (.error .dangling) .ok) := by
  cases reads : memory.heap.contents.read cell with
  | some payload => exact payload_eq_ok_iff_contents.mpr (Contents.read_eq_some_iff.mp reads)
  | none =>
      cases read : memory.payload cell with
      | ok payload =>
          have := Contents.read_eq_some_iff.mpr (payload_eq_ok_iff_contents.mp read)
          simp [reads] at this
      | error error =>
          rw [Memory.payload] at read
          split at read
          · cases read
          · rw [← Except.error.inj read]
            rfl

theorem payload_eq_ok_iff_read : memory.payload cell = .ok payload ↔
    memory.heap.contents.read cell = some payload :=
  payload_eq_ok_iff_contents.trans Contents.read_eq_some_iff.symm

/-- A collection leaves what is marked, and with a cell what it stands for. -/
theorem marked_collect (wellFormed : memory.heap.WellFormed) (separate : memory.heap.contents.Separate) :
    ∃ marked : Heap, memory.heap.Alike marked ∧ marked.MarksTargets ∧ memory.collect.2.heap.WellFormed ∧
      ∀ handle, memory.collect.2.heap.get? handle = (marked.get? handle).filter (·.reachable) := by
  let pending := (memory.roots.toList.flatMap memory.rootValues).reverse
  have cleared := Heap.alike_clearMarks wellFormed
  have unmarked : memory.heap.clearMarks.MarksTargets := by
    intro cell object _ marked _
    rw [Heap.isMarked, wellFormed.get?_clearMarks] at marked
    cases here : memory.heap.get? cell <;> simp [here, HeapObject.marked] at marked
  obtain ⟨alike, closed⟩ := unmarked.markAll (cleared.contents_eq ▸ separate) pending
  obtain ⟨sound, -, -⟩ := wellFormed.clearMarks.markAll (Nat.zero_le _) pending
  obtain ⟨wellFormed, -, left, -⟩ := sound.sweep
  exact ⟨_, cleared.trans alike, closed, wellFormed, left⟩

/-- What a collection leaves was there before. -/
theorem get?_of_collect (wellFormed : memory.heap.WellFormed) (separate : memory.heap.contents.Separate)
    {found : HeapObject} (left : memory.collect.2.heap.get? handle = some found) :
    ∃ old, memory.heap.get? handle = some old ∧ old.address = found.address ∧ old.size = found.size ∧
      old.payload = found.payload := by
  obtain ⟨marked, alike, -, -, filtered⟩ := marked_collect wellFormed separate
  rw [filtered, Option.filter_eq_some_iff] at left
  have view := alike.map_eq (fun object => (object.address, object.size, object.payload)) (fun _ => rfl) handle
  rw [left.1, Option.map_some, eq_comm, Option.map_eq_some_iff] at view
  obtain ⟨old, there, same⟩ := view
  simp only [Prod.mk.injEq] at same
  exact ⟨old, there, same⟩

/-- A collection that leaves a cell leaves what it stands for. -/
theorem target_of_collect (wellFormed : memory.heap.WellFormed) (separate : memory.heap.contents.Separate)
    (at_cell : memory.collect.2.heap.contents cell = some (.target object))
    (there : (memory.heap.contents object).isSome) : (memory.collect.2.heap.contents object).isSome := by
  obtain ⟨marked, alike, closed, -, filtered⟩ := marked_collect wellFormed separate
  obtain ⟨held, here, payload⟩ := Option.map_eq_some_iff.mp at_cell
  rw [filtered, Option.filter_eq_some_iff] at here
  rw [← alike.contents_eq] at there
  have target : marked.target? cell = some object :=
    Heap.target?_eq_some_iff.mpr (by simp [Heap.contents, here.1, payload])
  obtain ⟨found, at_object⟩ : ∃ found, marked.get? object = some found := by
    simpa [Heap.contents, Option.isSome_iff_exists] using there
  have reached := closed cell object target (by simp [Heap.isMarked, here]) (by simp [Heap.contains, at_object])
  have reachable : found.reachable = true := by simpa [Heap.isMarked, at_object] using reached
  simp [Heap.contents, filtered, at_object, reachable]

/-- A collection removes a cell only together with what it stands for. -/
theorem separate_contents_collect (wellFormed : memory.heap.WellFormed)
    (separate : memory.heap.contents.Separate) : memory.collect.2.heap.contents.Separate := by
  refine separate.restrict (fun handle payload left => ?_) fun _ _ => target_of_collect wellFormed separate
  obtain ⟨found, here, rfl⟩ := Option.map_eq_some_iff.mp left
  obtain ⟨old, there, -, -, same⟩ := get?_of_collect wellFormed separate here
  rw [Heap.contents, there, Option.map_some, same]

/-- Cells own what they stand for, and everything fits where it is. -/
structure Separate (memory : Memory) : Prop where
  heap : memory.heap.WellFormed
  contents : memory.heap.contents.Separate
  room : ∀ handle object, memory.heap.get? handle = some object → object.payload.room ≤ object.size

/-- Something else is read through one cell, and the same through all others. -/
structure Edited (memory : Memory) (cell : Handle) (payload : Payload) (after : Memory) : Prop where
  separate : after.Separate
  reads : after.payload cell = .ok payload
  others : ∀ other, other ≠ cell → after.payload other = memory.payload other
  rest : after = { memory with heap := after.heap }

theorem Edited.trans (first : memory.Edited cell payload after) (second : after.Edited cell payload' last) :
    memory.Edited cell payload' last :=
  ⟨second.separate, second.reads,
    fun other different => (second.others other different).trans (first.others other different),
    second.rest.trans (by rw [first.rest])⟩

theorem Separate.refl_edited (separate : memory.Separate) (reads : memory.payload cell = .ok payload) :
    memory.Edited cell payload memory :=
  ⟨separate, reads, fun _ _ => rfl, rfl⟩

/-- Memory with another heap. -/
theorem Edited.ofHeap {heap : Heap} (wellFormed : heap.WellFormed)
    (room : ∀ handle object, heap.get? handle = some object → object.payload.room ≤ object.size)
    (change : heap.contents.Separate ∧ heap.contents.read cell = some payload ∧
      ∀ found, found ≠ cell → heap.contents.read found = memory.heap.contents.read found) :
    memory.Edited cell payload { memory with heap } := by
  obtain ⟨separate, reads, others⟩ := change
  refine ⟨⟨wellFormed, separate, room⟩, payload_eq_ok_iff_read.mpr reads, fun other different => ?_, rfl⟩
  rw [payload_eq_read, payload_eq_read, others other different]

namespace Separate

theorem exists_capacity (separate : memory.Separate) (reads : memory.payload cell = .ok payload) :
    ∃ size, memory.capacity cell = .ok size ∧ payload.room ≤ size := by
  obtain ⟨object, found, target, there, rfl, -, -⟩ := target?_of_payload reads
  exact ⟨found.size, by simp [Memory.capacity, target, there], separate.room object found there⟩

/-- A new object that no cell stands for. -/
theorem allocate (separate : memory.Separate) (fresh : payload = .target .dangling ∨ payload.target? = none)
    (room : payload.room ≤ size) :
    Ends (allocate size payload) memory
      (fun handle after => after.Separate ∧ memory.heap.contents handle = none ∧ handle ≠ .dangling ∧
        (∀ found, after.heap.contents found =
          if found = handle then some payload else memory.heap.contents found) ∧
        (∀ found, after.heap.contents.read found = memory.heap.contents.read found) ∧
        after = { memory with heap := after.heap })
      (fun error after => error = .collision ∧ after = memory) := by
  obtain none | ⟨address, handle, placed, ran, new⟩ :=
    separate.heap.allocate size payload memory.stack.boundary
  · refine Ends.onHeap (fun result heap ran => ?_) fun error missed => ?_
    · simp [none] at ran
    · exact ⟨by simpa [none] using missed.symm, rfl⟩
  · refine Ends.onHeap (fun result heap done => ?_) fun error missed => ?_
    · rw [ran, Except.ok.injEq, Prod.mk.injEq] at done
      obtain ⟨rfl, rfl⟩ := done
      have absent : memory.heap.contents handle = none := by simp [Heap.contents, new.fresh]
      have proper : handle ≠ .dangling := by
        rintro rfl
        simpa using new.get? .dangling
      have contents : ∀ found, placed.contents found =
          if found = handle then some payload else memory.heap.contents found := by
        intro found
        rw [Heap.contents, new.get?]
        split
        · rfl
        · rfl
      obtain ⟨separated, reads⟩ := separate.contents.insert absent proper fresh contents
      refine ⟨⟨new.wellFormed, separated, fun found object here => ?_⟩, absent, proper, contents, reads, rfl⟩
      rw [new.get?] at here
      split at here
      · obtain rfl := Option.some.inj here
        exact room
      · exact separate.room found object here
    · simp [ran] at missed

/-- What a new string or list leads to: a new cell to read it through, or at
    least nothing else to read through the other cells. -/
theorem createSequence (separate : memory.Separate) (no_cell : payload.target? = none) (room : payload.room ≤ size) :
    Ends (createSequence size payload) memory
      (fun cell after => memory.Edited cell payload after ∧ memory.heap.contents cell = none)
      (fun error after => error = .collision ∧ after.Separate ∧
        ∀ other, after.payload other = memory.payload other) := by
  refine Ends.bind ((separate.allocate (.inl rfl) (Nat.zero_le pointerSize)).mono ?_ ?_)
  · rintro cell first ⟨separate', absent, proper, contents, reads, rest⟩
    refine Ends.bind ((separate'.allocate (.inr no_cell) room).mono ?_ ?_)
    · rintro object second ⟨separate'', absent', proper', contents', reads', rest'⟩
      have apart : cell ≠ object := by
        rintro rfl
        simp [contents] at absent'
      have at_cell : second.heap.contents cell = some (.target .dangling) := by
        rw [contents', if_neg apart, contents, if_pos rfl]
      have at_object : second.heap.contents object = some payload := by rw [contents', if_pos rfl]
      -- The object is new, so no cell stood for it before.
      have unowned : ∀ other, second.heap.contents other ≠ some (.target object) := by
        intro other at_other
        rw [contents'] at at_other
        split at at_other
        · rw [Option.some.injEq] at at_other
          simp [at_other, Payload.target?] at no_cell
        · rcases separate'.contents.targets other object at_other with null | ⟨held, there, -⟩
          · exact proper' null
          · simp [absent'] at there
      have linked : ∀ found, (second.heap.setTarget cell object).contents found =
          if found = cell then some (.target object) else second.heap.contents found := by
        intro found
        rw [Heap.contents_setTarget]
        split
        · next same => rw [same, at_cell, Option.map_some]
        · rfl
      obtain ⟨separated, read, others⟩ := separate''.contents.link at_cell at_object no_cell unowned linked
      refine ⟨?_, absent⟩
      have edited : memory.Edited cell payload { memory with heap := second.heap.setTarget cell object } := by
        refine .ofHeap (separate''.heap.setTarget cell object) (fun handle found here => ?_)
          ⟨separated, read, fun other different => ?_⟩
        · rw [Heap.setTarget, Heap.get?_modify] at here
          split at here
          · obtain ⟨old, -, rfl⟩ := Option.map_eq_some_iff.mp here
            exact Nat.zero_le _
          · exact separate''.room handle found here
        · rw [others other different, reads', reads]
      rw [rest', rest]
      exact edited
    · rintro error after ⟨rfl, rfl⟩
      refine ⟨rfl, separate', fun other => ?_⟩
      rw [payload_eq_read, payload_eq_read, reads]
  · rintro error after ⟨rfl, rfl⟩
    exact ⟨rfl, separate, fun _ => rfl⟩

/-- Replacing what is read through a cell by something that fits. -/
theorem setPayload (separate : memory.Separate) (reads : memory.payload cell = .ok payload)
    (capacity : memory.capacity cell = .ok size) (no_cell : payload'.target? = none) (room : payload'.room ≤ size) :
    Ends (setPayload cell payload') memory
      (fun _ after => memory.Edited cell payload' after ∧ after.capacity cell = .ok size) fun _ _ => False := by
  obtain ⟨object, found, target, there, -, at_cell, at_object⟩ := target?_of_payload reads
  obtain rfl : found.size = size := by simpa [Memory.capacity, target, there] using capacity
  let replaced : HeapObject → HeapObject := ({ · with payload := payload' })
  have stays : ∀ object, (replaced object).address = object.address := fun _ => rfl
  have cell_object : cell ≠ object := by
    rintro rfl
    have := separate.contents.not_cell at_cell at_object
    rw [at_cell, Option.some.injEq] at at_object
    simp [← at_object, Payload.target?] at this
  have contents : ∀ other, (memory.heap.modify object replaced).contents other =
      if other = cell then some (.target object) else if other = object then some payload'
      else if other = object then none else memory.heap.contents other := by
    intro other
    rw [Heap.contents_modify]
    by_cases first : other = cell
    · rw [if_pos first, first, if_neg cell_object, at_cell]
    · by_cases second : other = object
      · rw [if_neg first, if_pos second, if_pos second, second, there]
        rfl
      · simp only [if_neg first, if_neg second]
  have edited : memory.Edited cell payload' { memory with heap := memory.heap.modify object replaced } := by
    refine .ofHeap (separate.heap.modify stays fun _ _ => Nat.le_refl _) (fun handle held here => ?_)
      (separate.contents.replace at_cell at_object no_cell (.inl rfl) contents)
    rw [Heap.get?_modify] at here
    split at here
    · next same =>
      rw [same, there] at here
      obtain rfl := Option.some.inj here
      exact room
    · exact separate.room handle held here
  have still : ({ memory with heap := memory.heap.modify object replaced } : Memory).capacity cell =
      .ok found.size := by
    have target' : (memory.heap.modify object replaced).target? cell = some object := by
      rw [Heap.target?_eq_some_iff, contents, if_pos rfl]
    simp only [Memory.capacity, target', Option.bind_some, Heap.get?_modify, there, if_true, Option.map_some]
    rfl
  refine Ends.modify ?_
  simp only [target]
  exact ⟨edited, still⟩

/-- Making room changes nothing that is read, and is refused only where bytes are
    missing. -/
theorem resizePayload (separate : memory.Separate) (reads : memory.payload cell = .ok payload)
    (capacity : memory.capacity cell = .ok size) {needed grown : Nat} (room : payload.room ≤ needed)
    (enough : needed ≤ grown) :
    Ends (resizePayload cell needed grown) memory
      (fun _ after => memory.Edited cell payload after ∧ ∃ size, after.capacity cell = .ok size ∧ needed ≤ size)
      (fun error after => error = .collision ∧ after = memory ∧ size < grown ∧
        (size < needed ∨ needed < size / 4)) := by
  obtain ⟨object, found, target, there, held, at_cell, at_object⟩ := target?_of_payload reads
  obtain rfl : found.size = size := by simpa [Memory.capacity, target, there] using capacity
  have no_cell := separate.contents.not_cell at_cell at_object
  refine Ends.bind (Ends.look (fun result seen => ?_) fun error missed => ?_)
  rotate_left
  · simp [capacity] at missed
  obtain rfl := Except.ok.inj (capacity.symm.trans seen)
  split
  rotate_left
  · next wide => exact ⟨separate.refl_edited reads, _, capacity, by omega⟩
  next narrow =>
  refine Ends.bind (Ends.get ?_)
  simp only [target]
  refine Ends.bind (Ends.onHeap (fun moved heap ran => ?_) fun error missed => ?_)
  · obtain none | ⟨moved, resized, ran', new, -⟩ := separate.heap.resize there grown memory.stack.boundary
    · simp [none] at ran
    rw [ran', Except.ok.injEq, Prod.mk.injEq] at ran
    obtain ⟨rfl, rfl⟩ := ran
    obtain ⟨address, reachable, views⟩ := new.get?
    have cell_object : cell ≠ object := by
      rintro rfl
      rw [at_cell, Option.some.injEq] at at_object
      simp [← at_object, Payload.target?] at no_cell
    have cell_moved : cell ≠ moved := by
      rintro rfl
      rcases new.place with same | fresh
      · exact cell_object same
      · simp [Heap.contents, fresh] at at_cell
    have place : moved = object ∨ memory.heap.contents moved = none ∧ moved ≠ .dangling := by
      rcases new.place with same | fresh
      · exact .inl same
      · refine .inr ⟨by simp [Heap.contents, fresh], ?_⟩
        rintro rfl
        simpa using views .dangling
    have contents : ∀ other, (resized.setTarget cell moved).contents other =
        if other = cell then some (.target moved) else if other = moved then some payload
        else if other = object then none else memory.heap.contents other := by
      intro other
      rw [Heap.contents_setTarget, Heap.contents, views]
      by_cases first : other = cell
      · rw [if_pos first, if_pos first, first, if_neg cell_moved, if_neg cell_object]
        simpa [Heap.contents] using congrArg (Option.map fun _ => Payload.target moved) at_cell
      · rw [if_neg first, if_neg first]
        split
        · simp [held]
        · split <;> rfl
    have edited : memory.Edited cell payload { memory with heap := resized.setTarget cell moved } := by
      refine .ofHeap (new.wellFormed.setTarget cell moved) (fun handle held' here => ?_)
        (separate.contents.replace at_cell at_object no_cell place contents)
      rw [Heap.setTarget, Heap.get?_modify, views] at here
      split at here
      · obtain ⟨old, -, rfl⟩ := Option.map_eq_some_iff.mp here
        exact Nat.zero_le _
      · split at here
        · obtain rfl := Option.some.inj here
          rw [held]
          exact Nat.le_trans room enough
        · split at here
          · cases here
          · exact separate.room handle held' here
    have still : ({ memory with heap := resized.setTarget cell moved } : Memory).capacity cell = .ok grown := by
      have target' : (resized.setTarget cell moved).target? cell = some moved := by
        rw [Heap.target?_eq_some_iff, contents, if_pos rfl]
      simp only [Memory.capacity, target', Option.bind_some]
      rw [Heap.setTarget, Heap.get?_modify, if_neg cell_moved.symm, views, if_pos rfl]
    exact ⟨edited, grown, still, enough⟩
  · obtain none | ⟨moved, resized, ran, -, -⟩ := separate.heap.resize there grown memory.stack.boundary
    · refine ⟨by simpa [none] using missed.symm, rfl, ?_, narrow⟩
      by_contra smaller
      simp [Heap.resize, there, Nat.le_of_not_lt smaller] at none
    · simp [ran] at missed

/-- What a collection leaves was there before. -/
theorem contents_of_collect (separate : memory.Separate)
    (left : memory.collect.2.heap.contents cell = some payload) : memory.heap.contents cell = some payload := by
  obtain ⟨found, here, rfl⟩ := Option.map_eq_some_iff.mp left
  obtain ⟨old, there, -, -, same⟩ := get?_of_collect separate.heap separate.contents here
  rw [Heap.contents, there, Option.map_some, same]

theorem collect (separate : memory.Separate) : memory.collect.2.Separate := by
  obtain ⟨-, -, -, wellFormed, -⟩ := marked_collect separate.heap separate.contents
  refine ⟨wellFormed, separate_contents_collect separate.heap separate.contents, fun handle object here => ?_⟩
  obtain ⟨old, there, -, size, payload⟩ := get?_of_collect separate.heap separate.contents here
  rw [← payload, ← size]
  exact separate.room handle old there

theorem reset (separate : memory.Separate) : memory.reset.Separate := by
  have none : ∀ handle, memory.reset.heap.get? handle = none := Heap.get?_reset memory.heap
  have nothing : ∀ handle, memory.reset.heap.contents handle = Option.none := fun handle => by
    simp [Heap.contents, none]
  refine ⟨separate.heap.reset, ⟨nothing _, fun cell object at_cell => ?_, fun cell other object at_cell => ?_⟩,
    fun handle object here => ?_⟩
  · simp [nothing] at at_cell
  · simp [nothing] at at_cell
  · simp [none] at here

end Separate

theorem separate_empty (size : Nat) : (empty size).Separate := by
  have none : ∀ handle, (empty size).heap.get? handle = none := by
    intro handle
    cases handle with
    | dangling => rfl
    | entry slot generation => simp [Heap.get?_entry, Memory.empty, Heap.empty, Heap.generation?]
  have nothing : ∀ handle, (empty size).heap.contents handle = Option.none := fun handle => by
    simp [Heap.contents, none]
  refine ⟨.empty size, ⟨nothing _, fun cell object at_cell => ?_, fun cell other object at_cell => ?_⟩,
    fun handle object here => ?_⟩
  · simp [nothing] at at_cell
  · simp [nothing] at at_cell
  · simp [none] at here

end Memory

end PocketScript
