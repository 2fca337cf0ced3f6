import PocketScript.Proofs.Memory.Aging

/-! # What a cell stands for

A string or list is an object behind a cell. Operations on other strings and lists, also
those that take bytes away that another one needs, leave that object alone: where it is,
how many bytes it may fill, and what it holds. The objects are told apart by who owns
them, so the only invariant needed is that no two cells stand for one object.
-/

namespace PocketScript

/-- The object behind a cell: its handle, where it is, how many bytes it may fill and what
    it holds. -/
structure Holding where
  object : Handle
  address : Nat
  capacity : Nat
  payload : Payload

namespace Heap

variable {heap after : Heap} {cell object moved handle : Handle} {holding : Holding}
  {known : Handle → Option Holding} {payload : Payload} {size floor : Nat}

/-- The object behind a cell. -/
def holding? (heap : Heap) (cell : Handle) : Option Holding :=
  (heap.target? cell).bind fun object =>
    (heap.get? object).map fun found => ⟨object, found.address, found.size, found.payload⟩

theorem holding?_eq_some_iff : heap.holding? cell = some holding ↔
    heap.contents cell = some (.target holding.object) ∧
      ∃ found, heap.get? holding.object = some found ∧ found.address = holding.address ∧
        found.size = holding.capacity ∧ found.payload = holding.payload := by
  simp only [holding?, Option.bind_eq_some_iff, target?_eq_some_iff, Option.map_eq_some_iff]
  constructor
  · rintro ⟨object, at_cell, found, there, rfl⟩
    exact ⟨at_cell, found, there, rfl, rfl, rfl⟩
  · obtain ⟨object, address, capacity, payload⟩ := holding
    rintro ⟨at_cell, found, there, rfl, rfl, rfl⟩
    exact ⟨object, at_cell, found, there, rfl⟩

/-- No two cells stand for one object, and what is known of some cells is so. -/
structure Keeping (heap : Heap) (known : Handle → Option Holding) : Prop where
  wellFormed : heap.WellFormed
  separate : heap.contents.Separate
  known : ∀ cell holding, known cell = some holding → heap.holding? cell = some holding

/-- Nothing is known of any cell. -/
def unknown : Handle → Option Holding :=
  fun _ => none

namespace Keeping

theorem forget (keeping : heap.Keeping known) : heap.Keeping unknown :=
  ⟨keeping.wellFormed, keeping.separate, fun _ _ absent => by cases absent⟩

/-- The known cells and their objects are as before. -/
theorem ofSame (keeping : heap.Keeping known) (wellFormed : after.WellFormed)
    (separate : after.contents.Separate)
    (same : ∀ cell holding, known cell = some holding →
      after.get? cell = heap.get? cell ∧ after.get? holding.object = heap.get? holding.object) :
    after.Keeping known := by
  refine ⟨wellFormed, separate, fun cell holding is_known => ?_⟩
  obtain ⟨same_cell, same_object⟩ := same cell holding is_known
  obtain ⟨at_cell, at_object⟩ := holding?_eq_some_iff.mp (keeping.known cell holding is_known)
  refine holding?_eq_some_iff.mpr ⟨?_, by rwa [same_object]⟩
  rw [contents, same_cell]
  exact at_cell

theorem contents_object (holds : heap.holding? cell = some holding) :
    heap.contents holding.object = some holding.payload := by
  obtain ⟨-, found, there, -, -, held⟩ := holding?_eq_some_iff.mp holds
  rw [contents, there, Option.map_some, held]

theorem not_cell (keeping : heap.Keeping known) (holds : heap.holding? cell = some holding) :
    holding.payload.target? = none :=
  keeping.separate.not_cell (holding?_eq_some_iff.mp holds).1 (contents_object holds)

/-- A cell is not the object behind a cell. -/
theorem ne_object (keeping : heap.Keeping known) {other : Handle} {others : Holding}
    (holds : heap.holding? cell = some holding) (holds' : heap.holding? other = some others) :
    other ≠ holding.object := by
  rintro rfl
  have at_cell := (holding?_eq_some_iff.mp holds').1
  rw [contents_object holds, Option.some.injEq] at at_cell
  have := keeping.not_cell holds
  simp [at_cell, Payload.target?] at this

theorem get?_ne_none (holds : heap.holding? cell = some holding) :
    heap.get? cell ≠ none ∧ heap.get? holding.object ≠ none := by
  obtain ⟨at_cell, found, there, -⟩ := holding?_eq_some_iff.mp holds
  refine ⟨fun absent => ?_, by simp [there]⟩
  simp [contents, absent] at at_cell

/-- The object behind one cell changes, and may be another one from then on. -/
theorem rehouse (keeping : heap.Keeping known) (free : known cell = none)
    (holds : heap.holding? cell = some holding) (replaced : HeapObject)
    (no_cell : replaced.payload.target? = none) (wellFormed : after.WellFormed)
    (place : moved = holding.object ∨ heap.get? moved = none ∧ moved ≠ .dangling)
    (get? : ∀ found, after.get? found =
      if found = cell then (heap.get? found).map ({ · with payload := .target moved })
      else if found = moved then some replaced else if found = holding.object then none
      else heap.get? found) :
    after.Keeping known ∧
      after.holding? cell = some ⟨moved, replaced.address, replaced.size, replaced.payload⟩ := by
  have at_cell := (holding?_eq_some_iff.mp holds).1
  have contents : ∀ other, after.contents other = if other = cell then some (.target moved)
      else if other = moved then some replaced.payload else if other = holding.object then none
      else heap.contents other := by
    intro other
    rw [Heap.contents, get?]
    split
    · next same =>
      obtain ⟨found, here, -⟩ := Option.map_eq_some_iff.mp at_cell
      rw [same, here]
      rfl
    · split
      · rfl
      · split <;> rfl
  have place' : moved = holding.object ∨ heap.contents moved = none ∧ moved ≠ .dangling :=
    place.imp_right fun fresh => ⟨by rw [Heap.contents, fresh.1, Option.map_none], fresh.2⟩
  -- What is there is neither the old object of the cell nor the place it moved to.
  have elsewhere : ∀ other, heap.get? other ≠ none → other ≠ cell → other ≠ holding.object →
      after.get? other = heap.get? other := by
    intro other there first second
    rw [get?, if_neg first, if_neg, if_neg second]
    rintro rfl
    rcases place with same | fresh
    · exact second same
    · exact there fresh.1
  refine ⟨keeping.ofSame wellFormed (keeping.separate.replace at_cell (contents_object holds) no_cell
    place' contents).1 fun other others is_known => ?_, ?_⟩
  · have holds' := keeping.known other others is_known
    have different : other ≠ cell := by
      rintro rfl
      rw [free] at is_known
      cases is_known
    obtain ⟨there, there'⟩ := get?_ne_none holds'
    refine ⟨elsewhere _ there different (keeping.ne_object holds holds'),
      elsewhere _ there' (keeping.ne_object holds' holds).symm fun same => different ?_⟩
    exact keeping.separate.owned other cell holding.object (same ▸ (holding?_eq_some_iff.mp holds').1) at_cell
      (by simp [contents_object holds])
  · have apart : moved ≠ cell := by
      rintro rfl
      rcases place with same | fresh
      · exact keeping.ne_object holds holds same
      · exact (get?_ne_none holds).1 fresh.1
    refine holding?_eq_some_iff.mpr ⟨by rw [contents, if_pos rfl], replaced, ?_, rfl, rfl, rfl⟩
    rw [get?, if_neg apart, if_pos rfl]

/-- A cell that is let stand for what it stands for is as before. -/
theorem get?_setTarget_self (at_cell : heap.contents cell = some (.target object)) (found : Handle) :
    (heap.setTarget cell object).get? found = heap.get? found := by
  obtain ⟨held, here, payload⟩ := Option.map_eq_some_iff.mp at_cell
  rw [setTarget, get?_modify]
  split
  · next same => rw [same, here, Option.map_some, ← payload]
  · rfl

/-- The object behind one cell changes where it is. -/
theorem modify (keeping : heap.Keeping known) (free : known cell = none)
    (holds : heap.holding? cell = some holding) (change : HeapObject → HeapObject) {found : HeapObject}
    (there : heap.get? holding.object = some found)
    (address : ∀ object, (change object).address = object.address)
    (size : (change found).size ≤ found.size) (no_cell : (change found).payload.target? = none) :
    (heap.modify holding.object change).Keeping known ∧
      (heap.modify holding.object change).holding? cell =
        some ⟨holding.object, holding.address, (change found).size, (change found).payload⟩ := by
  obtain ⟨at_cell, found', there', same, -⟩ := holding?_eq_some_iff.mp holds
  obtain rfl := Option.some.inj (there.symm.trans there')
  rw [← same, ← address]
  refine keeping.rehouse free holds _ no_cell
    (keeping.wellFormed.modify address fun object here => ?_) (.inl rfl) fun other => ?_
  · rw [there] at here
    rwa [← Option.some.inj here]
  · have apart := keeping.ne_object holds holds
    have self := get?_setTarget_self at_cell cell
    rw [setTarget, get?_modify, if_pos rfl] at self
    rw [get?_modify]
    by_cases first : other = cell
    · rw [first, if_neg apart, if_pos rfl, self]
    · by_cases second : other = holding.object
      · rw [if_pos second, if_neg first, if_pos second, second, there]
        rfl
      · simp only [if_neg first, if_neg second]

/-- A new object that no cell stands for yet. -/
theorem insert (keeping : heap.Keeping known) {object : HeapObject} {placed : Heap}
    (new : heap.Allocated object floor handle placed)
    (fresh : object.payload = .target .dangling ∨ object.payload.target? = none) :
    placed.Keeping known ∧ handle ≠ .dangling := by
  have absent : heap.contents handle = none := by rw [contents, new.fresh, Option.map_none]
  have proper : handle ≠ .dangling := by
    rintro rfl
    simpa using new.get? .dangling
  have contents : ∀ found, placed.contents found =
      if found = handle then some object.payload else heap.contents found := by
    intro found
    rw [Heap.contents, new.get?]
    split <;> rfl
  have elsewhere : ∀ other, heap.get? other ≠ none → placed.get? other = heap.get? other := by
    intro other there
    rw [new.get?, if_neg]
    rintro rfl
    exact there new.fresh
  refine ⟨keeping.ofSame new.wellFormed (keeping.separate.insert absent proper fresh contents).1
    fun other others is_known => ?_, proper⟩
  obtain ⟨there, there'⟩ := get?_ne_none (keeping.known other others is_known)
  exact ⟨elsewhere _ there, elsewhere _ there'⟩

/-- Another size for the object behind a cell. It moves only to become larger, and that
    is one more allocation. -/
theorem resize (keeping : heap.Keeping known) (free : known cell = none)
    (holds : heap.holding? cell = some holding) (size floor : Nat) :
    heap.resize holding.object size floor = .error .collision ∧ holding.capacity < size ∨
      ∃ moved resized address, heap.resize holding.object size floor = .ok (moved, resized) ∧
        (resized.setTarget cell moved).Keeping known ∧
        (resized.setTarget cell moved).holding? cell = some ⟨moved, address, size, holding.payload⟩ ∧
        (resized.setTarget cell moved).allocations =
          heap.allocations + (if holding.capacity < size then 1 else 0) ∧
        (size ≤ holding.capacity → moved = holding.object ∧ address = holding.address) := by
  obtain ⟨at_cell, found, there, address, capacity, held⟩ := holding?_eq_some_iff.mp holds
  by_cases smaller : size ≤ holding.capacity
  · -- The object stays where it is, and so does the cell.
    have fits : size ≤ found.size := capacity ▸ smaller
    have ran : heap.resize holding.object size floor =
        .ok (holding.object, heap.modify holding.object ({ · with size })) := by
      simp only [Heap.resize, there, if_pos fits]
    obtain ⟨kept, holds'⟩ := keeping.modify free holds ({ · with size }) there (fun _ => rfl) fits
      (held ▸ keeping.not_cell holds)
    have target := (holding?_eq_some_iff.mp holds').1
    have same := get?_setTarget_self target
    have contents : ((heap.modify holding.object ({ · with size })).setTarget cell holding.object).contents =
        (heap.modify holding.object ({ · with size })).contents := by
      funext other
      rw [Heap.contents, Heap.contents, same]
    refine .inr ⟨holding.object, _, holding.address, ran, ?_, ?_, ?_, fun _ => ⟨rfl, rfl⟩⟩
    · exact kept.ofSame (kept.wellFormed.setTarget _ _) (contents ▸ kept.separate)
        fun _ _ _ => ⟨same _, same _⟩
    · rw [holding?_eq_some_iff, contents, same, ← held]
      exact holding?_eq_some_iff.mp holds'
    · rw [setTarget, allocations_modify, allocations_modify, if_neg (Nat.not_lt.mpr smaller), Nat.add_zero]
  · have larger := Nat.lt_of_not_le smaller
    obtain none | ⟨moved, resized, ran, new, -⟩ := keeping.wellFormed.resize there size floor
    · exact .inl ⟨none, larger⟩
    · obtain ⟨address', reachable, views⟩ := new.get?
      have place : moved = holding.object ∨ heap.get? moved = none ∧ moved ≠ .dangling := by
        refine new.place.imp_right fun fresh => ⟨fresh, ?_⟩
        rintro rfl
        simpa using views .dangling
      have apart : cell ≠ moved := by
        rintro rfl
        rcases place with same | fresh
        · exact keeping.ne_object holds holds same
        · exact (get?_ne_none holds).1 fresh.1
      obtain ⟨kept, holds'⟩ := keeping.rehouse free holds
        ⟨address', size, reachable, found.payload⟩ (held ▸ keeping.not_cell holds)
        (new.wellFormed.setTarget cell moved) place fun other => by
          rw [setTarget, get?_modify, views]
          by_cases same : other = cell
          · rw [if_pos same, if_pos same, same, if_neg apart, if_neg (keeping.ne_object holds holds)]
          · simp only [if_neg same]
      refine .inr ⟨moved, resized, address', ran, kept, by rw [holds', held], ?_, fun fits => absurd fits smaller⟩
      rw [setTarget, allocations_modify, allocations_resize there ran, capacity]

end Keeping

end Heap

namespace Memory

open MemoryM
open Heap (unknown)

variable {memory : Memory} {cell : Handle} {holding : Holding} {known : Handle → Option Holding}
  {payload : Payload} {size : Nat}

theorem target?_eq_of_holding (holds : memory.heap.holding? cell = some holding) :
    ∃ found, memory.heap.target? cell = some holding.object ∧ memory.heap.get? holding.object = some found ∧
      found.size = holding.capacity ∧ found.payload = holding.payload := by
  obtain ⟨at_cell, found, there, -, capacity, held⟩ := Heap.holding?_eq_some_iff.mp holds
  exact ⟨found, Heap.target?_eq_some_iff.mpr at_cell, there, capacity, held⟩

theorem capacity_of_holding (holds : memory.heap.holding? cell = some holding) :
    memory.capacity cell = .ok holding.capacity := by
  obtain ⟨found, target, there, capacity, -⟩ := target?_eq_of_holding holds
  simp only [Memory.capacity, target, Option.bind_some, there, capacity]

theorem payload_of_holding (holds : memory.heap.holding? cell = some holding) :
    memory.payload cell = .ok holding.payload := by
  obtain ⟨found, target, there, -, held⟩ := target?_eq_of_holding holds
  simp only [Memory.payload, target, Option.bind_some, there, held]

/-- There is no object behind a cell. -/
theorem capacity_of_no_holding (nothing : memory.heap.holding? cell = none) :
    memory.capacity cell = .error .dangling := by
  rw [Heap.holding?] at nothing
  rw [Memory.capacity]
  cases target : memory.heap.target? cell with
  | none => rfl
  | some object =>
      rw [target, Option.bind_some, Option.map_eq_none_iff] at nothing
      rw [Option.bind_some, nothing]

/-- A new object that no cell stands for yet. -/
theorem keeping_allocate (keeping : memory.heap.Keeping known)
    (fresh : payload = .target .dangling ∨ payload.target? = none) :
    Ends (allocate size payload) memory
      (fun handle after => after.heap.Keeping known ∧ handle ≠ .dangling ∧
        ∃ address, memory.heap.Allocated ⟨address, size, false, payload⟩ memory.stack.boundary handle after.heap)
      (fun _ after => after = memory) := by
  refine Ends.onHeap (fun handle placed ran => ?_) fun _ _ => rfl
  obtain none | ⟨address, handle', placed', ran', new⟩ :=
    keeping.wellFormed.allocate size payload memory.stack.boundary
  · rw [none] at ran
    cases ran
  · obtain ⟨rfl, rfl⟩ := Prod.mk.inj (Except.ok.inj (ran.symm.trans ran'))
    obtain ⟨kept, proper⟩ := keeping.insert new fresh
    exact ⟨kept, proper, address, new⟩

/-- A new string or list is in a cell of which nothing was known. -/
theorem keeping_createSequence (keeping : memory.heap.Keeping known) (no_cell : payload.target? = none) :
    Ends (createSequence size payload) memory
      (fun cell after => after.heap.Keeping known ∧
        ∃ holding, after.heap.holding? cell = some holding ∧ holding.capacity = size ∧ holding.payload = payload)
      (fun _ after => after.heap.Keeping known) := by
  refine Ends.bind ((keeping_allocate keeping (.inl rfl)).mono ?_ fun _ _ same => same ▸ keeping)
  rintro cell first ⟨kept, proper, _, new⟩
  refine Ends.bind ((keeping_allocate kept (.inr no_cell)).mono ?_ fun _ _ same => same ▸ kept)
  rintro object second ⟨kept', proper', address, new'⟩
  have apart : cell ≠ object := by
    rintro rfl
    have fresh := new'.fresh
    rw [new.get?, if_pos rfl] at fresh
    cases fresh
  have at_cell : second.heap.contents cell = some (.target .dangling) := by
    rw [Heap.contents, new'.get?, if_neg apart, new.get?, if_pos rfl]
    rfl
  have there : second.heap.get? object = some ⟨address, size, false, payload⟩ := by
    rw [new'.get?, if_pos rfl]
  -- The object is new, so no cell stood for it before.
  have unowned : ∀ other, second.heap.contents other ≠ some (.target object) := by
    intro other at_other
    rw [Heap.contents, new'.get?] at at_other
    split at at_other
    · obtain rfl : payload = .target object := by simpa using at_other
      cases no_cell
    · rcases kept.separate.targets other object at_other with null | ⟨held, present, -⟩
      · exact proper' null
      · simp [Heap.contents, new'.fresh] at present
  have linked : ∀ found, (second.heap.setTarget cell object).contents found =
      if found = cell then some (.target object) else second.heap.contents found := by
    intro found
    rw [Heap.contents_setTarget]
    split
    · next same => rw [same, at_cell, Option.map_some]
    · rfl
  have elsewhere : ∀ found, found ≠ cell → (second.heap.setTarget cell object).get? found = second.heap.get? found :=
    fun found different => by rw [Heap.setTarget, Heap.get?_modify, if_neg different]
  obtain ⟨separate, -, -⟩ := kept'.separate.link at_cell (by rw [Heap.contents, there, Option.map_some])
    no_cell unowned linked
  refine ⟨kept'.ofSame (kept'.wellFormed.setTarget cell object) separate fun other others is_known => ?_,
    ⟨object, address, size, payload⟩, ?_, rfl, rfl⟩
  · -- The cell is new as well, so nothing was known of it.
    obtain ⟨present, present'⟩ := Heap.Keeping.get?_ne_none (keeping.known other others is_known)
    refine ⟨elsewhere other ?_, elsewhere others.object ?_⟩
    · rintro rfl
      exact present new.fresh
    · rintro rfl
      exact present' new.fresh
  · refine Heap.holding?_eq_some_iff.mpr ⟨by rw [linked, if_pos rfl], ⟨address, size, false, payload⟩, ?_, rfl, rfl, rfl⟩
    rw [elsewhere object apart.symm, there]

/-- Replacing what the object behind a cell holds. -/
theorem keeping_setPayload (keeping : memory.heap.Keeping known) (free : known cell = none)
    (holds : memory.heap.holding? cell = some holding) (no_cell : payload.target? = none) :
    Ends (setPayload cell payload) memory
      (fun _ after => after.heap.Keeping known ∧ after.heap.holding? cell = some { holding with payload } ∧
        after.heap.allocations = memory.heap.allocations) fun _ _ => False := by
  obtain ⟨found, target, there, capacity, -⟩ := target?_eq_of_holding holds
  obtain ⟨kept, holds'⟩ := keeping.modify free holds ({ · with payload }) there (fun _ => rfl)
    (Nat.le_refl _) no_cell
  refine Ends.modify ?_
  simp only [target]
  exact ⟨kept, by rw [holds', capacity], Heap.allocations_modify _ _ _⟩

/-- Making room: the object behind a cell gets another size if the one it has is not in the
    band. It moves only to become larger, and that is one more allocation. -/
theorem keeping_resizePayload (keeping : memory.heap.Keeping known) (free : known cell = none)
    (holds : memory.heap.holding? cell = some holding) (needed grown : Nat) :
    Ends (resizePayload cell needed grown) memory
      (fun _ after => ∃ holding', after.heap.Keeping known ∧ after.heap.holding? cell = some holding' ∧
        holding'.payload = holding.payload ∧
        holding'.capacity =
          (if holding.capacity < needed ∨ needed < holding.capacity / 4 then grown else holding.capacity) ∧
        after.heap.allocations = memory.heap.allocations +
          (if holding.capacity < holding'.capacity then 1 else 0) ∧
        (holding'.capacity ≤ holding.capacity →
          holding'.object = holding.object ∧ holding'.address = holding.address))
      (fun error after => error = .collision ∧ after = memory ∧ holding.capacity < grown ∧
        (holding.capacity < needed ∨ needed < holding.capacity / 4)) := by
  obtain ⟨found, target, there, -, -⟩ := target?_eq_of_holding holds
  have capacity := capacity_of_holding holds
  refine Ends.bind (Ends.look (fun seen_capacity seen => ?_) fun error missed => ?_)
  rotate_left
  · rw [capacity] at missed
    cases missed
  obtain rfl := Except.ok.inj (capacity.symm.trans seen)
  by_cases outside : holding.capacity < needed ∨ needed < holding.capacity / 4
  · simp only [if_pos outside]
    refine Ends.bind (Ends.get ?_)
    simp only [target]
    have resizes := keeping.resize free holds grown memory.stack.boundary
    refine Ends.bind (Ends.onHeap (fun moved heap ran => ?_) fun error missed => ?_)
    · rcases resizes with ⟨none, -⟩ | ⟨moved', resized, address, ran', kept, holds', allocations, stays⟩
      · rw [none] at ran
        cases ran
      · obtain ⟨rfl, rfl⟩ := Prod.mk.inj (Except.ok.inj (ran.symm.trans ran'))
        exact ⟨_, kept, holds', rfl, rfl, allocations, stays⟩
    · rcases resizes with ⟨none, larger⟩ | ⟨moved, resized, -, ran, -⟩
      · rw [none] at missed
        exact ⟨(Except.error.inj missed).symm, rfl, larger, outside⟩
      · rw [ran] at missed
        cases missed
  · simp only [if_neg outside]
    exact ⟨holding, keeping, holds, rfl, rfl, by simp, fun _ => ⟨rfl, rfl⟩⟩

theorem keeps_known_setPayload (free : known cell = none) (no_cell : payload.target? = none) :
    Keeps (fun memory => memory.heap.Keeping known) (setPayload cell payload) := by
  intro memory keeping
  cases holds : memory.heap.holding? cell with
  | some holding =>
      exact (keeping_setPayload keeping free holds no_cell).mono (fun _ _ done => done.1) fun _ _ absurd => absurd.elim
  | none =>
      -- The cell stands for nothing, so nothing is replaced.
      rw [Heap.holding?] at holds
      refine Ends.modify ?_
      cases target : memory.heap.target? cell with
      | none => exact keeping
      | some object =>
          rw [target, Option.bind_some, Option.map_eq_none_iff] at holds
          have nothing : memory.heap.named? object = none := by simpa [Heap.get?] using holds
          simp only [Heap.modify, nothing]
          exact keeping

theorem keeps_known_resizePayload (free : known cell = none) (needed grown : Nat) :
    Keeps (fun memory => memory.heap.Keeping known) (resizePayload cell needed grown) := by
  intro memory keeping
  cases holds : memory.heap.holding? cell with
  | some holding =>
      refine (keeping_resizePayload keeping free holds needed grown).mono ?_ ?_
      · rintro _ after ⟨holding', kept, -⟩
        exact kept
      · rintro error after ⟨-, rfl, -⟩
        exact keeping
  | none =>
      refine Ends.bind (Ends.look (fun result seen => ?_) fun _ _ => keeping)
      rw [capacity_of_no_holding holds] at seen
      cases seen

theorem keeps_known_createSequence (no_cell : payload.target? = none) :
    Keeps (fun memory => memory.heap.Keeping known) (createSequence size payload) :=
  fun _ keeping => (keeping_createSequence keeping no_cell).mono (fun _ _ done => done.1) fun _ _ kept => kept

theorem keeps_known_edit (edit : Edit) (free : ∀ cell, edit.cell? = some cell → known cell = none) :
    Keeps (fun memory => memory.heap.Keeping known) edit.run := by
  have bytes (cell : Handle) (free : known cell = none) (index : Int) (part : List UInt8) :
      Keeps (fun memory => memory.heap.Keeping known) (insertBytes cell index part) :=
    (Keeps.look _).bind fun _ => (Keeps.look _).bind fun _ =>
      (keeps_known_resizePayload free _ _).bind fun _ => keeps_known_setPayload free rfl
  have values (cell : Handle) (free : known cell = none) (index : Int) (part : List Value) :
      Keeps (fun memory => memory.heap.Keeping known) (insertValues cell index part) :=
    (Keeps.look _).bind fun _ => (Keeps.look _).bind fun _ =>
      (keeps_known_resizePayload free _ _).bind fun _ => keeps_known_setPayload free rfl
  cases edit with
  | insertElement sequence index element =>
      simp only [Edit.run, insertElement]
      split
      · exact bytes _ (free _ rfl) index _
      · exact values _ (free _ rfl) index _
      · exact .throw _
  | insertSequence sequence index other =>
      simp only [Edit.run, insertSequence]
      split
      · exact (Keeps.look _).bind fun part => bytes _ (free _ rfl) index part
      · exact (Keeps.look _).bind fun part => values _ (free _ rfl) index part
      · exact .throw _
  | removeSlice sequence start finish =>
      simp only [Edit.run, removeSlice]
      split
      · exact (Keeps.look _).bind fun _ => (Keeps.look _).bind fun _ =>
          (keeps_known_setPayload (free _ rfl) rfl).bind fun _ => keeps_known_resizePayload (free _ rfl) _ _
      · exact (Keeps.look _).bind fun _ => (Keeps.look _).bind fun _ =>
          (keeps_known_setPayload (free _ rfl) rfl).bind fun _ => keeps_known_resizePayload (free _ rfl) _ _
      · exact .throw _
  | setByte cell index byte =>
      refine (Keeps.look _).bind fun _ => ?_
      split
      · exact keeps_known_setPayload (free _ rfl) rfl
      · exact .throw _
  | setElement cell index value =>
      refine (Keeps.look _).bind fun _ => ?_
      split
      · exact keeps_known_setPayload (free _ rfl) rfl
      · exact .throw _

theorem keeps_known_copy (copy : Copy) : Keeps (fun memory => memory.heap.Keeping known) copy.run := by
  have makes (make : Handle → Value) (size : Nat) (payload : Payload) (no_cell : payload.target? = none) :
      Keeps (fun memory => memory.heap.Keeping known) (do return make (← createSequence size payload)) :=
    (keeps_known_createSequence no_cell).bind fun _ => .pure _
  cases copy with
  | slice sequence start finish =>
      simp only [Copy.run, copySlice]
      split
      · exact (Keeps.look _).bind fun _ => (Keeps.look _).bind fun _ => makes .string _ _ rfl
      · exact (Keeps.look _).bind fun _ => (Keeps.look _).bind fun _ => makes .list _ _ rfl
      · exact .throw _
  | whole sequence =>
      simp only [Copy.run, copySequence]
      split
      · exact (Keeps.look _).bind fun _ => makes .string _ _ rfl
      · exact (Keeps.look _).bind fun _ => makes .list _ _ rfl
      · exact .throw _
  | concatenation left right =>
      exact (Keeps.look _).bind fun _ => (Keeps.look _).bind fun _ => makes .string _ _ rfl

/-- A collection that leaves the known cells leaves the objects behind them. -/
theorem keeping_collect (keeping : memory.heap.Keeping known)
    (left : ∀ cell, (known cell).isSome → memory.collect.2.heap.contains cell = true) :
    memory.collect.2.heap.Keeping known := by
  obtain ⟨wellFormed, separate, known_holds⟩ := keeping
  obtain ⟨-, -, -, swept, -⟩ := marked_collect wellFormed separate
  refine ⟨swept, separate_contents_collect wellFormed separate, fun cell holding is_known => ?_⟩
  obtain ⟨at_cell, found, there, same⟩ := Heap.holding?_eq_some_iff.mp (known_holds cell holding is_known)
  obtain ⟨held, here⟩ := Option.isSome_iff_exists.mp (left cell (by rw [is_known]; rfl))
  have at_cell' : memory.collect.2.heap.contents cell = some (.target holding.object) := by
    obtain ⟨old, before, -, -, payload⟩ := get?_of_collect wellFormed separate here
    rw [Heap.contents, here, ← at_cell, Heap.contents, before, Option.map_some, Option.map_some, payload]
  have present := target_of_collect wellFormed separate at_cell' (by rw [Heap.contents, there]; rfl)
  obtain ⟨payload, at_object⟩ := Option.isSome_iff_exists.mp present
  obtain ⟨found', there', -⟩ := Option.map_eq_some_iff.mp at_object
  obtain ⟨old, before, same'⟩ := get?_of_collect wellFormed separate there'
  obtain rfl := Option.some.inj (there.symm.trans before)
  refine Heap.holding?_eq_some_iff.mpr ⟨at_cell', found', there', ?_, ?_, ?_⟩
  · rw [← same'.1, same.1]
  · rw [← same'.2.1, same.2.1]
  · rw [← same'.2.2, same.2.2]

end Memory

namespace MemoryOperation

/-- Whether an operation is one of the heap itself, on objects instead of strings and
    lists. -/
def IsRaw : MemoryOperation → Prop
  | .allocate _ _ | .resize _ _ | .deallocate _ => True
  | _ => False

/-- The cell whose capacity an operation sets, whatever the length of what is behind it. -/
def fitted? : MemoryOperation → Option Handle
  | .resizeString cell _ | .resizeList cell _ => some cell
  | _ => none

/-- The change of one string or list that an operation is. -/
def edit? : MemoryOperation → Option Edit
  | .setByte cell index byte => some (.setByte cell index byte)
  | .setElement cell index value => some (.setElement cell index value)
  | .insertElement sequence index element => some (.insertElement sequence index element)
  | .insertSequence sequence index other => some (.insertSequence sequence index other)
  | .removeSlice sequence start finish => some (.removeSlice sequence start finish)
  | _ => none

theorem perform_of_edit {operation : MemoryOperation} {edit : Edit} (is_edit : operation.edit? = some edit)
    (memory : Memory) : memory.perform operation = memory.after edit.run := by
  cases operation <;> cases is_edit <;> rfl

end MemoryOperation

namespace Memory

open MemoryM

variable {memory : Memory} {known : Handle → Option Holding}

/-- What is known of other cells than the one that an operation changes is so afterwards, if
    the cells are still there. -/
theorem keeping_perform (keeping : memory.heap.Keeping known) {operation : MemoryOperation}
    (ordinary : ¬ operation.IsRaw) (unfitted : ∀ cell, operation.fitted? = some cell → known cell = none)
    (unedited : ∀ edit cell, operation.edit? = some edit → edit.cell? = some cell → known cell = none)
    (left : ∀ cell, (known cell).isSome → (memory.perform operation).heap.contains cell = true) :
    (memory.perform operation).heap.Keeping known := by
  have stays {α : Type} (operation : ScopeStack → (ceiling : Nat) → Except MemoryError (α × ScopeStack)) :
      (memory.after (onStack operation)).heap.Keeping known := by
    have keeps : Keeps (fun memory => memory.heap.Keeping known) (onStack operation) :=
      fun _ keeping => Ends.onStack (fun _ _ _ => keeping) fun _ _ => keeping
    exact after_of_keeps keeps keeping
  have edits (edit : Edit) (is_edit : operation.edit? = some edit) :
      (memory.perform operation).heap.Keeping known := by
    rw [MemoryOperation.perform_of_edit is_edit]
    exact after_of_keeps (keeps_known_edit edit fun cell => unedited edit cell is_edit) keeping
  have copies (copy : Copy) : (memory.after copy.run).heap.Keeping known :=
    after_of_keeps (keeps_known_copy copy) keeping
  cases operation with
  | pushScope | pushBranch _ _ | createVariable _ _ => exact stays _
  | popScope | popBranch | setAction _ | breakLoop | continueLoop | setRoots _ => exact keeping
  | setVariable place value =>
      simp only [perform, after, setVariable]
      cases memory.stack.variableAt? place <;> exact keeping
  | allocate _ _ | resize _ _ | deallocate _ => exact absurd trivial ordinary
  | createString _ | createList _ => exact after_of_keeps (keeps_known_createSequence rfl) keeping
  | resizeString cell _ | resizeList cell _ =>
      exact after_of_keeps (keeps_known_resizePayload (unfitted cell rfl) _ _) keeping
  | setByte _ _ _ | setElement _ _ _ | insertElement _ _ _ | insertSequence _ _ _ | removeSlice _ _ _ =>
      exact edits _ rfl
  | copySlice sequence start finish => exact copies (.slice sequence start finish)
  | copySequence sequence => exact copies (.whole sequence)
  | concatenate front back => exact copies (.concatenation front back)
  | collect => exact keeping_collect keeping left
  | reset =>
      -- No cell is left.
      have nothing : ∀ cell, known cell = none := by
        intro cell
        cases is_known : known cell with
        | none => rfl
        | some holding =>
            have there := left cell (by rw [is_known]; rfl)
            rw [Heap.contains, perform, reset, Heap.get?_reset] at there
            cases there
      refine ⟨keeping.wellFormed.reset, ?_, fun cell holding is_known => ?_⟩
      · have empty : memory.heap.reset.contents = fun _ => none :=
          funext fun cell => by rw [Heap.contents, Heap.get?_reset, Option.map_none]
        refine keeping.separate.restrict (fun _ _ there => ?_) fun _ _ there => ?_
        · rw [perform, reset, empty] at there
          cases there
        · rw [perform, reset, empty] at there
          cases there
      · rw [nothing cell] at is_known
        cases is_known

end Memory

end PocketScript
