import PocketScript.Memory.Region
import PocketScript.Proofs.Heap.Lifetimes

/-! # First fit

A hole is a range of free bytes between two objects with nothing between them, or
between an object and the end of memory or the bytes of the scopes. An allocation
finds the highest hole that is wide enough for the object and its header, and it is
refused only if there is no such hole.

The search goes down the chain, so what carries the argument is what it has left
behind: each space above the objects it has passed was too narrow (`Narrow`).
-/

namespace PocketScript

open HeapObject (headerSize)

namespace Heap

variable {heap : Heap} {floor ceiling size bottom top : Nat} {order upper lower : List Nat}

/-- The bytes from `bottom` to `top` are free, and what is next to them on each side is
    an object, or the end of memory above, or the floor below. -/
structure Hole (heap : Heap) (floor bottom top : Nat) : Prop where
  ordered : bottom ≤ top
  upperEnd : top = heap.limit ∨ ∃ handle object, heap.get? handle = some object ∧ top = object.bottom
  lowerEnd : bottom = floor ∨ ∃ handle object, heap.get? handle = some object ∧ bottom = object.top
  free : ∀ handle object, heap.get? handle = some object → top ≤ object.bottom ∨ object.top ≤ bottom

/-- A hole with room for `size` bytes and a header. -/
structure WideHole (heap : Heap) (floor size bottom top : Nat) : Prop extends Hole heap floor bottom top where
  wide : bottom + (size + headerSize) ≤ top

/-- The space above each of these objects is too narrow. -/
def Narrow (heap : Heap) (size : Nat) : (ceiling : Nat) → (order : List Nat) → Prop
  | _, [] => True
  | ceiling, slot :: rest =>
      ∃ object, heap.object? slot = some object ∧ ceiling < object.top + (size + headerSize) ∧
        Narrow heap size object.bottom rest

/-- Free bytes that are wide enough lie below the objects with narrow spaces. -/
theorem Narrow.top_le (narrow : heap.Narrow size ceiling order) (spaced : heap.Spaced ceiling order)
    (free : ∀ slot ∈ order, ∀ object, heap.object? slot = some object →
      top ≤ object.bottom ∨ object.top ≤ bottom)
    (wide : bottom + (size + headerSize) ≤ top) (inside : top ≤ ceiling) :
    top ≤ heap.lowestByte ceiling order := by
  induction order generalizing ceiling with
  | nil => exact inside
  | cons slot rest ih =>
      obtain ⟨object, here, tight, narrow⟩ := narrow
      obtain ⟨object', here', -, -, spaced⟩ := spaced
      obtain rfl : object = object' := Option.some.inj (here.symm.trans here')
      have below : top ≤ object.bottom := by
        obtain below | above := free slot List.mem_cons_self object here
        · exact below
        · omega
      rw [lowestByte_cons spaced.occupied here]
      exact ih narrow spaced (fun slot mem => free slot (List.mem_cons_of_mem _ mem)) below

/-- The search stops above the first object with enough space above it, or below the
    last one if there is none. -/
theorem findGap_first (size : Nat) {count : Nat} {above : Option Nat}
    (linked : heap.Linked above order none) (spaced : heap.Spaced ceiling order)
    (space : heap.spaceUnder above = .ok ceiling) (enough : order.length < count) :
    (∃ upper slot lower object gap, order = upper ++ slot :: lower ∧ heap.Narrow size ceiling upper ∧
        heap.object? slot = some object ∧
        object.top + (size + headerSize) ≤ heap.lowestByte ceiling upper ∧
        heap.findGap size count above order.head? = .ok gap ∧
        gap.address = heap.lowestByte ceiling upper - size) ∨
      heap.Narrow size ceiling order ∧
        ∃ gap, gap.address = heap.lowestByte ceiling order - size ∧
          heap.findGap size count above order.head? =
            if heap.lowestByte ceiling order < size then .error .collision else .ok gap := by
  induction order generalizing ceiling count above with
  | nil =>
      obtain ⟨count, rfl⟩ := Nat.exists_eq_add_of_lt enough
      refine .inr ⟨trivial, ⟨above, none, ceiling - size⟩, rfl, ?_⟩
      simp only [findGap, space, List.head?_nil]
      rfl
  | cons slot rest ih =>
      obtain ⟨⟨node, occupied, -, toBelow⟩, linked⟩ := linked
      obtain ⟨object, here, header, below, spaced⟩ := spaced
      obtain rfl : node.object = object := by simpa [object?, occupied] using here
      obtain ⟨count, rfl⟩ : ∃ rest, count = rest + 1 := Nat.exists_eq_add_one.mpr (by omega)
      rw [Option.or_none] at toBelow
      have step : heap.findGap size (count + 1) above (slot :: rest).head? =
          if size + headerSize ≤ ceiling - node.object.top then .ok ⟨above, some slot, ceiling - size⟩
          else heap.findGap size count (some slot) rest.head? := by
        simp only [findGap, space, List.head?_cons, occupied, toBelow]
        rfl
      rw [step]
      by_cases wide : size + headerSize ≤ ceiling - node.object.top
      · rw [if_pos wide]
        exact .inl ⟨[], slot, rest, node.object, _, rfl, trivial, here,
          by rw [lowestByte_nil]; omega, rfl, rfl⟩
      · rw [if_neg wide]
        have tight : ceiling < node.object.top + (size + headerSize) := by
          rw [headerSize] at *
          omega
        have space : heap.spaceUnder (some slot) = .ok node.object.bottom := by
          simp [spaceUnder, occupied]
        have enough : rest.length < count := by simpa using enough
        rcases ih linked spaced space enough with
          ⟨upper, next, lower, object, gap, rfl, narrow, there, room, found, address⟩ |
          ⟨narrow, gap, address, found⟩
        · have same := lowestByte_cons (Spaced.append.mp spaced).1.occupied here ceiling
          refine .inl ⟨slot :: upper, next, lower, object, gap, rfl, ⟨_, here, tight, narrow⟩, there, ?_, found, ?_⟩
          · rwa [same]
          · rwa [same]
        · rw [lowestByte_cons spaced.occupied here]
          exact .inr ⟨⟨_, here, tight, narrow⟩, gap, address, found⟩

namespace WellFormed

variable {handle : Handle} {object : HeapObject} {slot : Nat}

/-- An object starts at the floor or above it. -/
theorem floor_le_bottom (wellFormed : heap.WellFormed) (low : floor ≤ heap.boundary)
    (found : heap.get? handle = some object) : floor ≤ object.bottom :=
  Nat.le_trans low (wellFormed.bounds found).2.1

theorem bottom_le_top (wellFormed : heap.WellFormed) (found : heap.get? handle = some object) :
    object.bottom + headerSize ≤ object.top := by
  have header := (wellFormed.bounds found).1
  rw [HeapObject.bottom, HeapObject.top]
  omega

theorem get?_of_object? (wellFormed : heap.WellFormed) (mem : slot ∈ heap.order)
    (here : heap.object? slot = some object) : heap.get? (heap.handleOf slot) = some object := by
  obtain ⟨object', here', found⟩ := wellFormed.get?_of_mem_order mem
  rw [found, ← here', here]

/-- The bytes below the upper part of the chain and above the objects of the lower part
    are a hole. -/
theorem hole (wellFormed : heap.WellFormed) (split : heap.order = upper ++ lower)
    (lowerEnd : bottom = floor ∨ ∃ handle object, heap.get? handle = some object ∧ bottom = object.top)
    (ordered : bottom ≤ heap.lowestByte heap.limit upper)
    (above : ∀ slot ∈ lower, ∀ object, heap.object? slot = some object → object.top ≤ bottom) :
    heap.Hole floor bottom (heap.lowestByte heap.limit upper) := by
  have spaced := wellFormed.spaced
  rw [split] at spaced
  obtain ⟨spaced, -⟩ := Spaced.append.mp spaced
  refine ⟨ordered, ?_, lowerEnd, fun handle object found => ?_⟩
  · cases last : upper.getLast? with
    | none => exact .inl (by simp [lowestByte, last])
    | some slot =>
        have mem : slot ∈ heap.order := split ▸ List.mem_append_left _ (List.mem_of_getLast? last)
        obtain ⟨object, here, found⟩ := wellFormed.get?_of_mem_order mem
        exact .inr ⟨_, object, found, by simp [lowestByte, last, here]⟩
  · obtain ⟨slot, node, rfl, mem, occupied, rfl⟩ := wellFormed.mem_order found
    have here : heap.object? slot = some node.object := by simp [object?, occupied]
    rw [split] at mem
    rcases List.mem_append.mp mem with mem | mem
    · exact .inl (spaced.bounds mem here).2.1
    · exact .inr (above slot mem _ here)

/-- A hole that is wide enough lies below the upper part of the chain, if the spaces
    in that part are narrow. -/
theorem wideHole_le (wellFormed : heap.WellFormed) (split : heap.order = upper ++ lower)
    (narrow : heap.Narrow size heap.limit upper) (hole : heap.WideHole floor size bottom top) :
    top ≤ heap.lowestByte heap.limit upper := by
  have spaced := wellFormed.spaced
  rw [split] at spaced
  have inside : top ≤ heap.limit := by
    rcases hole.upperEnd with rfl | ⟨handle, object, found, rfl⟩
    · exact Nat.le_refl _
    · have bounds := (wellFormed.bounds found).2.2
      have higher := wellFormed.bottom_le_top found
      omega
  refine narrow.top_le (Spaced.append.mp spaced).1 (fun slot mem object here => ?_) hole.wide inside
  have mem : slot ∈ heap.order := split ▸ List.mem_append_left _ mem
  exact hole.free _ object (wellFormed.get?_of_object? mem here)

/-- An allocation takes the top of one hole or is refused; there is no hole above it that
    is wide enough, and none at all if this one is not. -/
theorem allocate_eq (wellFormed : heap.WellFormed) (low : floor ≤ heap.boundary) (size : Nat)
    (payload : Payload) :
    ∃ bottom top gap, heap.Hole floor bottom top ∧
      (∀ bottom' top', heap.WideHole floor size bottom' top' →
        top' ≤ top ∧ bottom + (size + headerSize) ≤ top) ∧
      heap.allocate size payload floor =
        if bottom + (size + headerSize) ≤ top then .ok (heap.place gap ⟨top - size, size, false, payload⟩)
        else .error .collision := by
  have chained := wellFormed.chained
  have enough : heap.order.length < heap.slots.size + 1 := Nat.lt_succ_of_le chained.length_le
  have search := findGap_first size chained.linked wellFormed.spaced rfl enough
  rw [← chained.highest] at search
  rcases search with ⟨upper, slot, lower, object, gap, split, narrow, here, room, found, address⟩ |
    ⟨narrow, gap, address, found⟩
  · -- The space above the object in `slot` is wide enough.
    have spaced := wellFormed.spaced
    rw [split] at spaced
    obtain ⟨-, object', here', -, -, spaced⟩ := Spaced.append.mp spaced
    obtain rfl : object = object' := Option.some.inj (here.symm.trans here')
    have mem : slot ∈ heap.order := split ▸ List.mem_append_right _ List.mem_cons_self
    have named := wellFormed.get?_of_object? mem here
    have floored := wellFormed.floor_le_bottom low named
    have higher := wellFormed.bottom_le_top named
    refine ⟨object.top, heap.lowestByte heap.limit upper, gap,
      wellFormed.hole split (.inr ⟨_, object, named, rfl⟩) (by omega) ?_, ?_, ?_⟩
    · intro other mem object' there
      rcases List.mem_cons.mp mem with rfl | mem
      · obtain rfl : object = object' := Option.some.inj (here.symm.trans there)
        exact Nat.le_refl _
      · have lower := (spaced.bounds mem there).2.2
        omega
    · exact fun bottom' top' hole => ⟨wellFormed.wideHole_le split narrow hole, room⟩
    · have fits : ¬ (gap.address < headerSize ∨ gap.address - headerSize < floor) := by omega
      rw [if_pos room, ← address]
      simp only [Heap.allocate, found, bind, Except.bind, if_neg fits]
  · -- Only the space below all objects is left.
    have split : heap.order = heap.order ++ [] := by rw [List.append_nil]
    have lowest := wellFormed.boundary_eq
    refine ⟨floor, heap.lowestByte heap.limit heap.order, gap,
      wellFormed.hole split (.inl rfl) (by omega) (by simp), fun bottom' top' hole => ?_, ?_⟩
    · have below := wellFormed.wideHole_le split narrow hole
      refine ⟨below, Nat.le_trans ?_ (Nat.le_trans hole.wide below)⟩
      rcases hole.lowerEnd with rfl | ⟨handle, object, found, rfl⟩
      · exact Nat.le_refl _
      · have floored := wellFormed.floor_le_bottom low found
        have higher := wellFormed.bottom_le_top found
        omega
    · simp only [Heap.allocate, found]
      by_cases small : heap.lowestByte heap.limit heap.order < size
      · rw [if_pos small, if_neg (by omega)]
        rfl
      · rw [if_neg small]
        simp only [bind, Except.bind, address]
        by_cases room : floor + (size + headerSize) ≤ heap.lowestByte heap.limit heap.order
        · rw [if_pos room, if_neg (by omega)]
        · rw [if_neg room, if_pos (by omega)]

end WellFormed

/-- An allocation succeeds exactly if some hole is wide enough. The new object is at the
    top of the highest one of them, and no other object changes. The only refusal is the
    collision, and memory is left as it is then. -/
theorem allocate_first_fit (wellFormed : heap.WellFormed) (low : floor ≤ heap.boundary) (size : Nat)
    (payload : Payload) :
    ((∃ handle after, heap.allocate size payload floor = .ok (handle, after)) ↔
      ∃ bottom top, heap.WideHole floor size bottom top) ∧
    (∀ handle after, heap.allocate size payload floor = .ok (handle, after) →
      ∃ bottom top, heap.WideHole floor size bottom top ∧
        (∀ bottom' top', heap.WideHole floor size bottom' top' → top' ≤ top) ∧
        heap.get? handle = none ∧
        after.get? handle = some ⟨top - size, size, false, payload⟩ ∧
        ∀ other ≠ handle, after.get? other = heap.get? other) ∧
    ∀ error, heap.allocate size payload floor = .error error →
      error = .collision ∧
      ∀ memory : Memory, memory.heap = heap → memory.stack.boundary = floor →
        Memory.allocate size payload memory = .error .collision memory := by
  obtain ⟨bottom, top, gap, hole, highest, allocated⟩ := wellFormed.allocate_eq low size payload
  by_cases wide : bottom + (size + headerSize) ≤ top
  · rw [if_pos wide] at allocated
    have wideHole : heap.WideHole floor size bottom top := ⟨hole, wide⟩
    refine ⟨⟨fun _ => ⟨bottom, top, wideHole⟩, fun _ => ⟨_, _, allocated⟩⟩, ?_, ?_⟩
    · intro handle after placed
      have placed := Except.ok.inj (allocated.symm.trans placed)
      obtain ⟨fresh, named⟩ := wellFormed.pooled.get?_place gap ⟨top - size, size, false, payload⟩
      rw [placed] at fresh named
      refine ⟨bottom, top, wideHole, fun bottom' top' other => (highest bottom' top' other).1, fresh, ?_, ?_⟩
      · rw [named, if_pos rfl]
      · intro other different
        rw [named, if_neg different]
    · intro error refused
      rw [allocated] at refused
      cases refused
  · rw [if_neg wide] at allocated
    have none (bottom' top' : Nat) : ¬ heap.WideHole floor size bottom' top' :=
      fun other => wide (highest bottom' top' other).2
    refine ⟨⟨?_, ?_⟩, ?_, ?_⟩
    · rintro ⟨handle, after, placed⟩
      rw [allocated] at placed
      cases placed
    · rintro ⟨bottom', top', other⟩
      exact absurd other (none bottom' top')
    · intro handle after placed
      rw [allocated] at placed
      cases placed
    · intro error refused
      refine ⟨Except.error.inj (refused.symm.trans allocated), ?_⟩
      rintro memory rfl rfl
      simp only [Memory.allocate, Memory.onHeap, allocated]

/-- Three objects were placed and the one in the middle removed. -/
def withGap : Heap :=
  (empty 100).performed [.allocate 10 (.bytes []) 0, .allocate 10 (.bytes []) 0,
    .allocate 10 (.bytes []) 0, .deallocate (.entry 1 0)]

/-- Ten bytes and a header fit exactly into the place of the one in the middle. -/
theorem allocate_first_fit_withGap :
    withGap.WellFormed ∧ 0 ≤ withGap.boundary ∧
      ∃ handle after bottom, withGap.allocate 10 (.bytes []) 0 = .ok (handle, after) ∧
        withGap.WideHole 0 10 bottom 82 ∧ after.get? handle = some ⟨72, 10, false, .bytes []⟩ := by
  have wellFormed : withGap.WellFormed := wellFormed_performed (WellFormed.empty 100) _
  have low : 0 ≤ withGap.boundary := Nat.zero_le _
  obtain ⟨handle, after, placed⟩ : ∃ handle after, withGap.allocate 10 (.bytes []) 0 = .ok (handle, after) :=
    ⟨_, _, rfl⟩
  have found : (withGap.allocate 10 (.bytes []) 0).map (fun placed => placed.2.get? placed.1) =
      .ok (some ⟨72, 10, false, .bytes []⟩) := by decide
  obtain ⟨bottom, top, hole, -, -, named, -⟩ :=
    (allocate_first_fit wellFormed low 10 (.bytes [])).2.1 handle after placed
  rw [placed] at found
  have same : some (HeapObject.mk (top - 10) 10 false (.bytes [])) = some ⟨72, 10, false, .bytes []⟩ :=
    named.symm.trans (Except.ok.inj found)
  obtain rfl : top = 82 := by
    have := hole.wide
    simp only [Option.some.injEq, HeapObject.mk.injEq] at same
    omega
  exact ⟨wellFormed, low, handle, after, bottom, placed, hole, named⟩

end Heap

end PocketScript
