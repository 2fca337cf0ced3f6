import PocketScript.Proofs.Heap.Links

/-! # Spacing of the heap

Along the chain each object lies below the header of the one before, and the
first one below the end of memory: `Spaced`. The gap that a search finds leaves
room for the new object and its header between the two neighbours it names.
-/

namespace PocketScript.Heap

/-- The objects in these slots lie one below the other, the first one below
    `ceiling`. -/
def Spaced (heap : Heap) : (ceiling : Nat) → (order : List Nat) → Prop
  | _, [] => True
  | ceiling, slot :: rest =>
      ∃ object, heap.object? slot = some object ∧ HeapObject.headerSize ≤ object.address ∧
        object.top ≤ ceiling ∧ Spaced heap object.bottom rest

/-- The lowest byte of the last of these objects, or `ceiling`. -/
def lowestByte (heap : Heap) (ceiling : Nat) (order : List Nat) : Nat :=
  ((order.getLast?.bind heap.object?).map (·.bottom)).getD ceiling

@[simp]
theorem lowestByte_nil (heap : Heap) (ceiling : Nat) : heap.lowestByte ceiling [] = ceiling :=
  rfl

theorem lowestByte_cons {heap : Heap} {slot : Nat} {object : HeapObject} {rest : List Nat}
    (occupied : ∀ slot ∈ rest, ∃ node, heap.node? slot = some node)
    (here : heap.object? slot = some object) (ceiling : Nat) :
    heap.lowestByte ceiling (slot :: rest) = heap.lowestByte object.bottom rest := by
  cases rest with
  | nil => simp [lowestByte, here]
  | cons next rest =>
      have mem := List.getLast_mem (List.cons_ne_nil next rest)
      obtain ⟨node, there⟩ := occupied _ mem
      have found : heap.object? ((next :: rest).getLast (by simp)) = some node.object := by
        rw [object?, there]
        rfl
      simp only [lowestByte, List.getLast?_cons_cons, List.getLast?_eq_some_getLast (List.cons_ne_nil next rest),
        Option.bind_some, found, Option.map_some, Option.getD_some]

namespace Spaced

variable {heap other : Heap} {ceiling higher slot : Nat} {order front back : List Nat}

theorem occupied (spaced : heap.Spaced ceiling order) :
    ∀ slot ∈ order, ∃ node, heap.node? slot = some node := by
  induction order generalizing ceiling with
  | nil => simp
  | cons first rest ih =>
      obtain ⟨object, here, -, -, lower⟩ := spaced
      obtain ⟨node, occupied, -⟩ := Option.map_eq_some_iff.mp here
      intro slot mem
      rcases List.mem_cons.mp mem with rfl | mem
      · exact ⟨node, occupied⟩
      · exact ih lower slot mem

theorem raise (spaced : heap.Spaced ceiling order) (above : ceiling ≤ higher) :
    heap.Spaced higher order := by
  cases order with
  | nil => trivial
  | cons slot rest =>
      obtain ⟨object, here, header, below, lower⟩ := spaced
      exact ⟨object, here, header, Nat.le_trans below above, lower⟩

theorem append : heap.Spaced ceiling (front ++ back) ↔
    heap.Spaced ceiling front ∧ heap.Spaced (heap.lowestByte ceiling front) back := by
  induction front generalizing ceiling with
  | nil => simp [Spaced]
  | cons slot rest ih =>
      constructor
      · rintro ⟨object, here, header, below, lower⟩
        obtain ⟨upper, lower⟩ := ih.mp lower
        rw [lowestByte_cons upper.occupied here]
        exact ⟨⟨object, here, header, below, upper⟩, lower⟩
      · rintro ⟨⟨object, here, header, below, upper⟩, lower⟩
        rw [lowestByte_cons upper.occupied here] at lower
        exact ⟨object, here, header, below, ih.mpr ⟨upper, lower⟩⟩

/-- Objects may also become smaller where they are. -/
theorem shrink (spaced : heap.Spaced ceiling order)
    (smaller : ∀ slot ∈ order, ∀ object, heap.object? slot = some object →
      ∃ object', other.object? slot = some object' ∧ object'.address = object.address ∧
        object'.size ≤ object.size) :
    other.Spaced ceiling order := by
  induction order generalizing ceiling with
  | nil => trivial
  | cons slot rest ih =>
      obtain ⟨object, here, header, below, lower⟩ := spaced
      obtain ⟨object', there, address, size⟩ := smaller slot List.mem_cons_self object here
      have lower := ih lower fun slot mem => smaller slot (List.mem_cons_of_mem _ mem)
      simp only [HeapObject.top, HeapObject.bottom] at below lower
      refine ⟨object', there, address ▸ header, ?_, ?_⟩
      · simp only [HeapObject.top]
        omega
      · rwa [HeapObject.bottom, address]

theorem congr (spaced : heap.Spaced ceiling order)
    (same : ∀ slot ∈ order, other.object? slot = heap.object? slot) :
    other.Spaced ceiling order :=
  spaced.shrink fun slot mem object here =>
    ⟨object, by rw [same slot mem, here], rfl, Nat.le_refl _⟩

/-- The objects end above the last of their headers. -/
theorem lowestByte_le (spaced : heap.Spaced ceiling order) :
    heap.lowestByte ceiling order ≤ ceiling := by
  induction order generalizing ceiling with
  | nil => simp
  | cons slot rest ih =>
      obtain ⟨object, here, header, below, lower⟩ := spaced
      have := ih lower
      rw [lowestByte_cons lower.occupied here]
      simp only [HeapObject.top, HeapObject.bottom] at *
      omega

/-- Removing an object from the chain. -/
theorem remove (spaced : heap.Spaced ceiling (front ++ slot :: back)) :
    heap.Spaced ceiling (front ++ back) := by
  obtain ⟨upper, object, here, header, below, lower⟩ := append.mp spaced
  refine append.mpr ⟨upper, lower.raise ?_⟩
  simp only [HeapObject.top, HeapObject.bottom] at *
  omega

/-- Every object lies between the lowest byte of the chain and its ceiling. -/
theorem bounds (spaced : heap.Spaced ceiling order) {object : HeapObject} (mem : slot ∈ order)
    (here : heap.object? slot = some object) :
    HeapObject.headerSize ≤ object.address ∧ heap.lowestByte ceiling order ≤ object.bottom ∧
      object.top ≤ ceiling := by
  obtain ⟨front, back, rfl⟩ := List.append_of_mem mem
  obtain ⟨upper, object', here', header, below, lower⟩ := append.mp spaced
  obtain rfl : object = object' := Option.some.inj (here.symm.trans here')
  refine ⟨header, ?_, Nat.le_trans below upper.lowestByte_le⟩
  have last : heap.lowestByte ceiling (front ++ slot :: back) = heap.lowestByte object.bottom back := by
    rw [← lowestByte_cons lower.occupied here ceiling]
    simp [lowestByte, List.getLast?_append, List.getLast?_cons]
  rw [last]
  exact lower.lowestByte_le

/-- Of two objects the one earlier in the chain lies above the other. -/
theorem pairwise (spaced : heap.Spaced ceiling order) :
    order.Pairwise fun upper lower => ∀ u, heap.object? upper = some u →
      ∀ l, heap.object? lower = some l → l.top ≤ u.bottom := by
  induction order generalizing ceiling with
  | nil => exact .nil
  | cons slot rest ih =>
      obtain ⟨object, here, -, -, lower⟩ := spaced
      refine .cons (fun next mem u above l below => ?_) (ih lower)
      obtain rfl : object = u := Option.some.inj (here.symm.trans above)
      exact (lower.bounds mem below).2.2

end Spaced

/-- The bytes from `address - headerSize` to `address + size` lie between what
    is above and what is below. -/
structure Room (heap : Heap) (ceiling : Nat) (upper lower : List Nat) (size address : Nat) : Prop where
  above : address + size ≤ heap.lowestByte ceiling upper
  below : ∀ slot object, lower.head? = some slot → heap.object? slot = some object →
    object.top + HeapObject.headerSize ≤ address

/-- A search along the chain ends at two neighbours with room between them, or
    it finds the space below the last object too small. -/
theorem findGap_spec {heap : Heap} (size : Nat) {ceiling count : Nat} {above : Option Nat} {order : List Nat}
    (linked : heap.Linked above order none) (spaced : heap.Spaced ceiling order)
    (space : heap.spaceUnder above = .ok ceiling) (enough : order.length < count) :
    heap.findGap size count above order.head? = .error .collision ∨
      ∃ upper lower address, order = upper ++ lower ∧
        heap.findGap size count above order.head? =
          .ok ⟨upper.getLast?.or above, lower.head?, address⟩ ∧
        heap.Room ceiling upper lower size address := by
  induction order generalizing ceiling count above with
  | nil =>
      obtain ⟨count, rfl⟩ := Nat.exists_eq_add_of_lt enough
      simp only [findGap, space, List.head?_nil]
      by_cases small : ceiling < size
      · exact .inl (if_pos small)
      · refine .inr ⟨[], [], ceiling - size, rfl, if_neg small, ?_, by simp⟩
        rw [lowestByte_nil]
        omega
  | cons slot rest ih =>
      obtain ⟨⟨node, occupied, -, toBelow⟩, linked⟩ := linked
      obtain ⟨object, here, header, below, spaced⟩ := spaced
      obtain rfl : node.object = object := by simpa [object?, occupied] using here
      obtain ⟨count, rfl⟩ : ∃ rest, count = rest + 1 := Nat.exists_eq_add_one.mpr (by omega)
      rw [Option.or_none] at toBelow
      have step : heap.findGap size (count + 1) above (slot :: rest).head? =
          if size + HeapObject.headerSize ≤ ceiling - node.object.top then
            .ok ⟨above, some slot, ceiling - size⟩
          else heap.findGap size count (some slot) rest.head? := by
        simp only [findGap, space, List.head?_cons, occupied, toBelow]
        rfl
      rw [step]
      split
      · next wide =>
        refine .inr ⟨[], slot :: rest, ceiling - size, rfl, by simp, ?_, ?_⟩
        · rw [lowestByte_nil]
          omega
        · intro other object' first there
          obtain rfl : slot = other := by simpa using first
          obtain rfl : node.object = object' := Option.some.inj (here.symm.trans there)
          omega
      · have space : heap.spaceUnder (some slot) = .ok node.object.bottom := by
          simp [spaceUnder, occupied]
        have enough : rest.length < count := by simpa using enough
        obtain none | ⟨upper, lower, address, rfl, found, room⟩ := ih linked spaced space enough
        · exact .inl none
        · refine .inr ⟨slot :: upper, lower, address, rfl, ?_, ?_, room.below⟩
          · rw [found, List.getLast?_cons]
            cases upper.getLast? <;> rfl
          · rw [lowestByte_cons (Spaced.append.mp spaced).1.occupied here]
            exact room.above

/-- An object put where there is room keeps the objects apart. -/
theorem Spaced.insert {heap other : Heap} {ceiling slot size address : Nat} {upper lower : List Nat}
    {object : HeapObject} (spaced : heap.Spaced ceiling (upper ++ lower))
    (room : heap.Room ceiling upper lower size address)
    (header : HeapObject.headerSize ≤ address)
    (same : ∀ slot ∈ upper ++ lower, other.object? slot = heap.object? slot)
    (here : other.object? slot = some object) (at_address : object.address = address)
    (of_size : object.size = size) : other.Spaced ceiling (upper ++ slot :: lower) := by
  obtain ⟨above, below⟩ := Spaced.append.mp spaced
  have top : object.top ≤ heap.lowestByte ceiling upper := by
    rw [HeapObject.top, at_address, of_size]
    exact room.above
  have under : heap.Spaced object.bottom lower := by
    cases lower with
    | nil => trivial
    | cons next rest =>
        obtain ⟨object', there, header', -, lower⟩ := below
        have := room.below next object' rfl there
        refine ⟨object', there, header', ?_, lower⟩
        rw [HeapObject.bottom, at_address]
        omega
  have same_lowest : other.lowestByte ceiling upper = heap.lowestByte ceiling upper := by
    unfold lowestByte
    cases last : upper.getLast? with
    | none => rfl
    | some slot =>
        rw [Option.bind_some, Option.bind_some,
          same slot (List.mem_append_left _ (List.mem_of_getLast? last))]
  refine Spaced.append.mpr ⟨above.congr fun s mem => same s (List.mem_append_left _ mem), ?_⟩
  rw [same_lowest]
  exact ⟨object, here, at_address ▸ header, top,
    under.congr fun s mem => same s (List.mem_append_right _ mem)⟩

end PocketScript.Heap
