import PocketScript.Proofs.Heap.Spacing

/-! # The invariant of the heap

The chain from the highest object visits every object, the objects along it lie
one below the other, and the vacant slots are those without an object. Every
operation keeps this, and says what each handle names afterwards. From here on
a heap is seen through `get?` only.
-/

namespace PocketScript.Heap

/-- Slots are listed as vacant, once, if they hold no object. -/
structure Pooled (heap : Heap) : Prop where
  nodup : heap.vacant.Nodup
  mem_iff : ∀ slot, slot ∈ heap.vacant ↔ slot < heap.slots.size ∧ heap.node? slot = none

/-- What every operation on the heap keeps. -/
structure WellFormed (heap : Heap) : Prop where
  chained : heap.Chained heap.order
  spaced : heap.Spaced heap.limit heap.order
  pooled : heap.Pooled

variable {heap other : Heap} {handle : Handle} {object : HeapObject} {order : List Nat}

theorem WellFormed.of_chain (chained : heap.Chained order) (spaced : heap.Spaced heap.limit order)
    (pooled : heap.Pooled) : heap.WellFormed := by
  obtain rfl := chained.order_eq
  exact ⟨chained, spaced, pooled⟩

theorem WellFormed.empty (limit : Nat) : (Heap.empty limit).WellFormed := by
  have free : ∀ slot, (Heap.empty limit).node? slot = none := fun slot => by
    simp [Heap.empty, node?]
  have chained : (Heap.empty limit).Chained [] :=
    ⟨.nil, fun slot => by simp [free], rfl, rfl, trivial⟩
  exact .of_chain chained trivial ⟨.nil, fun slot => by simp [Heap.empty]⟩

namespace WellFormed

/-- An object is in one of the slots along the chain, under the handle of the
    slot. -/
theorem mem_order (wellFormed : heap.WellFormed) (found : heap.get? handle = some object) :
    ∃ slot node, handle = heap.handleOf slot ∧ slot ∈ heap.order ∧ heap.node? slot = some node ∧
      node.object = object := by
  obtain ⟨slot, node, rfl, occupied, rfl⟩ := named_of_get? found
  exact ⟨slot, node, rfl, wellFormed.chained.mem_of_node occupied, occupied, rfl⟩

theorem get?_of_mem_order (wellFormed : heap.WellFormed) {slot : Nat} (mem : slot ∈ heap.order) :
    ∃ object, heap.object? slot = some object ∧ heap.get? (heap.handleOf slot) = some object := by
  obtain ⟨node, occupied⟩ := (wellFormed.chained.mem_iff slot).mp mem
  exact ⟨node.object, by simp [object?, occupied], get?_handleOf occupied⟩

theorem boundary_eq (wellFormed : heap.WellFormed) :
    heap.boundary = heap.lowestByte heap.limit heap.order := by
  rw [boundary, lowestByte, wellFormed.chained.lowest]
  cases last : heap.order.getLast? with
  | none => rfl
  | some slot =>
      obtain ⟨node, occupied⟩ :=
        (wellFormed.chained.mem_iff slot).mp (List.mem_of_getLast? last)
      simp [object?, occupied]

/-- An object with its header lies between the lowest byte in use and the end of
    memory. -/
theorem bounds (wellFormed : heap.WellFormed) (found : heap.get? handle = some object) :
    HeapObject.headerSize ≤ object.address ∧ heap.boundary ≤ object.bottom ∧
      object.top ≤ heap.limit := by
  obtain ⟨slot, node, rfl, mem, occupied, rfl⟩ := wellFormed.mem_order found
  rw [wellFormed.boundary_eq]
  exact wellFormed.spaced.bounds mem (by simp [object?, occupied])

theorem boundary_le (wellFormed : heap.WellFormed) : heap.boundary ≤ heap.limit := by
  rw [wellFormed.boundary_eq]
  exact wellFormed.spaced.lowestByte_le

theorem le_boundary_iff (wellFormed : heap.WellFormed) {floor : Nat} :
    floor ≤ heap.boundary ↔
      floor ≤ heap.limit ∧ ∀ handle object, heap.get? handle = some object → floor ≤ object.bottom := by
  constructor
  · intro low
    exact ⟨Nat.le_trans low wellFormed.boundary_le, fun handle object found =>
      Nat.le_trans low (wellFormed.bounds found).2.1⟩
  · rintro ⟨limit, low⟩
    rw [wellFormed.boundary_eq, lowestByte]
    cases last : heap.order.getLast? with
    | none => exact limit
    | some slot =>
        obtain ⟨object, here, found⟩ := wellFormed.get?_of_mem_order (List.mem_of_getLast? last)
        simpa [here] using low _ object found

/-- The lowest byte in use does not get lower as long as no object appears at a
    new address. -/
theorem le_boundary_of_addresses (wellFormed : heap.WellFormed) (after : other.WellFormed)
    (limit : other.limit = heap.limit)
    (known : ∀ handle object, other.get? handle = some object →
      ∃ old, heap.get? handle = some old ∧ old.address = object.address)
    {floor : Nat} (low : floor ≤ heap.boundary) : floor ≤ other.boundary := by
  obtain ⟨inside, below⟩ := wellFormed.le_boundary_iff.mp low
  refine after.le_boundary_iff.mpr ⟨limit ▸ inside, fun handle object found => ?_⟩
  obtain ⟨old, there, address⟩ := known handle object found
  rw [HeapObject.bottom, ← address]
  exact below handle old there

/-- Two objects under different handles do not overlap, headers included. -/
theorem disjoint (wellFormed : heap.WellFormed) {handle' : Handle} {object' : HeapObject}
    (found : heap.get? handle = some object) (found' : heap.get? handle' = some object')
    (different : handle ≠ handle') : object.top ≤ object'.bottom ∨ object'.top ≤ object.bottom := by
  obtain ⟨slot, node, rfl, mem, occupied, rfl⟩ := wellFormed.mem_order found
  obtain ⟨slot', node', rfl, mem', occupied', rfl⟩ := wellFormed.mem_order found'
  have here : heap.object? slot = some node.object := by simp [object?, occupied]
  have here' : heap.object? slot' = some node'.object := by simp [object?, occupied']
  have apart : slot ≠ slot' := fun same => different (same ▸ rfl)
  refine List.Pairwise.forall_of_forall_of_flip
    (R := fun upper lower => upper ≠ lower → ∀ u, heap.object? upper = some u →
      ∀ l, heap.object? lower = some l → u.top ≤ l.bottom ∨ l.top ≤ u.bottom)
    (fun _ _ absurd => absurd.irrefl.elim) ?_ ?_ mem mem' apart _ here _ here'
  · exact wellFormed.spaced.pairwise.imp fun above _ u upper l lower => .inr (above u upper l lower)
  · exact wellFormed.spaced.pairwise.imp fun above _ u upper l lower => .inl (above l lower u upper)

end WellFormed

/-- The neighbours of an object. -/
def links? (heap : Heap) (slot : Nat) : Option (Option Nat × Option Nat) :=
  (heap.node? slot).map fun node => (node.above, node.below)

theorem Linked.congr_links {above below : Option Nat}
    (same : ∀ slot, other.links? slot = heap.links? slot)
    (linked : heap.Linked above order below) : other.Linked above order below := by
  induction order generalizing above with
  | nil => trivial
  | cons slot rest ih =>
      obtain ⟨⟨node, occupied, toAbove, toBelow⟩, linked⟩ := linked
      have there := same slot
      simp only [links?, occupied, Option.map_some, Option.map_eq_some_iff, Prod.mk.injEq] at there
      obtain ⟨node', occupied', toAbove', toBelow'⟩ := there
      exact ⟨⟨node', occupied', toAbove'.trans toAbove, toBelow'.trans toBelow⟩, ih linked⟩

theorem exists_node_iff_links (slot : Nat) :
    (∃ node, heap.node? slot = some node) ↔ (heap.links? slot).isSome := by
  cases h : heap.node? slot <;> simp [links?, h]

/-- Objects may change, also shrink, as long as they keep their addresses and
    their neighbours. -/
theorem WellFormed.congr_links (wellFormed : heap.WellFormed)
    (links : ∀ slot, other.links? slot = heap.links? slot)
    (smaller : ∀ slot object, heap.object? slot = some object →
      ∃ object', other.object? slot = some object' ∧ object'.address = object.address ∧
        object'.size ≤ object.size)
    (limit : other.limit = heap.limit) (size : other.slots.size = heap.slots.size)
    (vacant : other.vacant = heap.vacant) (highest : other.highest = heap.highest)
    (lowest : other.lowest = heap.lowest) : other.WellFormed := by
  obtain ⟨⟨nodup, mem_iff, first, last, linked⟩, spaced, ⟨distinct, free⟩⟩ := wellFormed
  have occupied : ∀ slot, (∃ node, other.node? slot = some node) ↔ ∃ node, heap.node? slot = some node :=
    fun slot => by rw [exists_node_iff_links, exists_node_iff_links, links]
  have unoccupied : ∀ slot, other.node? slot = none ↔ heap.node? slot = none := fun slot => by
    rw [Option.eq_none_iff_forall_ne_some, Option.eq_none_iff_forall_ne_some,
      ← not_exists, ← not_exists, occupied]
  have chained : other.Chained heap.order := by
    refine ⟨nodup, fun slot => ?_, highest ▸ first, lowest ▸ last, linked.congr_links links⟩
    rw [mem_iff, occupied]
  refine .of_chain chained ?_ ⟨vacant ▸ distinct, fun slot => ?_⟩
  · rw [limit]
    exact spaced.shrink fun slot _ => smaller slot
  · rw [vacant, free, size, unoccupied]

/-- Changing objects in place. -/
theorem WellFormed.modifyNode (wellFormed : heap.WellFormed) (slot : Nat)
    {change : HeapObject → HeapObject} (address : ∀ object, (change object).address = object.address)
    (size : ∀ object, heap.object? slot = some object → (change object).size ≤ object.size) :
    (heap.modifyNode slot fun node => { node with object := change node.object }).WellFormed := by
  refine wellFormed.congr_links (fun other => ?_) (fun other object here => ?_) rfl (by simp) rfl rfl rfl
  · simp only [links?, node?_modifyNode]
    split
    · cases heap.node? other <;> rfl
    · rfl
  · obtain ⟨node, occupied, rfl⟩ := Option.map_eq_some_iff.mp here
    simp only [object?, node?_modifyNode, occupied]
    split
    · next same => exact ⟨_, rfl, address _, size _ (same ▸ here)⟩
    · exact ⟨_, rfl, rfl, Nat.le_refl _⟩

theorem WellFormed.modify (wellFormed : heap.WellFormed) {change : HeapObject → HeapObject}
    (address : ∀ object, (change object).address = object.address)
    (size : ∀ object, heap.get? handle = some object → (change object).size ≤ object.size) :
    (heap.modify handle change).WellFormed := by
  cases named : heap.named? handle with
  | none => simpa [Heap.modify, named] using wellFormed
  | some found =>
      obtain ⟨slot, node⟩ := found
      obtain ⟨rfl, occupied⟩ := handleOf_of_named named
      simp only [Heap.modify, named]
      refine wellFormed.modifyNode slot address fun object here => size object ?_
      rw [get?_handleOf occupied]
      simpa [object?, occupied] using here

@[simp]
theorem limit_modify (heap : Heap) (handle : Handle) (change : HeapObject → HeapObject) :
    (heap.modify handle change).limit = heap.limit := by
  rw [Heap.modify]
  split <;> rfl

theorem WellFormed.le_boundary_modify (wellFormed : heap.WellFormed) {change : HeapObject → HeapObject}
    (address : ∀ object, (change object).address = object.address)
    (size : ∀ object, heap.get? handle = some object → (change object).size ≤ object.size) {floor : Nat}
    (low : floor ≤ heap.boundary) : floor ≤ (heap.modify handle change).boundary := by
  refine wellFormed.le_boundary_of_addresses (wellFormed.modify address size) (limit_modify _ _ _) ?_ low
  intro other object here
  rw [get?_modify] at here
  split at here
  · obtain ⟨old, there, rfl⟩ := Option.map_eq_some_iff.mp here
    exact ⟨old, there, (address old).symm⟩
  · exact ⟨object, here, rfl⟩

theorem WellFormed.mark (wellFormed : heap.WellFormed) (handle : Handle) :
    (heap.mark handle).WellFormed :=
  wellFormed.modify (fun _ => rfl) fun _ _ => Nat.le_refl _

theorem WellFormed.setTarget (wellFormed : heap.WellFormed) (cell object : Handle) :
    (heap.setTarget cell object).WellFormed :=
  wellFormed.modify (fun _ => rfl) fun _ _ => Nat.le_refl _

end PocketScript.Heap
