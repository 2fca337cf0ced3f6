import Mathlib.Data.List.Nodup
import Mathlib.Data.List.Induction
import Mathlib.Data.List.Perm.Subperm
import PocketScript.Proofs.Heap.Views

/-! # Links of the heap

The objects of a heap form one chain from the highest to the lowest: `Chained`
names the slots along it. Placing an object between two neighbours and removing
one keep the chain, and walking it in either direction visits every object once.
-/

namespace PocketScript.Heap

/-- The objects in these slots are linked one below the other, the first one to
    `above` and the last one to `below`. -/
def Linked (heap : Heap) : (above : Option Nat) → (order : List Nat) → (below : Option Nat) → Prop
  | _, [], _ => True
  | above, slot :: rest, below =>
      (∃ node, heap.node? slot = some node ∧ node.above = above ∧
        node.below = rest.head?.or below) ∧
      Linked heap (some slot) rest below

/-- The slots of all objects along the links, the highest object first. -/
structure Chained (heap : Heap) (order : List Nat) : Prop where
  nodup : order.Nodup
  mem_iff : ∀ slot, slot ∈ order ↔ ∃ node, heap.node? slot = some node
  highest : heap.highest = order.head?
  lowest : heap.lowest = order.getLast?
  linked : heap.Linked none order none

namespace Linked

variable {heap other : Heap} {above below : Option Nat} {order front back : List Nat}

theorem append : heap.Linked above (front ++ back) below ↔
    heap.Linked above front (back.head?.or below) ∧
      heap.Linked (front.getLast?.or above) back below := by
  induction front generalizing above with
  | nil => simp [Linked]
  | cons slot rest ih =>
      have first : (rest ++ back).head?.or below = rest.head?.or (back.head?.or below) := by
        cases rest <;> simp
      have last : (slot :: rest).getLast?.or above = rest.getLast?.or (some slot) := by
        rw [List.getLast?_cons]
        cases rest.getLast? <;> rfl
      simp only [List.cons_append, Linked, ih, first, last, and_assoc]

/-- A chain and its two parts. -/
theorem split : heap.Linked none (front ++ back) none ↔
    heap.Linked none front back.head? ∧ heap.Linked front.getLast? back none := by
  rw [append, Option.or_none, Option.or_none]

/-- A chain and the object in the middle of it. -/
theorem split_at {slot : Nat} : heap.Linked none (front ++ slot :: back) none ↔
    heap.Linked none front (some slot) ∧
      (∃ node, heap.node? slot = some node ∧ node.above = front.getLast? ∧
        node.below = back.head?) ∧
      heap.Linked (some slot) back none := by
  rw [split, List.head?_cons, Linked, Option.or_none]

/-- Only the objects in the slots themselves matter. -/
theorem congr (same : ∀ slot ∈ order, other.node? slot = heap.node? slot)
    (linked : heap.Linked above order below) : other.Linked above order below := by
  induction order generalizing above with
  | nil => trivial
  | cons slot rest ih =>
      obtain ⟨⟨node, occupied, links⟩, below⟩ := linked
      refine ⟨⟨node, ?_, links⟩, ih (fun s mem => same s (List.mem_cons_of_mem _ mem)) below⟩
      rw [same slot List.mem_cons_self, occupied]

/-- Relinking the lowest of several objects to what comes below. -/
theorem setBelow (linked : heap.Linked above order below) (distinct : order.Nodup)
    (link : Option Nat) : (heap.setBelow order.getLast? link).Linked above order link := by
  induction order generalizing above with
  | nil => trivial
  | cons slot rest ih =>
      obtain ⟨⟨node, occupied, toAbove, toBelow⟩, lower⟩ := linked
      obtain ⟨absent, distinct⟩ := List.nodup_cons.mp distinct
      cases rest with
      | nil => exact ⟨⟨{ node with below := link }, by simp [node?_setBelow, occupied], toAbove, by simp⟩,
          trivial⟩
      | cons next rest =>
          have last : (slot :: next :: rest).getLast? = (next :: rest).getLast? := by simp
          have elsewhere : (next :: rest).getLast? ≠ some slot :=
            fun same => absent (List.mem_of_getLast? same)
          rw [last]
          refine ⟨⟨node, ?_, toAbove, by simpa using toBelow⟩, ih lower distinct⟩
          rw [node?_setBelow, if_neg elsewhere, occupied]

/-- Relinking the highest of several objects to what comes above. -/
theorem setAbove (linked : heap.Linked above order below) (distinct : order.Nodup)
    (link : Option Nat) : (heap.setAbove order.head? link).Linked link order below := by
  cases order with
  | nil => trivial
  | cons slot rest =>
      obtain ⟨⟨node, occupied, toAbove, toBelow⟩, lower⟩ := linked
      obtain ⟨absent, -⟩ := List.nodup_cons.mp distinct
      refine ⟨⟨{ node with above := link }, by simp [node?_setAbove, occupied], rfl, toBelow⟩, ?_⟩
      refine congr (fun s mem => ?_) lower
      have elsewhere : (slot :: rest).head? ≠ some s := by
        rintro same
        obtain rfl : slot = s := by simpa using same
        exact absent mem
      rw [node?_setAbove, if_neg elsewhere]

/-- Relinking another object. -/
theorem setBelow_elsewhere (linked : heap.Linked above order below) {slot? : Option Nat}
    (elsewhere : ∀ slot ∈ order, slot? ≠ some slot) (link : Option Nat) :
    (heap.setBelow slot? link).Linked above order below :=
  linked.congr fun slot mem => by rw [node?_setBelow, if_neg (elsewhere slot mem)]

theorem setAbove_elsewhere (linked : heap.Linked above order below) {slot? : Option Nat}
    (elsewhere : ∀ slot ∈ order, slot? ≠ some slot) (link : Option Nat) :
    (heap.setAbove slot? link).Linked above order below :=
  linked.congr fun slot mem => by rw [node?_setAbove, if_neg (elsewhere slot mem)]

end Linked

namespace Chained

variable {heap : Heap} {order front back : List Nat} {slot : Nat}

theorem mem_of_node (chained : heap.Chained order) {node : HeapNode}
    (occupied : heap.node? slot = some node) : slot ∈ order :=
  (chained.mem_iff slot).mpr ⟨node, occupied⟩

/-- The highest object after the last of some slots was linked to another one. -/
theorem highest_setBelow_getLast? (occupied : ∀ slot ∈ front, ∃ node, heap.node? slot = some node)
    (highest : front ≠ [] → heap.highest = front.head?) (link : Option Nat) :
    (heap.setBelow front.getLast? link).highest = front.head?.or link := by
  rw [highest_setBelow]
  cases last : front.getLast? with
  | none =>
      obtain rfl : front = [] := by simpa using last
      rfl
  | some slot =>
      have mem := List.mem_of_getLast? last
      obtain ⟨node, here⟩ := occupied slot mem
      have some_front : front ≠ [] := List.ne_nil_of_mem mem
      obtain ⟨first, rest, rfl⟩ := List.exists_cons_of_ne_nil some_front
      simp [here, highest some_front]

theorem lowest_setAbove_head? (occupied : ∀ slot ∈ back, ∃ node, heap.node? slot = some node)
    (lowest : back ≠ [] → heap.lowest = back.getLast?) (link : Option Nat) :
    (heap.setAbove back.head? link).lowest = back.getLast?.or link := by
  rw [lowest_setAbove]
  cases back with
  | nil => rfl
  | cons first rest =>
      obtain ⟨node, here⟩ := occupied first List.mem_cons_self
      simp [here, lowest, List.getLast?_cons]

/-- Linking the objects on the two sides of a gap to what comes in between. The
    chain may be broken there before. -/
theorem relinked {upper lower : Option Nat} (above below : Option Nat) (distinct : (front ++ back).Nodup)
    (linkedAbove : heap.Linked none front lower) (linkedBelow : heap.Linked upper back none) :
    let relinked := (heap.setBelow front.getLast? below).setAbove back.head? above
    relinked.Linked none front below ∧ relinked.Linked above back none := by
  obtain ⟨distinctAbove, distinctBelow, apart⟩ := List.nodup_append.mp distinct
  have lastElsewhere : ∀ slot ∈ back, front.getLast? ≠ some slot :=
    fun slot mem same => apart slot (List.mem_of_getLast? same) slot mem rfl
  have headElsewhere : ∀ slot ∈ front, back.head? ≠ some slot :=
    fun slot mem same => apart slot mem slot (List.mem_of_head? same) rfl
  exact ⟨(linkedAbove.setBelow distinctAbove _).setAbove_elsewhere headElsewhere _,
    (linkedBelow.setBelow_elsewhere lastElsewhere _).setAbove distinctBelow _⟩

/-- Relinking keeps which slots are occupied. -/
theorem exists_node_relinked (slot? other? above below : Option Nat) :
    (∃ node, ((heap.setBelow slot? below).setAbove other? above).node? slot = some node) ↔
      ∃ node, heap.node? slot = some node := by
  rw [node?_setAbove, node?_setBelow]
  cases heap.node? slot <;> split <;> split <;> simp

/-- Placing an object between two neighbours puts its slot between theirs. -/
theorem place (chained : heap.Chained (front ++ back))
    (within : ∀ slot ∈ heap.vacant, slot < heap.slots.size)
    (free : heap.node? heap.nextSlot = none) (address : Nat) (object : HeapObject) :
    (heap.place ⟨front.getLast?, back.head?, address⟩ object).2.Chained
      (front ++ heap.nextSlot :: back) := by
  obtain ⟨nodup, mem_iff, highest, lowest, linked⟩ := chained
  generalize next : heap.nextSlot = slot at *
  have fresh : slot ∉ front ++ back := fun mem => by
    obtain ⟨node, occupied⟩ := (mem_iff slot).mp mem
    simp [occupied] at free
  rw [List.mem_append, not_or] at fresh
  let node : HeapNode := ⟨object, front.getLast?, back.head?⟩
  let filled := (heap.occupy node).2
  have filled_node : ∀ other,
      filled.node? other = if slot = other then some node else heap.node? other :=
    fun other => by rw [← next]; exact node?_occupy node within other
  have unchanged : ∀ other, other ≠ slot → filled.node? other = heap.node? other :=
    fun other different => by rw [filled_node, if_neg (Ne.symm different)]
  obtain ⟨linkedAbove, linkedBelow⟩ := Linked.split.mp linked
  have linkedAbove : filled.Linked none front back.head? := linkedAbove.congr fun other mem =>
    unchanged other fun same => fresh.1 (same ▸ mem)
  have linkedBelow : filled.Linked front.getLast? back none := linkedBelow.congr fun other mem =>
    unchanged other fun same => fresh.2 (same ▸ mem)
  obtain ⟨newAbove, newBelow⟩ :=
    relinked (some slot) (some slot) nodup linkedAbove linkedBelow
  have occupied : ∀ other, other ∈ front ++ slot :: back ↔ ∃ node, filled.node? other = some node := by
    intro other
    rw [filled_node]
    by_cases same : slot = other
    · simp [same]
    · have different : ¬ other = slot := fun h => same h.symm
      simp [same, different, ← mem_iff]
  rw [place_eq, next]
  refine ⟨?_, fun other => ?_, ?_, ?_, ?_⟩
  · rw [List.nodup_append] at nodup ⊢
    refine ⟨nodup.1, List.nodup_cons.mpr ⟨fresh.2, nodup.2.1⟩, fun a mem b mem' => ?_⟩
    rcases List.mem_cons.mp mem' with rfl | mem'
    · exact fun same => fresh.1 (same ▸ mem)
    · exact nodup.2.2 a mem b mem'
  · rw [occupied]
    exact (exists_node_relinked _ _ _ _).symm
  · have upper : front ≠ [] → filled.highest = front.head? := by
      intro some_front
      obtain ⟨first, rest, rfl⟩ := List.exists_cons_of_ne_nil some_front
      simpa [filled] using highest
    have filledFront : ∀ other ∈ front, ∃ node, filled.node? other = some node :=
      fun other mem => (occupied other).mp (List.mem_append_left _ mem)
    calc ((filled.setBelow front.getLast? (some slot)).setAbove back.head? (some slot)).highest
      _ = front.head?.or (some slot) := by
          rw [highest_setAbove, highest_setBelow_getLast? filledFront upper]
      _ = (front ++ slot :: back).head? := by cases front <;> rfl
  · have lower : back ≠ [] → (filled.setBelow front.getLast? (some slot)).lowest = back.getLast? := by
      intro some_back
      obtain ⟨first, rest, rfl⟩ := List.exists_cons_of_ne_nil some_back
      simp [filled, lowest, List.getLast?_cons]
    have filledBack : ∀ other ∈ back,
        ∃ node, (filled.setBelow front.getLast? (some slot)).node? other = some node := by
      intro other mem
      obtain ⟨node, here⟩ := (occupied other).mp (by simp [mem])
      rw [node?_setBelow]
      split <;> simp [here]
    calc ((filled.setBelow front.getLast? (some slot)).setAbove back.head? (some slot)).lowest
      _ = back.getLast?.or (some slot) := lowest_setAbove_head? filledBack lower _
      _ = (front ++ slot :: back).getLast? := by simp [List.getLast?_cons]
  · have notLast : front.getLast? ≠ some slot := fun same => fresh.1 (List.mem_of_getLast? same)
    have notFirst : back.head? ≠ some slot := fun same => fresh.2 (List.mem_of_head? same)
    have here : ((filled.setBelow front.getLast? (some slot)).setAbove back.head? (some slot)).node?
        slot = some node := by
      rw [node?_setAbove, if_neg notFirst, node?_setBelow, if_neg notLast, filled_node, if_pos rfl]
    have whole := Linked.split_at.mpr ⟨newAbove, ⟨node, here, rfl, rfl⟩, newBelow⟩
    refine whole.congr ?_
    intro _ _
    rfl

/-- Removing an object joins the chain above it and the chain below it. -/
theorem deallocate (chained : heap.Chained (front ++ slot :: back)) :
    (heap.deallocate (heap.handleOf slot)).Chained (front ++ back) := by
  obtain ⟨nodup, mem_iff, highest, lowest, linked⟩ := chained
  obtain ⟨linkedAbove, ⟨node, occupied, toAbove, toBelow⟩, linkedBelow⟩ := Linked.split_at.mp linked
  have named : heap.named? (heap.handleOf slot) = some (slot, node) := by
    obtain ⟨generation, current⟩ := generation_of_node occupied
    rw [handleOf_eq current, named?_entry, if_pos current, occupied]
    rfl
  obtain ⟨absent, distinct⟩ := List.nodup_cons.mp (List.nodup_middle.mp nodup)
  rw [List.mem_append, not_or] at absent
  have unchanged : ∀ other, other ≠ slot → (heap.vacate slot).node? other = heap.node? other :=
    fun other different => by rw [node?_vacate, if_neg (Ne.symm different)]
  have linkedAbove : (heap.vacate slot).Linked none front (some slot) :=
    linkedAbove.congr fun other mem => unchanged other fun same => absent.1 (same ▸ mem)
  have linkedBelow : (heap.vacate slot).Linked (some slot) back none :=
    linkedBelow.congr fun other mem => unchanged other fun same => absent.2 (same ▸ mem)
  have left : ∀ other, other ∈ front ++ back ↔ ∃ node, (heap.vacate slot).node? other = some node := by
    intro other
    rw [node?_vacate]
    by_cases same : slot = other
    · simpa [same] using same ▸ absent
    · have different : ¬ other = slot := fun h => same h.symm
      rw [if_neg same, ← mem_iff]
      simp [different]
  have result : heap.deallocate (heap.handleOf slot) =
      ((heap.vacate slot).setBelow front.getLast? back.head?).setAbove back.head? front.getLast? := by
    simp only [Heap.deallocate, named, toAbove, toBelow]
  rw [result]
  refine ⟨distinct, fun other => ?_, ?_, ?_,
    Linked.split.mpr (relinked _ _ distinct linkedAbove linkedBelow)⟩
  · rw [left]
    exact (exists_node_relinked _ _ _ _).symm
  · have upper : front ≠ [] → (heap.vacate slot).highest = front.head? := by
      intro some_front
      obtain ⟨first, rest, rfl⟩ := List.exists_cons_of_ne_nil some_front
      simpa [vacate] using highest
    have leftAbove : ∀ other ∈ front, ∃ node, (heap.vacate slot).node? other = some node :=
      fun other mem => (left other).mp (List.mem_append_left _ mem)
    rw [highest_setAbove, highest_setBelow_getLast? leftAbove upper, List.head?_append]
  · have lower : back ≠ [] →
        ((heap.vacate slot).setBelow front.getLast? back.head?).lowest = back.getLast? := by
      intro some_back
      obtain ⟨first, rest, rfl⟩ := List.exists_cons_of_ne_nil some_back
      simp [vacate, lowest, List.getLast?_cons]
    have leftBelow : ∀ other ∈ back,
        ∃ node, ((heap.vacate slot).setBelow front.getLast? back.head?).node? other = some node := by
      intro other mem
      obtain ⟨node, here⟩ := (left other).mp (List.mem_append_right _ mem)
      rw [node?_setBelow]
      split <;> simp [here]
    rw [lowest_setAbove_head? leftBelow lower, List.getLast?_append]

end Chained

/-- Following links from a slot visits these slots and ends after the last. -/
def Walk (next : HeapNode → Option Nat) (heap : Heap) : Option Nat → List Nat → Prop
  | none, [] => True
  | some start, slot :: rest =>
      slot = start ∧ ∃ node, heap.node? slot = some node ∧ Walk next heap (next node) rest
  | _, _ => False

namespace Linked

variable {heap : Heap} {above below : Option Nat} {order : List Nat}

theorem walk_below (linked : heap.Linked above order none) :
    heap.Walk (·.below) order.head? order := by
  induction order generalizing above with
  | nil => trivial
  | cons slot rest ih =>
      obtain ⟨⟨node, occupied, -, toBelow⟩, lower⟩ := linked
      rw [Option.or_none] at toBelow
      exact ⟨rfl, node, occupied, by simpa only [toBelow] using ih lower⟩

theorem walk_above (linked : heap.Linked none order below) :
    heap.Walk (·.above) order.getLast? order.reverse := by
  induction order using List.reverseRecOn generalizing below with
  | nil => trivial
  | append_singleton rest slot ih =>
      obtain ⟨upper, ⟨node, occupied, toAbove, -⟩, -⟩ := append.mp linked
      rw [Option.or_none] at toAbove
      rw [List.getLast?_concat, List.reverse_concat]
      exact ⟨rfl, node, occupied, by simpa only [toAbove] using ih upper⟩

/-- Visiting as many objects as there are along the links visits all of them. -/
theorem slotsFrom_eq (linked : heap.Linked above order none) {count : Nat}
    (enough : order.length ≤ count) : heap.slotsFrom count order.head? = order := by
  induction order generalizing above count with
  | nil => cases count <;> rfl
  | cons slot rest ih =>
      obtain ⟨⟨node, occupied, -, toBelow⟩, lower⟩ := linked
      rw [Option.or_none] at toBelow
      cases count with
      | zero => simp at enough
      | succ count =>
          have rest_eq := ih lower (Nat.le_of_succ_le_succ enough)
          simp only [List.head?_cons, slotsFrom, occupied, toBelow, rest_eq]

end Linked

namespace Chained

variable {heap : Heap} {order : List Nat}

theorem length_le (chained : heap.Chained order) : order.length ≤ heap.slots.size := by
  have inside : order ⊆ List.range heap.slots.size := by
    intro slot mem
    obtain ⟨node, occupied⟩ := (chained.mem_iff slot).mp mem
    exact List.mem_range.mpr (lt_size_of_node occupied)
  simpa using (List.subperm_of_subset chained.nodup inside).length_le

theorem order_eq (chained : heap.Chained order) : heap.order = order := by
  rw [Heap.order, chained.highest]
  exact chained.linked.slotsFrom_eq chained.length_le

end Chained

end PocketScript.Heap
