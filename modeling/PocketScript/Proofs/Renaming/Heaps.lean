import PocketScript.Proofs.Heap.Lifetimes

/-! # Heaps alike but for their slots

A heap that was used before hands out other slots than a new one, and under later
generations. The slots of one heap go to slots of the other, each with its own
distance between generations, and the two hand out their vacant slots in the same
order. Every operation keeps two such heaps alike: it comes to the same, but for the
handles.
-/

namespace PocketScript

/-- Where the slots of one heap are in another of the same size. -/
structure Renaming where
  /-- The end of memory. -/
  limit : Nat
  slot : Nat → Nat
  injective : Function.Injective slot
  /-- How many generations later a slot is there. -/
  shift : Nat → UInt32

namespace Renaming

variable (names : Renaming)

def handle : Handle → Handle
  | .dangling => .dangling
  | .entry slot generation => .entry (names.slot slot) (generation + names.shift slot)

def value : Value → Value
  | .string cell => .string (names.handle cell)
  | .list cell => .list (names.handle cell)
  | value => value

def payload : Payload → Payload
  | .target object => .target (names.handle object)
  | .bytes bytes => .bytes bytes
  | .values values => .values (values.map names.value)

def object (object : HeapObject) : HeapObject :=
  { object with payload := names.payload object.payload }

def node (node : HeapNode) : HeapNode :=
  ⟨names.object node.object, node.above.map names.slot, node.below.map names.slot⟩

def gap (gap : Gap) : Gap :=
  { gap with above := gap.above.map names.slot, below := gap.below.map names.slot }

theorem handle_injective : Function.Injective names.handle := by
  intro first second same
  cases first with
  | dangling =>
      cases second with
      | dangling => rfl
      | entry slot generation => cases same
  | entry slot generation =>
      cases second with
      | dangling => cases same
      | entry slot' generation' =>
          obtain ⟨slots, generations⟩ := Handle.entry.inj same
          obtain rfl := names.injective slots
          rw [UInt32.add_left_inj] at generations
          rw [generations]

@[simp]
theorem value_missing : names.value .missing = .missing := rfl

@[simp]
theorem value_number (number : Float32) : names.value (.number number) = .number number := rfl

@[simp]
theorem value_function (header : Address) : names.value (.function header) = .function header := rfl

@[simp]
theorem value_string (cell : Handle) : names.value (.string cell) = .string (names.handle cell) := rfl

@[simp]
theorem value_list (cell : Handle) : names.value (.list cell) = .list (names.handle cell) := rfl

@[simp]
theorem isMissing_value (value : Value) : (names.value value).isMissing = value.isMissing := by
  cases value <;> rfl

@[simp]
theorem cell?_value (value : Value) : (names.value value).cell? = value.cell?.map names.handle := by
  cases value <;> rfl

end Renaming

namespace Heap

variable {names : Renaming} {heap other after after' : Heap} {handle : Handle} {slot size floor : Nat}

/-- The slot that an object goes to after some others, if no slot is given up. -/
def supply (heap : Heap) (index : Nat) : Nat :=
  heap.vacant[index]?.getD (heap.slots.size + (index - heap.vacant.length))

theorem supply_zero (heap : Heap) : heap.supply 0 = heap.nextSlot := by
  cases listed : heap.vacant <;> simp [supply, nextSlot, listed]

theorem supply_occupy (heap : Heap) (node : HeapNode) (index : Nat) :
    (heap.occupy node).2.supply index = heap.supply (index + 1) := by
  rw [supply, supply, vacant_occupy, size_occupy]
  cases listed : heap.vacant with
  | nil => simp [Nat.add_assoc, Nat.add_comm 1 index]
  | cons first rest => simp [Nat.add_sub_add_right]

theorem supply_vacate (heap : Heap) (slot index : Nat) :
    (heap.vacate slot).supply index = if index = 0 then slot else heap.supply (index - 1) := by
  cases index with
  | zero => simp [supply, vacate]
  | succ index => simp [supply, vacate, Nat.add_sub_add_right]

theorem supply_congr (vacant : after.vacant = heap.vacant) (size : after.slots.size = heap.slots.size) (index : Nat) :
    after.supply index = heap.supply index := by
  rw [supply, supply, vacant, size]

theorem generationOf_congr (same : after.generation? slot = heap.generation? slot) :
    after.generationOf slot = heap.generationOf slot := by
  rw [generationOf, generationOf, same]

theorem generationOf_vacate (slot other : Nat) (occupied : ∃ node, heap.node? slot = some node) :
    (heap.vacate slot).generationOf other =
      if slot = other then heap.generationOf other + 1 else heap.generationOf other := by
  rw [generationOf, generation?_vacate]
  split
  · next same =>
    subst same
    obtain ⟨node, occupied⟩ := occupied
    obtain ⟨generation, current⟩ := generation_of_node occupied
    simp [generationOf, current]
  · rfl

theorem generationOf_occupy (node : HeapNode) (slot : Nat) :
    (heap.occupy node).2.generationOf slot = heap.generationOf slot := by
  cases listed : heap.vacant with
  | nil =>
      simp only [generationOf, generation?, occupy, listed, Array.getElem?_push]
      split
      · next same =>
        subst same
        simp
      · rfl
  | cons first rest =>
      simp only [generationOf, generation?, occupy, listed, Array.getElem?_modify]
      split
      · cases heap.slots[slot]? <;> rfl
      · rfl

@[simp]
theorem recentAllocations_occupy (node : HeapNode) :
    (heap.occupy node).2.recentAllocations = heap.recentAllocations := by
  cases listed : heap.vacant <;> simp [occupy, listed]

theorem named?_eq (heap : Heap) (slot : Nat) (generation : UInt32) :
    heap.named? (.entry slot generation) =
      if heap.generationOf slot = generation then (heap.node? slot).map (slot, ·) else none := by
  rw [named?_entry, generationOf]
  cases current : heap.generation? slot with
  | some here => simp
  | none =>
      have empty : heap.node? slot = none := by
        rw [Option.eq_none_iff_forall_ne_some]
        intro node occupied
        obtain ⟨generation, here⟩ := generation_of_node occupied
        simp [current] at here
      simp [empty]

/-- Two heaps with the same objects in slots that go together. -/
structure Matches (names : Renaming) (heap other : Heap) : Prop where
  node? : ∀ slot, other.node? (names.slot slot) = (heap.node? slot).map names.node
  generationOf : ∀ slot, other.generationOf (names.slot slot) = heap.generationOf slot + names.shift slot
  supply : ∀ index, other.supply index = names.slot (heap.supply index)
  highest : other.highest = heap.highest.map names.slot
  lowest : other.lowest = heap.lowest.map names.slot
  limit : other.limit = heap.limit
  recentAllocations : other.recentAllocations = heap.recentAllocations

/-- The heaps are sound, too. -/
structure Renamed (names : Renaming) (heap other : Heap) : Prop extends Matches names heap other where
  wellFormed : heap.WellFormed
  wellFormed' : other.WellFormed
  bounded : heap.limit = names.limit

namespace Matches

theorem named? (alike : Matches names heap other) (handle : Handle) :
    other.named? (names.handle handle) = (heap.named? handle).map (Prod.map names.slot names.node) := by
  cases handle with
  | dangling => rfl
  | entry slot generation =>
      simp only [Renaming.handle, named?_eq, alike.generationOf, UInt32.add_left_inj, alike.node?]
      split
      · cases heap.node? slot <;> rfl
      · rfl

theorem get? (alike : Matches names heap other) (handle : Handle) :
    other.get? (names.handle handle) = (heap.get? handle).map names.object := by
  rw [Heap.get?, Heap.get?, alike.named?, Option.map_map, Option.map_map]
  rfl

theorem handleOf (alike : Matches names heap other) (slot : Nat) :
    other.handleOf (names.slot slot) = names.handle (heap.handleOf slot) := by
  have generation := alike.generationOf slot
  simp only [Heap.generationOf, generation?] at generation
  rw [Heap.handleOf, Heap.handleOf, generation]
  rfl

theorem contains (alike : Matches names heap other) (handle : Handle) :
    other.contains (names.handle handle) = heap.contains handle := by
  rw [Heap.contains, Heap.contains, alike.get?, Option.isSome_map]

theorem target? (alike : Matches names heap other) (handle : Handle) :
    other.target? (names.handle handle) = (heap.target? handle).map names.handle := by
  rw [Heap.target?, Heap.target?, alike.get?]
  cases heap.get? handle with
  | none => rfl
  | some object => cases h : object.payload <;> simp [Renaming.object, Renaming.payload, Payload.target?, h]

theorem canMark (alike : Matches names heap other) (handle : Handle) :
    other.canMark (names.handle handle) = heap.canMark handle := by
  rw [Heap.canMark, Heap.canMark, alike.get?, Option.any_map]
  rfl

theorem boundary (alike : Matches names heap other) : other.boundary = heap.boundary := by
  rw [Heap.boundary, Heap.boundary, alike.lowest, alike.limit]
  cases heap.lowest with
  | none => rfl
  | some slot =>
      simp only [Option.map_some, Option.bind_some, alike.node?]
      cases heap.node? slot <;> rfl

theorem spaceUnder (alike : Matches names heap other) (slot? : Option Nat) :
    other.spaceUnder (slot?.map names.slot) = heap.spaceUnder slot? := by
  cases slot? with
  | none => rw [Option.map_none, Heap.spaceUnder, Heap.spaceUnder, alike.limit]
  | some slot =>
      rw [Option.map_some, Heap.spaceUnder, Heap.spaceUnder, alike.node?]
      cases heap.node? slot <;> rfl

theorem findGap (alike : Matches names heap other) (size count : Nat) (above below : Option Nat) :
    other.findGap size count (above.map names.slot) (below.map names.slot) =
      (heap.findGap size count above below).map names.gap := by
  induction count generalizing above below with
  | zero => rfl
  | succ count ih =>
      rw [Heap.findGap, Heap.findGap, alike.spaceUnder]
      cases heap.spaceUnder above with
      | error error => rfl
      | ok top =>
          cases below with
          | none =>
              simp only [Option.map_none, bind, Except.bind]
              split <;> rfl
          | some slot =>
              simp only [Option.map_some, alike.node?, bind, Except.bind]
              cases heap.node? slot with
              | none => rfl
              | some node =>
                  have top_eq : (names.node node).object.top = node.object.top := rfl
                  simp only [Option.map_some, top_eq]
                  split
                  · rfl
                  · exact ih (some slot) node.below

theorem slotsFrom (alike : Matches names heap other) (count : Nat) (slot? : Option Nat) :
    other.slotsFrom count (slot?.map names.slot) = (heap.slotsFrom count slot?).map names.slot := by
  induction count generalizing slot? with
  | zero => rfl
  | succ count ih =>
      cases slot? with
      | none => rfl
      | some slot =>
          rw [Option.map_some, Heap.slotsFrom, Heap.slotsFrom, alike.node?]
          cases heap.node? slot with
          | none => rfl
          | some node =>
              rw [Option.map_some, List.map_cons, ← ih]
              rfl

theorem modifyNode (alike : Matches names heap other) (slot : Nat) {change change' : HeapNode → HeapNode}
    (same : ∀ node, change' (names.node node) = names.node (change node)) :
    Matches names (heap.modifyNode slot change) (other.modifyNode (names.slot slot) change') := by
  refine ⟨fun found => ?_, fun found => ?_, fun index => ?_, alike.highest, alike.lowest, alike.limit,
    alike.recentAllocations⟩
  · simp only [node?_modifyNode, alike.node?, names.injective.eq_iff]
    split
    · cases heap.node? found <;> simp [same]
    · rfl
  · rw [generationOf_congr (generation?_modifyNode _ _ _ _), generationOf_congr (generation?_modifyNode _ _ _ _),
      alike.generationOf]
  · rw [supply_congr (vacant_modifyNode _ _ _) (size_modifyNode _ _ _), alike.supply,
      supply_congr (vacant_modifyNode _ _ _) (size_modifyNode _ _ _)]

theorem modify (alike : Matches names heap other) (handle : Handle) {change change' : HeapObject → HeapObject}
    (same : ∀ object, change' (names.object object) = names.object (change object)) :
    Matches names (heap.modify handle change) (other.modify (names.handle handle) change') := by
  rw [Heap.modify, Heap.modify, alike.named?]
  cases heap.named? handle with
  | none => exact alike
  | some found =>
      obtain ⟨slot, node⟩ := found
      refine alike.modifyNode slot fun node => ?_
      rw [Renaming.node, Renaming.node, same]

theorem isSome_node? (alike : Matches names heap other) (slot : Nat) :
    (other.node? (names.slot slot)).isSome = (heap.node? slot).isSome := by
  rw [alike.node?, Option.isSome_map]

theorem setBelow (alike : Matches names heap other) (slot? below : Option Nat) :
    Matches names (heap.setBelow slot? below) (other.setBelow (slot?.map names.slot) (below.map names.slot)) := by
  have ends : Matches names { heap with highest := below } { other with highest := below.map names.slot } :=
    ⟨alike.node?, alike.generationOf, alike.supply, rfl, alike.lowest, alike.limit, alike.recentAllocations⟩
  cases slot? with
  | none => exact ends
  | some slot =>
      rw [Option.map_some, Heap.setBelow, Heap.setBelow, Option.filter_some, Option.filter_some, alike.isSome_node?]
      cases (heap.node? slot).isSome with
      | false => exact ends
      | true => exact alike.modifyNode slot fun node => rfl

theorem setAbove (alike : Matches names heap other) (slot? above : Option Nat) :
    Matches names (heap.setAbove slot? above) (other.setAbove (slot?.map names.slot) (above.map names.slot)) := by
  have ends : Matches names { heap with lowest := above } { other with lowest := above.map names.slot } :=
    ⟨alike.node?, alike.generationOf, alike.supply, alike.highest, rfl, alike.limit, alike.recentAllocations⟩
  cases slot? with
  | none => exact ends
  | some slot =>
      rw [Option.map_some, Heap.setAbove, Heap.setAbove, Option.filter_some, Option.filter_some, alike.isSome_node?]
      cases (heap.node? slot).isSome with
      | false => exact ends
      | true => exact alike.modifyNode slot fun node => rfl

theorem nextSlot (alike : Matches names heap other) : other.nextSlot = names.slot heap.nextSlot := by
  rw [← supply_zero, ← supply_zero, alike.supply]

theorem vacate (alike : Matches names heap other) {slot : Nat} {node : HeapNode}
    (occupied : heap.node? slot = some node) :
    Matches names (heap.vacate slot) (other.vacate (names.slot slot)) := by
  have occupied' : other.node? (names.slot slot) = some (names.node node) := by
    rw [alike.node?, occupied]
    rfl
  refine ⟨fun found => ?_, fun found => ?_, fun index => ?_, alike.highest, alike.lowest, alike.limit,
    alike.recentAllocations⟩
  · simp only [node?_vacate, alike.node?, names.injective.eq_iff]
    split <;> rfl
  · simp only [generationOf_vacate _ _ ⟨_, occupied⟩, generationOf_vacate _ _ ⟨_, occupied'⟩,
      alike.generationOf, names.injective.eq_iff]
    split
    · rw [UInt32.add_assoc, UInt32.add_comm _ 1, ← UInt32.add_assoc]
    · rfl
  · rw [supply_vacate, supply_vacate, alike.supply]
    split <;> rfl

theorem deallocate (alike : Matches names heap other) (handle : Handle) :
    Matches names (heap.deallocate handle) (other.deallocate (names.handle handle)) := by
  have named := alike.named? handle
  cases found : heap.named? handle with
  | none =>
      rw [found] at named
      rw [Heap.deallocate, Heap.deallocate, found, named]
      exact alike
  | some entry =>
      obtain ⟨slot, node⟩ := entry
      rw [found] at named
      rw [deallocate_of_named found, deallocate_of_named named]
      exact ((alike.vacate (handleOf_of_named found).2).setBelow node.above node.below).setAbove node.below node.above

end Matches

/-- More steps than there are objects make no difference. -/
theorem findGap_count {above : Option Nat} {order : List Nat} (linked : heap.Linked above order none)
    {count count' : Nat} (enough : order.length < count) (enough' : order.length < count') :
    heap.findGap size count above order.head? = heap.findGap size count' above order.head? := by
  induction order generalizing above count count' with
  | nil =>
      obtain ⟨count, rfl⟩ := Nat.exists_eq_add_one_of_ne_zero (Nat.ne_of_gt enough)
      obtain ⟨count', rfl⟩ := Nat.exists_eq_add_one_of_ne_zero (Nat.ne_of_gt enough')
      rfl
  | cons slot rest ih =>
      obtain ⟨⟨node, occupied, -, toBelow⟩, lower⟩ := linked
      rw [Option.or_none] at toBelow
      obtain ⟨count, rfl⟩ := Nat.exists_eq_add_one_of_ne_zero (Nat.ne_of_gt (Nat.zero_lt_of_lt enough))
      obtain ⟨count', rfl⟩ := Nat.exists_eq_add_one_of_ne_zero (Nat.ne_of_gt (Nat.zero_lt_of_lt enough'))
      have rest_eq := ih lower (Nat.lt_of_succ_lt_succ enough) (Nat.lt_of_succ_lt_succ enough')
      simp only [findGap, List.head?_cons, occupied, toBelow, rest_eq]

/-- The same error, or handles that go together and heaps that are related. -/
inductive Placed (names : Renaming) (related : Heap → Heap → Prop) :
    Except MemoryError (Handle × Heap) → Except MemoryError (Handle × Heap) → Prop where
  | error (error : MemoryError) : Placed names related (.error error) (.error error)
  | ok {handle : Handle} {after after' : Heap} (holds : related after after') :
      Placed names related (.ok (handle, after)) (.ok (names.handle handle, after'))

namespace Matches

theorem occupy (alike : Matches names heap other) (pooled : heap.Pooled) (pooled' : other.Pooled) (node : HeapNode) :
    Matches names (heap.occupy node).2 (other.occupy (names.node node)).2 := by
  refine ⟨fun slot => ?_, fun slot => ?_, fun index => ?_, ?_, ?_, ?_, ?_⟩
  · simp only [node?_occupy _ pooled.within, node?_occupy _ pooled'.within, alike.nextSlot, alike.node?,
      names.injective.eq_iff]
    split <;> rfl
  · rw [generationOf_occupy, generationOf_occupy, alike.generationOf]
  · rw [supply_occupy, supply_occupy, alike.supply]
  · rw [highest_occupy, highest_occupy, alike.highest]
  · rw [lowest_occupy, lowest_occupy, alike.lowest]
  · rw [limit_occupy, limit_occupy, alike.limit]
  · rw [recentAllocations_occupy, recentAllocations_occupy, alike.recentAllocations]

theorem counted (alike : Matches names heap other) : Matches names heap.counted other.counted :=
  ⟨alike.node?, alike.generationOf, alike.supply, alike.highest, alike.lowest, alike.limit,
    congrArg (· + 1) alike.recentAllocations⟩

theorem place (alike : Matches names heap other) (pooled : heap.Pooled) (pooled' : other.Pooled) (gap : Gap)
    (object : HeapObject) :
    (other.place (names.gap gap) (names.object object)).1 = names.handle (heap.place gap object).1 ∧
      Matches names (heap.place gap object).2 (other.place (names.gap gap) (names.object object)).2 := by
  have placed := (((alike.occupy pooled pooled' ⟨object, gap.above, gap.below⟩).setBelow gap.above
    (some heap.nextSlot)).setAbove gap.below (some heap.nextSlot)).counted
  rw [place_eq, place_eq, alike.nextSlot]
  exact ⟨placed.handleOf heap.nextSlot, placed⟩

end Matches

namespace Renamed

theorem pooled (renamed : Renamed names heap other) : heap.Pooled ∧ other.Pooled :=
  ⟨renamed.wellFormed.pooled, renamed.wellFormed'.pooled⟩

theorem search (renamed : Renamed names heap other) (size : Nat) :
    other.findGap size (other.slots.size + 1) none other.highest =
      (heap.findGap size (heap.slots.size + 1) none heap.highest).map names.gap := by
  obtain ⟨chained, -, -⟩ := renamed.wellFormed
  obtain ⟨chained', -, -⟩ := renamed.wellFormed'
  have most := Nat.le_max_left heap.slots.size other.slots.size
  have most' := Nat.le_max_right heap.slots.size other.slots.size
  have few := chained.length_le
  have few' := chained'.length_le
  rw [chained.highest, findGap_count chained.linked (Nat.lt_succ_of_le few)
    (Nat.lt_succ_of_le (Nat.le_trans few most)), ← chained.highest, chained'.highest,
    findGap_count chained'.linked (Nat.lt_succ_of_le few') (Nat.lt_succ_of_le (Nat.le_trans few' most')),
    ← chained'.highest, renamed.highest]
  exact renamed.findGap size _ none heap.highest

theorem withMatches (renamed : Renamed names heap other) (alike : Matches names after after')
    (wellFormed : after.WellFormed) (wellFormed' : after'.WellFormed) (limit : after.limit = heap.limit) :
    Renamed names after after' :=
  ⟨alike, wellFormed, wellFormed', limit.trans renamed.bounded⟩

theorem allocate (renamed : Renamed names heap other) (size : Nat) (payload : Payload) (floor : Nat) :
    Placed names (Renamed names) (heap.allocate size payload floor)
      (other.allocate size (names.payload payload) floor) := by
  have matched : Placed names (Matches names) (heap.allocate size payload floor)
      (other.allocate size (names.payload payload) floor) := by
    simp only [Heap.allocate, renamed.search]
    cases heap.findGap size (heap.slots.size + 1) none heap.highest with
    | error error => exact .error error
    | ok gap =>
        obtain ⟨pooled, pooled'⟩ := renamed.pooled
        have placed := renamed.place pooled pooled' gap ⟨gap.address, size, false, payload⟩
        have object : names.object ⟨gap.address, size, false, payload⟩ =
          ⟨gap.address, size, false, names.payload payload⟩ := rfl
        have address : (names.gap gap).address = gap.address := rfl
        rw [object] at placed
        simp only [Except.map, bind, Except.bind, address]
        split
        · exact .error .collision
        · generalize heap.place gap _ = first, other.place _ _ = second at placed
          obtain ⟨handle, alike⟩ := placed
          obtain ⟨given, after'⟩ := second
          obtain rfl : given = names.handle first.1 := handle
          exact .ok alike
  have kept := renamed.wellFormed.allocate size payload floor
  have kept' := renamed.wellFormed'.allocate size (names.payload payload) floor
  generalize heap.allocate size payload floor = first, other.allocate size (names.payload payload) floor = second
    at matched kept kept'
  cases matched with
  | error error => exact .error error
  | ok alike =>
      obtain refused | ⟨_, _, _, same, placed⟩ := kept
      · cases refused
      obtain refused | ⟨_, _, _, same', placed'⟩ := kept'
      · cases refused
      cases same
      cases same'
      exact .ok (renamed.withMatches alike placed.wellFormed placed'.wellFormed placed.limit)

theorem deallocate (renamed : Renamed names heap other) (handle : Handle) :
    Renamed names (heap.deallocate handle) (other.deallocate (names.handle handle)) :=
  renamed.withMatches (renamed.toMatches.deallocate handle) (renamed.wellFormed.deallocate handle)
    (renamed.wellFormed'.deallocate _) (limit_deallocate heap handle)

/-- A change that moves no object and makes none larger. -/
theorem modify (renamed : Renamed names heap other) (handle : Handle) {change change' : HeapObject → HeapObject}
    (same : ∀ object, change' (names.object object) = names.object (change object))
    (address : ∀ object, (change object).address = object.address)
    (address' : ∀ object, (change' object).address = object.address)
    (smaller : ∀ object, heap.get? handle = some object → (change object).size ≤ object.size) :
    Renamed names (heap.modify handle change) (other.modify (names.handle handle) change') := by
  refine renamed.withMatches (renamed.toMatches.modify handle same) (renamed.wellFormed.modify address smaller)
    (renamed.wellFormed'.modify address' fun object found => ?_) (limit_modify heap handle change)
  rw [renamed.get?] at found
  obtain ⟨before, here, rfl⟩ := Option.map_eq_some_iff.mp found
  rw [same]
  exact smaller before here

theorem setTarget (renamed : Renamed names heap other) (cell object : Handle) :
    Renamed names (heap.setTarget cell object) (other.setTarget (names.handle cell) (names.handle object)) :=
  renamed.modify cell (fun _ => rfl) (fun _ => rfl) (fun _ => rfl) fun _ _ => Nat.le_refl _

theorem setPayload (renamed : Renamed names heap other) (handle : Handle) (payload : Payload) :
    Renamed names (heap.modify handle ({ · with payload }))
      (other.modify (names.handle handle) ({ · with payload := names.payload payload })) :=
  renamed.modify handle (fun _ => rfl) (fun _ => rfl) (fun _ => rfl) fun _ _ => Nat.le_refl _

theorem mark (renamed : Renamed names heap other) (handle : Handle) :
    Renamed names (heap.mark handle) (other.mark (names.handle handle)) :=
  renamed.modify handle (fun _ => rfl) (fun _ => rfl) (fun _ => rfl) fun _ _ => Nat.le_refl _

theorem resize (renamed : Renamed names heap other) (handle : Handle) (size floor : Nat) :
    Placed names (Renamed names) (heap.resize handle size floor) (other.resize (names.handle handle) size floor) := by
  rw [Heap.resize, Heap.resize, renamed.get?]
  cases found : heap.get? handle with
  | none => exact .error .dangling
  | some object =>
      by_cases smaller : size ≤ object.size
      · have smaller' : size ≤ (names.object object).size := smaller
        simp only [Option.map_some, if_pos smaller, if_pos smaller']
        refine .ok (renamed.modify handle (fun _ => rfl) (fun _ => rfl) (fun _ => rfl) fun other here => ?_)
        cases found.symm.trans here
        exact smaller
      · have larger : ¬ size ≤ (names.object object).size := smaller
        have held : placeholder (names.object object).payload (names.handle handle) =
            names.payload (placeholder object.payload handle) := by
          cases h : object.payload <;> simp [Renaming.object, Renaming.payload, placeholder, h]
        simp only [Option.map_some, if_neg smaller, if_neg larger, held]
        have placed := renamed.allocate size (placeholder object.payload handle) floor
        generalize heap.allocate _ _ _ = first, other.allocate _ _ _ = second at placed
        cases placed with
        | error error => exact .error error
        | @ok moved after after' grown => exact .ok ((grown.deallocate handle).setPayload moved object.payload)

theorem order (renamed : Renamed names heap other) : other.order = heap.order.map names.slot := by
  obtain ⟨chained, -, -⟩ := renamed.wellFormed
  obtain ⟨chained', -, -⟩ := renamed.wellFormed'
  have few := Nat.le_trans chained.length_le (Nat.le_max_left heap.slots.size other.slots.size)
  have few' := Nat.le_trans chained'.length_le (Nat.le_max_right heap.slots.size other.slots.size)
  have visited := chained.linked.slotsFrom_eq few
  have visited' := chained'.linked.slotsFrom_eq few'
  rw [← chained.highest] at visited
  rw [← chained'.highest, renamed.highest, renamed.slotsFrom, visited] at visited'
  exact visited'.symm

theorem objects (renamed : Renamed names heap other) :
    other.objects = heap.objects.map (Prod.map names.handle names.object) := by
  rw [Heap.objects, Heap.objects, renamed.order, List.filterMap_map, List.map_filterMap]
  refine List.filterMap_congr fun slot _ => ?_
  simp only [Function.comp_apply, renamed.node?, renamed.handleOf]
  cases heap.node? slot <;> rfl

theorem setMark (renamed : Renamed names heap other) (reachable : Bool) (slot : Nat) :
    Renamed names (heap.setMark reachable slot) (other.setMark reachable (names.slot slot)) :=
  renamed.withMatches (renamed.modifyNode slot fun _ => rfl) (renamed.wellFormed.setMark reachable slot)
    (renamed.wellFormed'.setMark reachable _) rfl

theorem clearMarks (renamed : Renamed names heap other) : Renamed names heap.clearMarks other.clearMarks := by
  rw [Heap.clearMarks, Heap.clearMarks, renamed.order]
  generalize heap.order = slots
  induction slots generalizing heap other with
  | nil => exact renamed
  | cons slot rest ih => exact ih (renamed.setMark false slot)

theorem visit (renamed : Renamed names heap other) (value : Value) :
    Renamed names (heap.visit value).1 (other.visit (names.value value)).1 ∧
      (other.visit (names.value value)).2 = (heap.visit value).2.map names.value := by
  cases value with
  | missing | number _ | function _ => exact ⟨renamed, rfl⟩
  | string cell =>
      simp only [Renaming.value_string, Heap.visit, renamed.target?]
      cases heap.target? cell with
      | none => exact ⟨renamed.mark cell, rfl⟩
      | some object => exact ⟨(renamed.mark cell).mark object, rfl⟩
  | list cell =>
      simp only [Renaming.value_list, Heap.visit, renamed.target?, renamed.canMark]
      split
      · cases heap.target? cell with
        | none => exact ⟨renamed.mark cell, rfl⟩
        | some object =>
            refine ⟨(renamed.mark cell).mark object, ?_⟩
            simp only [Option.map_some, renamed.get?, List.map_reverse]
            cases heap.get? object with
            | none => rfl
            | some found => cases h : found.payload <;> simp [Renaming.object, Renaming.payload, Payload.values?, h]
      · exact ⟨renamed, rfl⟩

theorem markAll (renamed : Renamed names heap other) (pending : List Value) :
    Renamed names (heap.markAll pending) (other.markAll (pending.map names.value)) := by
  induction heap, pending using Heap.markAll.induct generalizing other with
  | case1 heap =>
      rw [List.map_nil, Heap.markAll, Heap.markAll]
      exact renamed
  | case2 heap value rest ih =>
      obtain ⟨visited, more⟩ := renamed.visit value
      rw [List.map_cons, Heap.markAll, Heap.markAll, more, ← List.map_append]
      exact ih visited

theorem remove (renamed : Renamed names heap other) (entries : List (Handle × HeapObject)) :
    Renamed names (heap.remove entries).2 (other.remove (entries.map (Prod.map names.handle names.object))).2 := by
  induction entries generalizing heap other with
  | nil => exact renamed
  | cons entry rest ih =>
      obtain ⟨handle, object⟩ := entry
      rw [List.map_cons, Prod.map, Heap.remove, Heap.remove, renamed.contains]
      split
      · exact ih (renamed.deallocate handle)
      · exact ih renamed

theorem sweep (renamed : Renamed names heap other) : Renamed names heap.sweep.2 other.sweep.2 := by
  obtain ⟨kept, limit, -⟩ := renamed.wellFormed.sweep
  obtain ⟨kept', -⟩ := renamed.wellFormed'.sweep
  refine renamed.withMatches ?_ kept kept' limit
  rw [Heap.sweep, Heap.sweep, renamed.objects, List.filter_map]
  have removed := renamed.remove (heap.objects.filter fun entry => !entry.2.reachable)
  exact ⟨removed.node?, removed.generationOf, removed.supply, removed.highest, removed.lowest, removed.limit, rfl⟩

end Renamed

theorem Pooled.supply_injective (pooled : heap.Pooled) : Function.Injective heap.supply := by
  have inside {index : Nat} (listed : index < heap.vacant.length) :
      heap.supply index = heap.vacant[index] ∧ heap.supply index < heap.slots.size := by
    have here : heap.supply index = heap.vacant[index] := by simp [supply, listed]
    exact ⟨here, here ▸ pooled.within _ (List.getElem_mem listed)⟩
  have outside {index : Nat} (beyond : ¬ index < heap.vacant.length) :
      heap.supply index = heap.slots.size + (index - heap.vacant.length) := by
    simp [supply, Nat.le_of_not_lt beyond]
  intro first second same
  by_cases listed : first < heap.vacant.length
  · obtain ⟨here, below⟩ := inside listed
    by_cases listed' : second < heap.vacant.length
    · rw [here, (inside listed').1] at same
      exact (pooled.nodup.getElem_inj_iff).mp same
    · rw [same, outside listed'] at below
      omega
  · by_cases listed' : second < heap.vacant.length
    · have below := (inside listed').2
      rw [← same, outside listed] at below
      omega
    · rw [outside listed, outside listed'] at same
      omega

/-- A heap that was reset is like a new one, but for slots and generations. -/
theorem exists_renamed_reset (wellFormed : heap.WellFormed) :
    ∃ names : Renaming, names.limit = heap.limit ∧ Renamed names (.empty heap.limit) heap.reset := by
  have empty (slot : Nat) : (Heap.empty heap.limit).node? slot = none := by simp [Heap.empty, node?]
  have generation (slot : Nat) : (Heap.empty heap.limit).generationOf slot = 0 := by
    simp [Heap.empty, generationOf, generation?]
  have supply (index : Nat) : (Heap.empty heap.limit).supply index = index := by simp [Heap.empty, Heap.supply]
  let names : Renaming :=
    { limit := heap.limit
      slot := heap.reset.supply
      injective := wellFormed.reset.pooled.supply_injective
      shift := fun slot => heap.reset.generationOf (heap.reset.supply slot) }
  refine ⟨names, rfl, ⟨fun slot => ?_, fun slot => ?_, fun index => ?_, rfl, rfl, limit_reset heap, rfl⟩,
    .empty heap.limit, wellFormed.reset, rfl⟩
  · rw [node?_reset, empty]
    rfl
  · rw [generation, UInt32.zero_add]
  · rw [supply]

end Heap

end PocketScript
