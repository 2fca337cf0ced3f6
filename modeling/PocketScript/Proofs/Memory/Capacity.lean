import PocketScript.Proofs.Memory.Holding
import PocketScript.Proofs.Memory.Lists

/-! # The capacity of strings and lists

From its creation on, a string or list has room for what it needs and never four times
more, whatever is done to it by insertions and removals and whatever happens to others.
A change moves it only to make room for more; a removal never has to, so it is never
refused for want of space after bytes or values are gone already.
-/

namespace PocketScript

/-- The capacity after a change, from the one before and the bytes that are needed now. -/
def fittedCapacity (capacity room : Nat) : Nat :=
  if capacity < room ∨ room < capacity / 4 then 2 * room - 2 else capacity

theorem lt_fittedCapacity_iff {capacity room : Nat} (least : 2 ≤ room) :
    capacity < fittedCapacity capacity room ↔ capacity < room := by
  unfold fittedCapacity
  split <;> omega

theorem fittedCapacity_le_iff {capacity room : Nat} (least : 2 ≤ room) :
    fittedCapacity capacity room ≤ capacity ↔ room ≤ capacity := by
  rw [← Nat.not_lt, lt_fittedCapacity_iff least, Nat.not_lt]

namespace Payload

variable {payload : Payload}

theorem two_le_room (no_cell : payload.target? = none) : 2 ≤ payload.room := by
  cases payload with
  | target _ => cases no_cell
  | bytes _ | values _ =>
      simp only [room, Memory.stringSize, Memory.listSize]
      omega

end Payload

namespace Holding

/-- There is room for what is needed, and not four times more. -/
structure InBand (holding : Holding) : Prop where
  least : holding.capacity / 4 ≤ holding.payload.room
  most : holding.payload.room ≤ holding.capacity

theorem inBand_of_fitted {holding : Holding} {capacity : Nat} (enough : 2 ≤ holding.payload.room)
    (fitted : holding.capacity = fittedCapacity capacity holding.payload.room) : holding.InBand := by
  unfold fittedCapacity at fitted
  split at fitted
  · exact ⟨by omega, by omega⟩
  · exact ⟨by omega, by omega⟩

end Holding

/-- Whether a change takes elements away. -/
def Edit.IsRemoval : Edit → Prop
  | .removeSlice _ _ _ => True
  | _ => False

namespace Memory

open MemoryM
open Heap (unknown)

variable {memory after : Memory} {cell : Handle} {before now : Holding} {payload payload' : Payload}
  {refused : MemoryError → Prop} {α : Type}

/-- What became of a string or list that was changed. It has the capacity that fits, was
    allocated again exactly if it needs more than it had room for, and is where it was
    otherwise. -/
structure Refit (memory : Memory) (cell : Handle) (before : Holding) (after : Memory) (now : Holding) : Prop where
  holds : after.heap.holding? cell = some now
  capacity : now.capacity = fittedCapacity before.capacity now.payload.room
  allocations : after.heap.allocations =
    memory.heap.allocations + (if before.capacity < now.payload.room then 1 else 0)
  stays : now.payload.room ≤ before.capacity → now.object = before.object ∧ now.address = before.address

/-- A change either refits a string or list, or leaves memory as it was. -/
def Refits (operation : MemoryM Unit) (memory : Memory) (cell : Handle) (before : Holding)
    (refused : MemoryError → Prop) : Prop :=
  Ends operation memory
    (fun _ after => after.heap.Keeping unknown ∧
      ∃ now, now.payload.target? = none ∧ memory.Refit cell before after now)
    fun error after => after = memory ∧ refused error

theorem Refits.look {view : Memory → Except MemoryError α} {next : α → MemoryM Unit}
    (refits : ∀ found, view memory = .ok found → Refits (next found) memory cell before refused)
    (missed : ∀ error, view memory = .error error → refused error) :
    Refits (Memory.look view >>= next) memory cell before refused :=
  Ends.bind (Ends.look refits fun error missing => ⟨rfl, missed error missing⟩)

theorem Refits.throw {error : MemoryError} (holds : refused error) :
    Refits (throw error) memory cell before refused :=
  ⟨rfl, holds⟩

/-- Room is made first, and then a string or list grows. -/
theorem refits_grow (keeping : memory.heap.Keeping unknown) (holds : memory.heap.holding? cell = some before)
    (no_cell : payload.target? = none) {needed grown : Nat} (room : payload.room = needed)
    (double : grown = 2 * needed - 2) :
    Refits (do resizePayload cell needed grown; setPayload cell payload) memory cell before fun _ => True := by
  subst room double
  have least := Payload.two_le_room no_cell
  refine Ends.bind ((keeping_resizePayload keeping rfl holds _ _).mono ?_ ?_)
  · rintro _ middle ⟨held, kept, holds', -, capacity, allocations, stays⟩
    change held.capacity = fittedCapacity before.capacity payload.room at capacity
    simp only [capacity, lt_fittedCapacity_iff least, fittedCapacity_le_iff least] at allocations stays
    refine (keeping_setPayload kept rfl holds' no_cell).mono ?_ fun _ _ impossible => impossible.elim
    rintro _ after ⟨kept', holds'', same⟩
    exact ⟨kept', _, no_cell, holds'', capacity, same.trans allocations, stays⟩
  · rintro error after ⟨-, rfl, -⟩
    exact ⟨rfl, trivial⟩

/-- A string or list shrinks first, and then room is given up. That it fitted before is why
    this is not refused. -/
theorem refits_shrink (keeping : memory.heap.Keeping unknown) (holds : memory.heap.holding? cell = some before)
    (no_cell : payload.target? = none) (fits : payload.room ≤ before.capacity) {needed grown : Nat}
    (room : payload.room = needed) (double : grown = 2 * needed - 2) :
    Refits (do setPayload cell payload; resizePayload cell needed grown) memory cell before refused := by
  subst room double
  have least := Payload.two_le_room no_cell
  refine Ends.bind ((keeping_setPayload keeping rfl holds no_cell).mono ?_ fun _ _ impossible => impossible.elim)
  rintro _ middle ⟨kept, holds', same⟩
  refine (keeping_resizePayload kept rfl holds' _ _).mono ?_ ?_
  · rintro _ after ⟨now, kept', holds'', payload_eq, capacity, allocations, stays⟩
    change now.capacity = fittedCapacity before.capacity payload.room at capacity
    simp only [capacity, lt_fittedCapacity_iff least, fittedCapacity_le_iff least] at allocations stays
    have held : now.payload = payload := payload_eq
    refine ⟨kept', now, held ▸ no_cell, holds'', ?_, ?_, ?_⟩
    · rw [capacity, held]
    · rw [allocations, same, held]
    · rw [held]
      exact stays
  · rintro error after ⟨-, -, larger, outside⟩
    simp only at larger outside
    omega

/-- A change that keeps the length. -/
theorem refits_set (keeping : memory.heap.Keeping unknown) (holds : memory.heap.holding? cell = some before)
    (inBand : before.InBand) (no_cell : payload.target? = none) (room : payload.room = before.payload.room) :
    Refits (setPayload cell payload) memory cell before refused := by
  obtain ⟨least, most⟩ := inBand
  refine (keeping_setPayload keeping rfl holds no_cell).mono ?_ fun _ _ impossible => impossible.elim
  rintro _ after ⟨kept, holds', same⟩
  refine ⟨kept, { before with payload }, no_cell, holds', ?_, ?_, fun _ => ⟨rfl, rfl⟩⟩
  · simp only [fittedCapacity, room]
    rw [if_neg (by omega)]
  · rw [same, room, if_neg (by omega), Nat.add_zero]

/-- How elements are read and held, how many bytes they need, and the capacity they get
    when they are moved. -/
structure Elements (α : Type) where
  read (memory : Memory) (cell : Handle) : Except MemoryError (List α)
  hold (items : List α) : Payload
  size (length : Nat) : Nat
  grown (length : Nat) : Nat

/-- What strings of bytes and lists of values have in common. -/
structure Elements.Lawful (elements : Elements α) : Prop where
  no_cell (items : List α) : (elements.hold items).target? = none
  room (items : List α) : (elements.hold items).room = elements.size items.length
  double (length : Nat) : elements.grown length = 2 * elements.size length - 2
  size_le {length length' : Nat} (le : length ≤ length') : elements.size length ≤ elements.size length'
  payload {memory : Memory} {cell : Handle} {items : List α} (found : elements.read memory cell = .ok items) :
    memory.payload cell = .ok (elements.hold items)
  not_collision (memory : Memory) (cell : Handle) : elements.read memory cell ≠ .error .collision

/-- No read is refused for want of space. -/
theorem payload_bind_ne_collision {view : Payload → Except MemoryError α}
    (never : ∀ payload, view payload ≠ .error .collision) (memory : Memory) (cell : Handle) :
    (memory.payload cell >>= view) ≠ .error .collision := by
  simp only [Memory.payload, bind, Except.bind]
  cases (memory.heap.target? cell).bind memory.heap.get? with
  | none => simp
  | some object => exact never object.payload

/-- Bytes in strings. -/
def stringElements : Elements UInt8 where
  read := Memory.string
  hold := .bytes
  size := stringSize
  grown := grownStringSize

theorem lawful_stringElements : stringElements.Lawful where
  no_cell _ := rfl
  room _ := rfl
  double length := by
    simp only [stringElements, stringSize, grownStringSize]
    omega
  size_le le := by
    simp only [stringElements, stringSize]
    omega
  payload found := string_eq_ok_iff.mp found
  not_collision := payload_bind_ne_collision fun payload => by cases payload <;> simp

/-- Values in lists. -/
def listElements : Elements Value where
  read := Memory.list
  hold := .values
  size := listSize
  grown := grownListSize

theorem lawful_listElements : listElements.Lawful where
  no_cell _ := rfl
  room _ := rfl
  double length := by
    simp only [listElements, listSize, grownListSize, Value.size]
    omega
  size_le le := by
    simp only [listElements, listSize, Value.size]
    omega
  payload found := list_eq_ok_iff.mp found
  not_collision := payload_bind_ne_collision fun payload => by cases payload <;> simp

theorem checkRange_ne_collision (start finish : Int) (length : Nat) :
    checkRange start finish length ≠ .error .collision := by
  rw [checkRange]
  split <;> simp

section Elements

variable {elements : Elements α} {items : List α}

theorem Elements.Lawful.of_holding (lawful : elements.Lawful) (holds : memory.heap.holding? cell = some before)
    (found : elements.read memory cell = .ok items) : before.payload = elements.hold items :=
  Except.ok.inj ((payload_of_holding holds).symm.trans (lawful.payload found))

theorem length_spliced {place : Nat} (inside : place ≤ items.length) (part : List α) :
    (spliced items place part).length = items.length + part.length := by
  simp only [spliced, List.length_append, List.length_take, List.length_drop]
  omega

theorem length_withoutSlice {range : Nat × Nat} (within : range.1 ≤ range.2 ∧ range.2 ≤ items.length) :
    (withoutSlice items range.1 range.2).length = items.length - (range.2 - range.1) := by
  simp only [withoutSlice, List.length_append, List.length_take, List.length_drop]
  omega

theorem refits_insert (lawful : elements.Lawful) (keeping : memory.heap.Keeping unknown)
    (holds : memory.heap.holding? cell = some before) (index : Int) (part : List α) :
    Refits (do
      let items ← Memory.look (elements.read · cell)
      let place ← require (checkPlace index items.length)
      resizePayload cell (elements.size (items.length + part.length)) (elements.grown (items.length + part.length))
      setPayload cell (elements.hold (spliced items place part))) memory cell before fun _ => True := by
  refine .look (fun items _ => .look (fun place checked => ?_) fun _ _ => trivial) fun _ _ => trivial
  refine refits_grow keeping holds (lawful.no_cell _) ?_ (lawful.double _)
  rw [lawful.room, length_spliced (checkPlace_le checked)]

theorem refits_remove (lawful : elements.Lawful) (keeping : memory.heap.Keeping unknown)
    (holds : memory.heap.holding? cell = some before) (most : before.payload.room ≤ before.capacity)
    (start finish : Int) :
    Refits (do
      let items ← Memory.look (elements.read · cell)
      let range ← require (checkRange start finish items.length)
      setPayload cell (elements.hold (withoutSlice items range.1 range.2))
      resizePayload cell (elements.size (items.length - (range.2 - range.1)))
        (elements.grown (items.length - (range.2 - range.1)))) memory cell before (· ≠ .collision) := by
  refine .look (fun items found => .look (fun range checked => ?_) fun error missed => ?_) fun error missed => ?_
  · have room : (elements.hold (withoutSlice items range.1 range.2)).room =
        elements.size (items.length - (range.2 - range.1)) := by
      rw [lawful.room, length_withoutSlice (checkRange_le checked)]
    refine refits_shrink keeping holds (lawful.no_cell _) ?_ room (lawful.double _)
    rw [lawful.of_holding holds found, lawful.room] at most
    exact room.trans_le ((lawful.size_le (Nat.sub_le _ _)).trans most)
  · rintro rfl
    exact checkRange_ne_collision _ _ _ missed
  · rintro rfl
    exact lawful.not_collision _ _ missed

end Elements

theorem Refits.mono {refused' : MemoryError → Prop} {operation : MemoryM Unit}
    (refits : Refits operation memory cell before refused) (weaker : ∀ error, refused error → refused' error) :
    Refits operation memory cell before refused' :=
  Ends.mono refits (fun _ _ done => done) fun error _ same => ⟨same.1, weaker error same.2⟩

/-- Every change of a string or list in place refits it, or leaves memory as it was; a
    removal is not refused for want of space. -/
theorem refits_edit (keeping : memory.heap.Keeping unknown) (holds : memory.heap.holding? cell = some before)
    (inBand : before.InBand) (edit : Edit) (named : edit.cell? = some cell) :
    Refits edit.run memory cell before fun error => edit.IsRemoval → error ≠ .collision := by
  cases edit with
  | insertElement sequence index element =>
      cases sequence with
      | missing | number _ | function _ => cases named
      | string other =>
          obtain rfl := Option.some.inj named
          cases element with
          | missing | string _ | list _ | function _ => exact .throw fun impossible => impossible.elim
          | number number =>
              exact (refits_insert lawful_stringElements keeping holds index _).mono
                fun _ _ impossible => impossible.elim
      | list other =>
          obtain rfl := Option.some.inj named
          exact (refits_insert lawful_listElements keeping holds index _).mono fun _ _ impossible => impossible.elim
  | insertSequence sequence index other =>
      cases sequence with
      | missing | number _ | function _ => cases named
      | string target =>
          obtain rfl := Option.some.inj named
          cases other with
          | missing | number _ | list _ | function _ => exact .throw fun impossible => impossible.elim
          | string source =>
              refine .look (fun part _ => ?_) fun _ _ impossible => impossible.elim
              exact (refits_insert lawful_stringElements keeping holds index part).mono
                fun _ _ impossible => impossible.elim
      | list target =>
          obtain rfl := Option.some.inj named
          cases other with
          | missing | number _ | string _ | function _ => exact .throw fun impossible => impossible.elim
          | list source =>
              refine .look (fun part _ => ?_) fun _ _ impossible => impossible.elim
              exact (refits_insert lawful_listElements keeping holds index part).mono
                fun _ _ impossible => impossible.elim
  | removeSlice sequence start finish =>
      cases sequence with
      | missing | number _ | function _ => cases named
      | string target =>
          obtain rfl := Option.some.inj named
          exact (refits_remove lawful_stringElements keeping holds inBand.most start finish).mono fun _ other _ => other
      | list target =>
          obtain rfl := Option.some.inj named
          exact (refits_remove lawful_listElements keeping holds inBand.most start finish).mono fun _ other _ => other
  | setByte target index byte =>
      obtain rfl := Option.some.inj named
      refine .look (fun bytes string => ?_) fun _ _ impossible => impossible.elim
      split
      · have held : before.payload = .bytes bytes := lawful_stringElements.of_holding holds string
        refine refits_set keeping holds inBand rfl ?_
        rw [held, Payload.room, Payload.room, List.length_set]
      · exact .throw fun impossible => impossible.elim
  | setElement target index value =>
      obtain rfl := Option.some.inj named
      refine .look (fun values list => ?_) fun _ _ impossible => impossible.elim
      split
      · have held : before.payload = .values values := lawful_listElements.of_holding holds list
        refine refits_set keeping holds inBand rfl ?_
        rw [held, Payload.room, Payload.room, List.length_set]
      · exact .throw fun impossible => impossible.elim

/-- Memory of a size, and what can become of it by operations on strings, lists, scopes and
    roots and by collections. -/
inductive Managed (size : Nat) : Memory → Prop where
  | empty : Managed size (.empty size)
  | perform {memory : Memory} (managed : Managed size memory) (operation : MemoryOperation)
      (ordinary : ¬ operation.IsRaw) : Managed size (memory.perform operation)

/-- Memory from when a string or list was created in a cell, and what can become of it while
    the cell is there and nothing but changes of its contents is done to it. -/
inductive Watched (size : Nat) (cell : Handle) : Memory → Prop where
  | string {memory after : Memory} (managed : Managed size memory) (bytes : List UInt8)
      (created : createString bytes memory = .ok cell after) : Watched size cell after
  | list {memory after : Memory} (managed : Managed size memory) (values : List Value)
      (created : createList values memory = .ok cell after) : Watched size cell after
  | perform {memory : Memory} (watched : Watched size cell memory) (operation : MemoryOperation)
      (ordinary : ¬ operation.IsRaw) (unfitted : operation.fitted? ≠ some cell)
      (left : (memory.perform operation).heap.contains cell = true) :
      Watched size cell (memory.perform operation)

variable {size : Nat}

theorem Managed.keeping (managed : Managed size memory) : memory.heap.Keeping unknown := by
  induction managed with
  | empty =>
      have separate := separate_empty size
      exact ⟨separate.heap, separate.contents, fun _ _ absent => by cases absent⟩
  | perform _ operation ordinary ih =>
      exact keeping_perform ih ordinary (fun _ _ => rfl) (fun _ _ _ _ => rfl) fun _ absent => by cases absent

/-- What is known if only one cell is watched. -/
def only (cell : Handle) (holding : Holding) : Handle → Option Holding :=
  fun other => if other = cell then some holding else none

theorem keeping_only (keeping : memory.heap.Keeping unknown) (holds : memory.heap.holding? cell = some before) :
    memory.heap.Keeping (only cell before) := by
  refine ⟨keeping.wellFormed, keeping.separate, fun other holding is_known => ?_⟩
  unfold only at is_known
  split at is_known
  · next same => rw [same, holds, is_known]
  · cases is_known

theorem only_of_ne {other : Handle} (different : other ≠ cell) : only cell before other = none :=
  if_neg different

/-- The cell stands for a string or list that has a fitting capacity. -/
structure Fits (cell : Handle) (holding : Holding) (memory : Memory) : Prop where
  keeping : memory.heap.Keeping unknown
  holds : memory.heap.holding? cell = some holding
  no_cell : holding.payload.target? = none
  inBand : holding.InBand

theorem fits_created (managed : Managed size memory) (payload : Payload) (no_cell : payload.target? = none)
    (created : createSequence payload.room payload memory = .ok cell after) : ∃ holding, Fits cell holding after := by
  have creates : Ends (createSequence payload.room payload) memory _ _ :=
    keeping_createSequence managed.keeping no_cell
  unfold Ends at creates
  rw [created] at creates
  obtain ⟨keeping, holding, holds, capacity, held⟩ := creates
  refine ⟨holding, keeping, holds, held ▸ no_cell, ?_, ?_⟩
  · rw [capacity, held]
    omega
  · rw [capacity, held]

/-- A change of what a cell stands for leaves it fitting. -/
theorem Fits.edit (fits : Fits cell before memory) (edit : Edit) (named : edit.cell? = some cell) :
    ∃ now, Fits cell now (memory.after edit.run) := by
  have fitting : Ends edit.run memory (fun _ after => ∃ now, Fits cell now after)
      fun _ after => ∃ now, Fits cell now after := by
    refine Ends.mono (refits_edit fits.keeping fits.holds fits.inBand edit named) ?_ ?_
    · rintro _ after ⟨keeping, now, no_cell, refit⟩
      exact ⟨now, keeping, refit.holds, no_cell,
        Holding.inBand_of_fitted (Payload.two_le_room no_cell) refit.capacity⟩
    · rintro error after ⟨rfl, -⟩
      exact ⟨before, fits⟩
  exact after_of_ends fitting

/-- An operation that neither changes what a cell stands for nor fits its capacity leaves the
    object behind it where and as it is. -/
theorem Fits.other (fits : Fits cell before memory) {operation : MemoryOperation} (ordinary : ¬ operation.IsRaw)
    (unfitted : operation.fitted? ≠ some cell)
    (unedited : ∀ edit, operation.edit? = some edit → edit.cell? ≠ some cell)
    (left : (memory.perform operation).heap.contains cell = true) : Fits cell before (memory.perform operation) := by
  have kept := keeping_perform (keeping_only fits.keeping fits.holds) ordinary
    (fun other fitted => only_of_ne fun same => unfitted (same ▸ fitted))
    (fun edit other is_edit named => only_of_ne fun same => unedited edit is_edit (same ▸ named))
    fun other is_known => ?_
  · exact ⟨kept.forget, kept.known cell before (if_pos rfl), fits.no_cell, fits.inBand⟩
  · by_cases same : other = cell
    · rwa [same]
    · rw [only_of_ne same] at is_known
      cases is_known

/-- What is kept while a string or list is watched. -/
theorem Watched.fits (watched : Watched size cell memory) : ∃ holding, Fits cell holding memory := by
  induction watched with
  | string managed bytes created => exact fits_created managed (.bytes bytes) rfl created
  | list managed values created => exact fits_created managed (.values values) rfl created
  | perform watched operation ordinary unfitted left ih =>
      obtain ⟨holding, fits⟩ := ih
      by_cases own : ∃ edit, operation.edit? = some edit ∧ edit.cell? = some cell
      · obtain ⟨edit, is_edit, named⟩ := own
        rw [MemoryOperation.perform_of_edit is_edit]
        exact fits.edit edit named
      · have unedited (edit : Edit) (is_edit : operation.edit? = some edit) : edit.cell? ≠ some cell :=
          fun named => own ⟨edit, is_edit, named⟩
        exact ⟨holding, fits.other ordinary unfitted unedited left⟩

/-- From its creation on, whatever else happens, a string or list has room for what it
    needs and not four times more. A change of it gives it the capacity that fits, as one
    more allocation exactly if it needs more than it had room for, and at its place
    otherwise; if it is refused, memory is as it was, and a removal is not refused for want
    of space. All other operations leave it where and as it is. -/
theorem capacity_in_band (watched : Watched size cell memory) :
    ∃ before, memory.heap.holding? cell = some before ∧ before.payload.target? = none ∧
      memory.capacity cell = .ok before.capacity ∧ memory.payload cell = .ok before.payload ∧
      before.capacity / 4 ≤ before.payload.room ∧ before.payload.room ≤ before.capacity ∧
      (∀ edit : Edit, edit.cell? = some cell →
        Ends edit.run memory
          (fun _ after => ∃ now, memory.Refit cell before after now ∧ now.payload.target? = none ∧
            after.capacity cell = .ok now.capacity ∧ after.payload cell = .ok now.payload)
          fun error after => after = memory ∧ (edit.IsRemoval → error ≠ .collision)) ∧
      ∀ operation : MemoryOperation, ¬ operation.IsRaw → operation.fitted? ≠ some cell →
        (∀ edit, operation.edit? = some edit → edit.cell? ≠ some cell) →
        (memory.perform operation).heap.contains cell = true →
        (memory.perform operation).heap.holding? cell = some before := by
  obtain ⟨before, fits⟩ := watched.fits
  have ⟨keeping, holds, no_cell, inBand⟩ := fits
  refine ⟨before, holds, no_cell, capacity_of_holding holds, payload_of_holding holds, inBand.least, inBand.most,
    fun edit named => ?_, fun operation ordinary unfitted unedited left => ?_⟩
  · refine Ends.mono (refits_edit keeping holds inBand edit named) ?_ fun _ _ same => same
    rintro _ after ⟨-, now, no_cell', refit⟩
    exact ⟨now, refit, no_cell', capacity_of_holding refit.holds, payload_of_holding refit.holds⟩
  · exact (fits.other ordinary unfitted unedited left).holds

/-- A string of two bytes in a list is put into itself: it needs seven bytes then and gets
    twelve. -/
theorem capacity_in_band_heldString : Watched 200 (.entry 0 0) heldString ∧
    ∃ after, (Edit.insertSequence (.string (.entry 0 0)) 1 (.string (.entry 0 0))).run heldString = .ok () after ∧
      after.capacity (.entry 0 0) = .ok 12 ∧ after.heap.allocations = heldString.heap.allocations + 1 := by
  have watched : Watched 200 (.entry 0 0) heldString :=
    .perform (.string .empty [0x61, 0x62] rfl) (.createList [.string (.entry 0 0)]) not_false nofun rfl
  obtain ⟨before, -, -, capacity, -, -, -, edits, -⟩ := capacity_in_band watched
  have refits := edits (.insertSequence (.string (.entry 0 0)) 1 (.string (.entry 0 0))) rfl
  obtain ⟨after, ran, held⟩ : ∃ after,
      (Edit.insertSequence (.string (.entry 0 0)) 1 (.string (.entry 0 0))).run heldString = .ok () after ∧
        after.payload (.entry 0 0) = .ok (.bytes [0x61, 0x61, 0x62, 0x62]) := ⟨_, rfl, rfl⟩
  unfold Ends at refits
  rw [ran] at refits
  obtain ⟨now, refit, -, capacity', held'⟩ := refits
  have five : before.capacity = 5 := Except.ok.inj (capacity.symm.trans rfl)
  have needs : now.payload.room = 7 := by
    rw [Except.ok.inj (held'.symm.trans held)]
    rfl
  refine ⟨watched, after, ran, ?_, ?_⟩
  · rw [capacity', refit.capacity, five, needs]
    rfl
  · rw [refit.allocations, five, needs]
    rfl

end Memory

end PocketScript
