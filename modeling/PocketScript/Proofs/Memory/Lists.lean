import PocketScript.Proofs.Memory.Sequences

/-! # What lists come to

Each operation on strings and lists is stated once more as one on lists, with bounds
and conversions of its own, and the checks that are made let through what these
allow. Only the ranges of a sequence that 32 bits cannot count are refused beyond
them.
-/

namespace PocketScript

variable {α : Type}

/-- The byte that stands for a number in a string: what is behind the point is dropped,
    what 32 bits cannot hold is the nearest that they can, and of that the remainder by
    256. What is not a number is zero. -/
def byteFor (number : Float32) : UInt8 :=
  let magnitude : Int := (Binary32.units number / Binary32.unitsPerOne : Nat)
  let whole : Int := if Binary32.isNegative number then -magnitude else magnitude
  if number.isNaN then 0 else UInt8.ofNat (max (-2147483648) (min 2147483647 whole) % 256).toNat

/-- A list with others put in before the item at an index, or at its end. -/
def inserted? (items : List α) (index : Int) (part : List α) : Option (List α) :=
  if 0 ≤ index ∧ index ≤ items.length then some (items.take index.toNat ++ part ++ items.drop index.toNat)
  else none

/-- Whether a range starts with an item of a list and ends in it. -/
abbrev IsRange (start finish : Int) (items : List α) : Prop :=
  0 ≤ start ∧ start < items.length ∧ start ≤ finish ∧ finish ≤ items.length

/-- A list without the items of a range. -/
def without? (items : List α) (start finish : Int) : Option (List α) :=
  if IsRange start finish items then some (items.take start.toNat ++ items.drop finish.toNat) else none

/-- The items of a range. -/
def within? (items : List α) (start finish : Int) : Option (List α) :=
  if IsRange start finish items then some ((items.drop start.toNat).take (finish - start).toNat) else none

/-- A list with another item at an index. -/
def replaced? (items : List α) (index : Nat) (item : α) : Option (List α) :=
  if index < items.length then some (items.take index ++ item :: items.drop (index + 1)) else none

/-- What there is of a list-level result; none of it is a bad index. -/
def Payload.of? (make : List α → Payload) : Option (List α) → Except MemoryError Payload
  | some items => .ok (make items)
  | none => .error .badIndex

namespace Edit

/-- The list-level result of a change in place. -/
def result (memory : Memory) : Edit → Except MemoryError Payload
  | .insertElement (.string cell) index (.number number) => do
    Payload.of? .bytes (inserted? (← memory.string cell) index [byteFor number])
  | .insertElement (.list cell) index element => do
    Payload.of? .values (inserted? (← memory.list cell) index [element])
  | .insertSequence (.string cell) index (.string source) => do
    let part ← memory.string source
    Payload.of? .bytes (inserted? (← memory.string cell) index part)
  | .insertSequence (.list cell) index (.list source) => do
    let part ← memory.list source
    Payload.of? .values (inserted? (← memory.list cell) index part)
  | .removeSlice (.string cell) start finish => do
    Payload.of? .bytes (without? (← memory.string cell) start finish)
  | .removeSlice (.list cell) start finish => do
    Payload.of? .values (without? (← memory.list cell) start finish)
  | .setByte cell index byte => do Payload.of? .bytes (replaced? (← memory.string cell) index byte)
  | .setElement cell index value => do Payload.of? .values (replaced? (← memory.list cell) index value)
  | .insertElement _ _ _ | .insertSequence _ _ _ | .removeSlice _ _ _ => .error .badType

end Edit

namespace Copy

/-- The list-level result of a copy. -/
def result (memory : Memory) : Copy → Except MemoryError Payload
  | .slice (.string cell) start finish => do
    Payload.of? .bytes (within? (← memory.string cell) start finish)
  | .slice (.list cell) start finish => do
    Payload.of? .values (within? (← memory.list cell) start finish)
  | .whole (.string cell) => do return .bytes (← memory.string cell)
  | .whole (.list cell) => do return .values (← memory.list cell)
  | .concatenation left right => do
    let front ← memory.string left
    return .bytes (front ++ (← memory.string right))
  | .slice _ _ _ | .whole _ => .error .badType

end Copy

namespace Memory

/-- A sequence of more items than 32 bits can count. -/
def Overlong (memory : Memory) (sequence : Value) : Prop :=
  ∃ length, memory.length sequence = .ok length ∧ 2147483648 ≤ length

end Memory

/-- The sequence in which a range is looked for. -/
def Edit.ranged? : Edit → Option Value
  | .removeSlice sequence _ _ => some sequence
  | _ => none

def Copy.ranged? : Copy → Option Value
  | .slice sequence _ _ => some sequence
  | _ => none

/-- An outcome is a list-level result, or a range was not found in a sequence that is
    too long. -/
def Memory.Meets (memory : Memory) (ranged? : Option Value) (outcome result : Except MemoryError Payload) : Prop :=
  outcome = result ∨
    outcome = .error .badIndex ∧ (∃ payload, result = .ok payload) ∧ ∃ sequence ∈ ranged?, memory.Overlong sequence

theorem toUInt8_ofInt (whole : Int) : (Int32.ofInt whole).toUInt32.toUInt8 = UInt8.ofNat (whole % 256).toNat := by
  apply UInt8.toNat_inj.mp
  simp [Int32.ofInt]
  omega

/-- The truncation that is made saturates before the remainder is taken. -/
theorem byteOfNumber_eq_byteFor (number : Float32) : Memory.byteOfNumber number = byteFor number := by
  have limit : Nat.pow 2 31 = 2147483648 := rfl
  unfold Memory.byteOfNumber byteFor truncate
  simp only [limit]
  generalize Binary32.units number / Binary32.unitsPerOne = magnitude
  by_cases noNumber : number.isNaN = true
  · rw [if_pos noNumber, if_pos noNumber]
    rfl
  rw [if_neg noNumber, if_neg noNumber]
  by_cases negative : Binary32.isNegative number = true
  · rw [if_pos negative, if_pos negative, toUInt8_ofInt]
    congr 3
    omega
  · rw [if_neg negative, if_neg negative, toUInt8_ofInt]
    congr 3
    omega

namespace Memory

variable {memory : Memory} {cell : Handle}

/-- A range that is found is one. One that is not found is none, or the length of the
    sequence was not counted. -/
theorem checkRange_spec (start finish : Int) (items : List α) :
    checkRange start finish items.length = .ok (start.toNat, finish.toNat) ∧ IsRange start finish items ∨
      checkRange start finish items.length = .error .badIndex ∧
        (IsRange start finish items → 2147483648 ≤ items.length) := by
  have shorter := toInt_ofNat_le items.length
  unfold checkRange
  dsimp only
  split
  · next outside =>
    refine .inr ⟨rfl, fun range => Nat.le_of_not_lt fun short => ?_⟩
    rw [Int32.toInt_ofNat_of_lt short] at outside
    omega
  · exact .inl ⟨rfl, by omega, by omega, by omega, by omega⟩

/-- Where an insertion is checked, it is the one into a list. -/
theorem insertion_eq (items : Except MemoryError (List α)) (index : Int) (part : List α) (make : List α → Payload) :
    (do let items ← items
        let place ← checkPlace index items.length
        return make (spliced items place part)) =
      (do Payload.of? make (inserted? (← items) index part)) := by
  cases items with
  | error error => rfl
  | ok items =>
      simp only [bind, Except.bind]
      unfold checkPlace inserted? spliced
      by_cases inside : 0 ≤ index ∧ index ≤ items.length
      · rw [if_neg (by omega), if_pos inside]
        rfl
      · rw [if_pos (by omega), if_neg inside]
        rfl

/-- Where a range is checked, what is made of it is made of the range of a list. -/
theorem meets_range {sequence : Value} {items : Except MemoryError (List α)}
    (counted : ∀ found, items = .ok found → memory.length sequence = .ok found.length) (start finish : Int)
    (make : List α → Payload) (cut : List α → Nat → Nat → List α) {cut? : List α → Option (List α)}
    (cuts : ∀ items, cut? items = if IsRange start finish items then some (cut items start.toNat finish.toNat) else none) :
    Meets memory (some sequence)
      (do let items ← items
          let range ← checkRange start finish items.length
          return make (cut items range.1 range.2))
      (do Payload.of? make (cut? (← items))) := by
  cases items with
  | error error => exact .inl rfl
  | ok items =>
      simp only [bind, Except.bind, cuts]
      rcases checkRange_spec start finish items with ⟨found, range⟩ | ⟨missed, long⟩
      · rw [found, if_pos range]
        exact .inl rfl
      · rw [missed]
        by_cases range : IsRange start finish items
        · rw [if_pos range]
          exact .inr ⟨rfl, ⟨_, rfl⟩, sequence, rfl, _, counted items rfl, long range⟩
        · rw [if_neg range]
          exact .inl rfl

theorem length_string {bytes : List UInt8} (string : memory.string cell = .ok bytes) :
    memory.length (.string cell) = .ok bytes.length := by
  rw [Memory.length, string]
  rfl

theorem length_list {values : List Value} (list : memory.list cell = .ok values) :
    memory.length (.list cell) = .ok values.length := by
  rw [Memory.length, list]
  rfl

/-- Replacing an item, where there is one. -/
theorem replacement_eq (items : Except MemoryError (List α)) (index : Nat) (item : α) (make : List α → Payload) :
    (do let items ← items
        if index < items.length then return make (items.set index item) else .error .badIndex) =
      (do Payload.of? make (replaced? (← items) index item)) := by
  cases items with
  | error error => rfl
  | ok items =>
      simp only [bind, Except.bind]
      unfold replaced?
      split
      · next inside =>
        rw [List.set_eq_take_append_cons_drop, if_pos inside]
        rfl
      · rfl

theorem without?_eq (start finish : Int) (items : List α) : without? items start finish =
    if IsRange start finish items then some (withoutSlice items start.toNat finish.toNat) else none :=
  rfl

theorem within?_eq (start finish : Int) (items : List α) : within? items start finish =
    if IsRange start finish items then some (slice items start.toNat finish.toNat) else none := by
  unfold within? slice
  split
  · next range =>
    rw [List.drop_take, show (finish - start).toNat = finish.toNat - start.toNat by omega]
  · rfl

/-- What a change in place comes to is the list-level result. -/
theorem meets_edit (memory : Memory) (edit : Edit) :
    Meets memory edit.ranged? (edit.outcome memory) (edit.result memory) := by
  cases edit with
  | insertElement sequence index element =>
      cases sequence with
      | missing | number _ | function _ => exact .inl rfl
      | string cell =>
          cases element with
          | missing | string _ | list _ | function _ => exact .inl rfl
          | number number =>
              refine .inl ((insert_eq (memory.string cell) index).trans ?_)
              rw [byteOfNumber_eq_byteFor]
              exact insertion_eq ..
      | list cell => exact .inl ((insert_eq (memory.list cell) index).trans (insertion_eq ..))
  | insertSequence sequence index other =>
      cases sequence with
      | missing | number _ | function _ => exact .inl rfl
      | string cell =>
          cases other with
          | missing | number _ | list _ | function _ => exact .inl rfl
          | string source => exact .inl (congrArg _ (funext fun part => insertion_eq ..))
      | list cell =>
          cases other with
          | missing | number _ | string _ | function _ => exact .inl rfl
          | list source => exact .inl (congrArg _ (funext fun part => insertion_eq ..))
  | removeSlice sequence start finish =>
      cases sequence with
      | missing | number _ | function _ => exact .inl rfl
      | string cell => exact meets_range (fun _ => length_string) start finish .bytes withoutSlice (without?_eq start finish)
      | list cell => exact meets_range (fun _ => length_list) start finish .values withoutSlice (without?_eq start finish)
  | setByte cell index byte => exact .inl (replacement_eq ..)
  | setElement cell index value => exact .inl (replacement_eq ..)

/-- What a copy comes to is the list-level result. -/
theorem meets_copy (memory : Memory) (copy : Copy) :
    Meets memory copy.ranged? (copy.outcome memory) (copy.result memory) := by
  cases copy with
  | slice sequence start finish =>
      cases sequence with
      | missing | number _ | function _ => exact .inl rfl
      | string cell => exact meets_range (fun _ => length_string) start finish .bytes slice (within?_eq start finish)
      | list cell => exact meets_range (fun _ => length_list) start finish .values slice (within?_eq start finish)
  | whole sequence =>
      cases sequence with
      | missing | number _ | function _ | string _ | list _ => exact .inl rfl
  | concatenation left right => exact .inl rfl

/-- Why an operation that has a list-level result, or an error for one, is refused. -/
inductive Refused (memory : Memory) (ranged? : Option Value) (result : Except MemoryError Payload) :
    MemoryError → Prop where
  | listLevel {error : MemoryError} (same : result = .error error) : Refused memory ranged? result error
  | noRoom (payload : Payload) (there : result = .ok payload) : Refused memory ranged? result .collision
  | uncounted (payload : Payload) (sequence : Value) (there : result = .ok payload) (ranged : ranged? = some sequence)
      (overlong : memory.Overlong sequence) : Refused memory ranged? result .badIndex

theorem Refused.of_meets {ranged? : Option Value} {outcome result : Except MemoryError Payload} {error : MemoryError}
    (meets : Meets memory ranged? outcome result)
    (refused : outcome = .error error ∨ error = .collision ∧ ∃ payload, outcome = .ok payload) :
    Refused memory ranged? result error := by
  rcases meets with rfl | ⟨rfl, ⟨payload, there⟩, sequence, ranged, overlong⟩
  · rcases refused with same | ⟨rfl, payload, there⟩
    · exact .listLevel same
    · exact .noRoom payload there
  · rcases refused with same | ⟨-, _, impossible⟩
    · cases same
      exact .uncounted payload sequence there ranged overlong
    · cases impossible

theorem Meets.ok {ranged? : Option Value} {outcome result : Except MemoryError Payload} {payload : Payload}
    (meets : Meets memory ranged? outcome result) (there : outcome = .ok payload) : result = .ok payload := by
  rcases meets with rfl | ⟨missed, -⟩
  · exact there
  · rw [missed] at there
    cases there

/-- A change through a cell is the one of a list: that is what is read through the cell
    afterwards, and nothing else changed. Or it is refused, and memory is as it was. -/
def EditsList (memory : Memory) (edit : Edit) (cell : Handle) : Prop :=
  MemoryM.Ends edit.run memory (fun _ after => ∃ payload, edit.result memory = .ok payload ∧ memory.Edited cell payload after)
    fun error after => after = memory ∧ memory.Refused edit.ranged? (edit.result memory) error

/-- A copy makes a list: that is what is read through a cell that was not there, and
    nothing else changed. Or it is refused, and what is read through any cell is what it
    was. -/
def CopiesList (memory : Memory) (copy : Copy) : Prop :=
  MemoryM.Ends copy.run memory
    (fun value after => ∃ cell payload, copy.result memory = .ok payload ∧ value = payload.value cell ∧
      memory.heap.contains cell = false ∧ memory.Edited cell payload after)
    fun error after => after.Separate ∧ (∀ other, after.payload other = memory.payload other) ∧
      memory.Refused copy.ranged? (copy.result memory) error

/-- In memory that orderly operations led to, cells own what they stand for,
    every change of a string or list is the one of a list or leaves memory as it
    was, and every new one is in a new cell. -/
theorem sequences_are_lists {size : Nat} (reached : Reached size memory) :
    (∀ cell other object, memory.heap.target? cell = some object → memory.heap.target? other = some object →
      memory.heap.contains object = true → cell = other) ∧
    (∀ (edit : Edit) (cell : Handle), edit.cell? = some cell → memory.EditsList edit cell) ∧
    ∀ copy : Copy, memory.CopiesList copy := by
  have separate := reached.separate
  refine ⟨fun cell other object at_cell at_other there => ?_, fun edit cell named => ?_, fun copy => ?_⟩
  · refine separate.contents.owned cell other object (Heap.target?_eq_some_iff.mp at_cell)
      (Heap.target?_eq_some_iff.mp at_other) ?_
    simpa [Heap.contents, Heap.contains] using there
  · have meets := meets_edit memory edit
    refine (separate.edit edit named).mono ?_ ?_
    · rintro _ after ⟨payload, there, edited⟩
      exact ⟨payload, meets.ok there, edited⟩
    · rintro error after ⟨same, refused⟩
      exact ⟨same, .of_meets meets refused⟩
  · have meets := meets_copy memory copy
    refine (separate.copy copy).mono ?_ ?_
    · rintro value after ⟨cell, payload, there, made⟩
      exact ⟨cell, payload, meets.ok there, made⟩
    · rintro error after ⟨kept, others, refused⟩
      exact ⟨kept, others, .of_meets meets refused⟩

/-- A string, and a list that holds it. -/
def heldString : Memory :=
  ((empty 200).perform (.createString [0x61, 0x62])).perform (.createList [.string (.entry 0 0)])

/-- The string is put into itself, and the list holds it as before. -/
theorem refines_heldString : Reached 200 heldString ∧
    ∃ after, (Edit.insertSequence (.string (.entry 0 0)) 1 (.string (.entry 0 0))).run heldString = .ok () after ∧
      after.payload (.entry 0 0) = .ok (.bytes [0x61, 0x61, 0x62, 0x62]) ∧
      after.payload (.entry 2 0) = .ok (.values [.string (.entry 0 0)]) := by
  have reached : Reached 200 heldString :=
    .perform (.perform .empty (.createString [0x61, 0x62]) trivial) (.createList [.string (.entry 0 0)]) trivial
  have edits := (sequences_are_lists reached).2.1
    (.insertSequence (.string (.entry 0 0)) 1 (.string (.entry 0 0))) (.entry 0 0) rfl
  have result : (Edit.insertSequence (.string (.entry 0 0)) 1 (.string (.entry 0 0))).result heldString =
      .ok (.bytes [0x61, 0x61, 0x62, 0x62]) := by rfl
  unfold EditsList MemoryM.Ends at edits
  cases ran : (Edit.insertSequence (.string (.entry 0 0)) 1 (.string (.entry 0 0))).run heldString with
  | ok _ after =>
      rw [ran] at edits
      obtain ⟨payload, same, edited⟩ := edits
      obtain rfl := Except.ok.inj (result.symm.trans same)
      refine ⟨reached, after, rfl, edited.reads, ?_⟩
      rw [edited.others _ (by decide)]
      rfl
  | error error after => cases ran

end Memory

end PocketScript
