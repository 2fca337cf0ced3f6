import PocketScript.Proofs.Memory.Separation

/-! # Strings and lists are lists

What is read through a cell changes as a list does, and nothing else changes
with it: the cell stays the same, the other cells read what they did, and an
operation that is refused leaves memory as it was.
-/

namespace PocketScript

/-- A change of one string or list in place. -/
inductive Edit where
  | insertElement (sequence : Value) (index : Int) (element : Value)
  | insertSequence (sequence : Value) (index : Int) (other : Value)
  | removeSlice (sequence : Value) (start finish : Int)
  | setByte (cell : Handle) (index : Nat) (byte : UInt8)
  | setElement (cell : Handle) (index : Nat) (value : Value)

/-- A new string or list made of others. -/
inductive Copy where
  | slice (sequence : Value) (start finish : Int)
  | whole (sequence : Value)
  | concatenation (left right : Handle)

namespace Edit

open Memory

def run : Edit → MemoryM Unit
  | .insertElement sequence index element => Memory.insertElement sequence index element
  | .insertSequence sequence index other => Memory.insertSequence sequence index other
  | .removeSlice sequence start finish => Memory.removeSlice sequence start finish
  | .setByte cell index byte => Memory.setByte cell index byte
  | .setElement cell index value => Memory.setElement cell index value

/-- The cell of the string or list that is changed. -/
def cell? : Edit → Option Handle
  | .insertElement sequence _ _ | .insertSequence sequence _ _ | .removeSlice sequence _ _ => sequence.cell?
  | .setByte cell _ _ | .setElement cell _ _ => some cell

/-- What is read through the cell afterwards, given the checks that are made. -/
def outcome (memory : Memory) : Edit → Except MemoryError Payload
  | .insertElement (.string cell) index (.number number) => do
    let bytes ← memory.string cell
    let place ← checkPlace index bytes.length
    return .bytes (bytes.insertIdx place (byteOfNumber number))
  | .insertElement (.list cell) index element => do
    let values ← memory.list cell
    let place ← checkPlace index values.length
    return .values (values.insertIdx place element)
  | .insertSequence (.string cell) index (.string source) => do
    let part ← memory.string source
    let bytes ← memory.string cell
    let place ← checkPlace index bytes.length
    return .bytes (bytes.take place ++ part ++ bytes.drop place)
  | .insertSequence (.list cell) index (.list source) => do
    let part ← memory.list source
    let values ← memory.list cell
    let place ← checkPlace index values.length
    return .values (values.take place ++ part ++ values.drop place)
  | .removeSlice (.string cell) start finish => do
    let bytes ← memory.string cell
    let range ← checkRange start finish bytes.length
    return .bytes (bytes.take range.1 ++ bytes.drop range.2)
  | .removeSlice (.list cell) start finish => do
    let values ← memory.list cell
    let range ← checkRange start finish values.length
    return .values (values.take range.1 ++ values.drop range.2)
  | .setByte cell index byte => do
    let bytes ← memory.string cell
    if index < bytes.length then return .bytes (bytes.set index byte) else .error .badIndex
  | .setElement cell index value => do
    let values ← memory.list cell
    if index < values.length then return .values (values.set index value) else .error .badIndex
  | .insertElement _ _ _ | .insertSequence _ _ _ | .removeSlice _ _ _ => .error .badType

/-- What is no string or list is not changed. -/
theorem run_of_unnamed {memory : Memory} (edit : Edit) (unnamed : edit.cell? = none) :
    edit.run memory = .error .badType memory := by
  cases edit with
  | insertElement sequence _ _ | insertSequence sequence _ _ | removeSlice sequence _ _ =>
      cases sequence with
      | missing | number _ | function _ => rfl
      | string _ | list _ => cases unnamed
  | setByte _ _ _ | setElement _ _ _ => cases unnamed

end Edit

namespace Copy

open Memory

def run : Copy → MemoryM Value
  | .slice sequence start finish => Memory.copySlice sequence start finish
  | .whole sequence => Memory.copySequence sequence
  | .concatenation left right => Memory.concatenate left right

/-- What is read through the new cell, given the checks that are made. -/
def outcome (memory : Memory) : Copy → Except MemoryError Payload
  | .slice (.string cell) start finish => do
    let bytes ← memory.string cell
    let range ← checkRange start finish bytes.length
    return .bytes ((bytes.take range.2).drop range.1)
  | .slice (.list cell) start finish => do
    let values ← memory.list cell
    let range ← checkRange start finish values.length
    return .values ((values.take range.2).drop range.1)
  | .whole (.string cell) => do return .bytes (← memory.string cell)
  | .whole (.list cell) => do return .values (← memory.list cell)
  | .concatenation left right => do return .bytes ((← memory.string left) ++ (← memory.string right))
  | .slice _ _ _ | .whole _ => .error .badType

end Copy

/-- The value that is a payload behind a cell. -/
def Payload.value (cell : Handle) : Payload → Value
  | .target _ => .missing
  | .bytes _ => .string cell
  | .values _ => .list cell

namespace Memory

open MemoryM

variable {memory after : Memory} {cell : Handle} {payload payload' : Payload} {α β : Type}

theorem insertIdx_eq_spliced {items : List α} {index : Nat} (inside : index ≤ items.length) (item : α) :
    items.insertIdx index item = spliced items index [item] := by
  induction items generalizing index with
  | nil =>
      obtain rfl : index = 0 := by simpa using inside
      rfl
  | cons first rest ih =>
      cases index with
      | zero => rfl
      | succ index =>
          rw [List.insertIdx_succ_cons, ih (by simpa using inside)]
          rfl

theorem checkPlace_le {index : Int} {length place : Nat} (checked : checkPlace index length = .ok place) :
    place ≤ length := by
  unfold checkPlace at checked
  split at checked
  · cases checked
  · obtain rfl := Except.ok.inj checked
    omega

theorem insert_eq (items : Except MemoryError (List α)) (index : Int) {make : List α → Payload} {item : α} :
    (do let items ← items
        let place ← checkPlace index items.length
        return make (items.insertIdx place item)) =
      (do let items ← items
          let place ← checkPlace index items.length
          return make (spliced items place [item])) := by
  cases items with
  | error error => rfl
  | ok items =>
      cases checked : checkPlace index items.length with
      | error error => simp [bind, Except.bind, checked]
      | ok place => simp [bind, Except.bind, checked, insertIdx_eq_spliced (checkPlace_le checked)]

/-- A length that 32 bits cannot count is taken for a smaller one. -/
theorem toInt_ofNat_le (length : Nat) : (Int32.ofNat length).toInt ≤ length := by
  rw [Int32.toInt_ofNat', Int.bmod_def, show Int32.size = 4294967296 from rfl]
  omega

theorem checkRange_le {start finish : Int} {length : Nat} {range : Nat × Nat}
    (checked : checkRange start finish length = .ok range) : range.1 ≤ range.2 ∧ range.2 ≤ length := by
  have shorter := toInt_ofNat_le length
  unfold checkRange at checked
  dsimp only at checked
  split at checked
  · cases checked
  · obtain rfl := Except.ok.inj checked
    simp only
    omega

/-- An operation on a cell comes to a result, or leaves memory as it was: with
    the error that the result is, or since there is no room for it. -/
def Refines (operation : MemoryM Unit) (memory : Memory) (cell : Handle) (result : Except MemoryError Payload) :
    Prop :=
  Ends operation memory (fun _ after => ∃ payload, result = .ok payload ∧ memory.Edited cell payload after)
    fun error after => after = memory ∧ (result = .error error ∨ error = .collision ∧ ∃ payload, result = .ok payload)

theorem Refines.look {view : Memory → Except MemoryError α} {next : α → MemoryM Unit}
    {rest : α → Except MemoryError Payload}
    (refines : ∀ found, view memory = .ok found → Refines (next found) memory cell (rest found)) :
    Refines (Memory.look view >>= next) memory cell (view memory >>= rest) := by
  refine Ends.bind (Ends.look (fun found seen => ?_) fun error missed => ?_)
  · rw [seen]
    exact refines found seen
  · rw [missed]
    exact ⟨rfl, .inl rfl⟩

theorem Refines.throw (error : MemoryError) : Refines (throw error) memory cell (.error error) :=
  ⟨rfl, .inl rfl⟩

namespace Separate

/-- Room is made before a string or list grows. -/
theorem grow (separate : memory.Separate) (reads : memory.payload cell = .ok payload) {needed grown : Nat}
    (room : payload.room ≤ needed) (room' : payload'.room ≤ needed) (enough : needed ≤ grown)
    (no_cell : payload'.target? = none) :
    Refines (do Memory.resizePayload cell needed grown; Memory.setPayload cell payload') memory cell
      (.ok payload') := by
  obtain ⟨size, capacity, -⟩ := separate.exists_capacity reads
  refine Ends.bind ((separate.resizePayload reads capacity room enough).mono ?_ ?_)
  · rintro _ middle ⟨edited, wide, capacity', fits⟩
    have sets := edited.separate.setPayload edited.reads capacity' no_cell (Nat.le_trans room' fits)
    refine sets.mono ?_ fun _ _ impossible => impossible.elim
    rintro _ after ⟨edited', -⟩
    exact ⟨payload', rfl, edited.trans edited'⟩
  · rintro error after ⟨rfl, rfl, -⟩
    exact ⟨rfl, .inr ⟨rfl, payload', rfl⟩⟩

/-- Room is given up after a string or list shrank, which is never refused. -/
theorem shrink (separate : memory.Separate) (reads : memory.payload cell = .ok payload) {grown : Nat}
    (smaller : payload'.room ≤ payload.room) (enough : payload'.room ≤ grown)
    (small : grown ≤ 4 * (payload'.room + 1)) (no_cell : payload'.target? = none) :
    Refines (do Memory.setPayload cell payload'; Memory.resizePayload cell payload'.room grown) memory cell
      (.ok payload') := by
  obtain ⟨size, capacity, fits⟩ := separate.exists_capacity reads
  have sets := separate.setPayload reads capacity no_cell (Nat.le_trans smaller fits)
  refine Ends.bind (sets.mono ?_ fun _ _ impossible => impossible.elim)
  rintro _ middle ⟨edited, capacity'⟩
  refine (edited.separate.resizePayload edited.reads capacity' (Nat.le_refl _) enough).mono ?_ ?_
  · rintro _ after ⟨edited', -⟩
    exact ⟨payload', rfl, edited.trans edited'⟩
  · -- Only where fewer than a quarter of the bytes are used are any given up.
    rintro error after ⟨-, -, less, narrow⟩
    omega

theorem insertBytes (separate : memory.Separate) (cell : Handle) (index : Int) (part : List UInt8) :
    Refines (Memory.insertBytes cell index part) memory cell (do
      let bytes ← memory.string cell
      let place ← checkPlace index bytes.length
      return .bytes (spliced bytes place part)) := by
  refine .look fun bytes string => .look fun place checked => ?_
  have inside := checkPlace_le checked
  refine separate.grow (string_eq_ok_iff.mp string) ?_ ?_ ?_ ?_
  · simp only [Payload.room, stringSize]
    omega
  · simp only [Payload.room, stringSize, spliced, List.length_append, List.length_take, List.length_drop]
    omega
  · simp only [stringSize, grownStringSize]
    omega
  · rfl

theorem insertValues (separate : memory.Separate) (cell : Handle) (index : Int) (part : List Value) :
    Refines (Memory.insertValues cell index part) memory cell (do
      let values ← memory.list cell
      let place ← checkPlace index values.length
      return .values (spliced values place part)) := by
  refine .look fun values list => .look fun place checked => ?_
  have inside := checkPlace_le checked
  refine separate.grow (list_eq_ok_iff.mp list) ?_ ?_ ?_ ?_
  · simp only [Payload.room, listSize, Value.size]
    omega
  · simp only [Payload.room, listSize, Value.size, spliced, List.length_append, List.length_take, List.length_drop]
    omega
  · simp only [listSize, grownListSize, Value.size]
    omega
  · rfl

/-- Replacing one byte or element changes no length. -/
theorem set (separate : memory.Separate) (reads : memory.payload cell = .ok payload)
    (same : payload'.room = payload.room) (no_cell : payload'.target? = none) :
    Refines (Memory.setPayload cell payload') memory cell (.ok payload') := by
  obtain ⟨size, capacity, fits⟩ := separate.exists_capacity reads
  refine (separate.setPayload reads capacity no_cell (same ▸ fits)).mono ?_ fun _ _ impossible => impossible.elim
  rintro _ after ⟨edited, -⟩
  exact ⟨payload', rfl, edited⟩

/-- Every change in place does to the string or list what it does to a list. -/
theorem edit (separate : memory.Separate) (edit : Edit) (named : edit.cell? = some cell) :
    Refines edit.run memory cell (edit.outcome memory) := by
  cases edit with
  | insertElement sequence index element =>
      cases sequence with
      | missing | number _ | function _ => cases named
      | string other =>
          obtain rfl := Option.some.inj named
          cases element with
          | missing | string _ | list _ | function _ => exact .throw _
          | number number =>
              have inserts := separate.insertBytes other index [byteOfNumber number]
              rwa [← insert_eq (memory.string other) index] at inserts
      | list other =>
          obtain rfl := Option.some.inj named
          have inserts := separate.insertValues other index [element]
          rwa [← insert_eq (memory.list other) index] at inserts
  | insertSequence sequence index other =>
      cases sequence with
      | missing | number _ | function _ => cases named
      | string target =>
          obtain rfl := Option.some.inj named
          cases other with
          | missing | number _ | list _ | function _ => exact .throw _
          | string source => exact .look fun part _ => separate.insertBytes target index part
      | list target =>
          obtain rfl := Option.some.inj named
          cases other with
          | missing | number _ | string _ | function _ => exact .throw _
          | list source => exact .look fun part _ => separate.insertValues target index part
  | removeSlice sequence start finish =>
      cases sequence with
      | missing | number _ | function _ => cases named
      | string target =>
          obtain rfl := Option.some.inj named
          refine .look fun bytes string => .look fun range checked => ?_
          obtain ⟨ordered, inside⟩ := checkRange_le checked
          have length : bytes.length - (range.2 - range.1) = (withoutSlice bytes range.1 range.2).length := by
            simp only [withoutSlice, List.length_append, List.length_take, List.length_drop]
            omega
          dsimp only
          rw [length]
          refine separate.shrink (string_eq_ok_iff.mp string) ?_ ?_ ?_ rfl
          · simp only [Payload.room, stringSize, ← length]
            omega
          · simp only [Payload.room, stringSize, grownStringSize]
            omega
          · simp only [Payload.room, stringSize, grownStringSize]
            omega
      | list target =>
          obtain rfl := Option.some.inj named
          refine .look fun values list => .look fun range checked => ?_
          obtain ⟨ordered, inside⟩ := checkRange_le checked
          have length : values.length - (range.2 - range.1) = (withoutSlice values range.1 range.2).length := by
            simp only [withoutSlice, List.length_append, List.length_take, List.length_drop]
            omega
          dsimp only
          rw [length]
          refine separate.shrink (list_eq_ok_iff.mp list) ?_ ?_ ?_ rfl
          · simp only [Payload.room, listSize, Value.size, ← length]
            omega
          · simp only [Payload.room, listSize, grownListSize, Value.size]
            omega
          · simp only [Payload.room, listSize, grownListSize, Value.size]
            omega
  | setByte target index byte =>
      obtain rfl := Option.some.inj named
      refine .look fun bytes string => ?_
      split
      · exact separate.set (string_eq_ok_iff.mp string) (by simp [Payload.room]) rfl
      · exact .throw _
  | setElement target index value =>
      obtain rfl := Option.some.inj named
      refine .look fun values list => ?_
      split
      · exact separate.set (list_eq_ok_iff.mp list) (by simp [Payload.room]) rfl
      · exact .throw _

end Separate

/-- An operation comes to a value that a new cell holds a result for. If it is
    refused, the same is read through every cell. -/
def Makes (operation : MemoryM Value) (memory : Memory) (result : Except MemoryError Payload) : Prop :=
  Ends operation memory
    (fun value after => ∃ cell payload, result = .ok payload ∧ value = payload.value cell ∧
      memory.heap.contains cell = false ∧ memory.Edited cell payload after)
    fun error after => after.Separate ∧ (∀ other, after.payload other = memory.payload other) ∧
      (result = .error error ∨ error = .collision ∧ ∃ payload, result = .ok payload)

theorem Makes.look (separate : memory.Separate) {view : Memory → Except MemoryError α} {next : α → MemoryM Value}
    {rest : α → Except MemoryError Payload}
    (makes : ∀ found, view memory = .ok found → Makes (next found) memory (rest found)) :
    Makes (Memory.look view >>= next) memory (view memory >>= rest) := by
  refine Ends.bind (Ends.look (fun found seen => ?_) fun error missed => ?_)
  · rw [seen]
    exact makes found seen
  · rw [missed]
    exact ⟨separate, fun _ => rfl, .inl rfl⟩

theorem Makes.throw (separate : memory.Separate) (error : MemoryError) :
    Makes (throw error) memory (.error error) :=
  ⟨separate, fun _ => rfl, .inl rfl⟩

namespace Separate

theorem makes (separate : memory.Separate) (make : Handle → Value) (payload : Payload)
    (value : ∀ cell, make cell = payload.value cell) (no_cell : payload.target? = none) :
    Makes (do return make (← Memory.createSequence payload.room payload)) memory (.ok payload) := by
  refine Ends.bind ((separate.createSequence no_cell (Nat.le_refl _)).mono ?_ ?_)
  · rintro cell after ⟨edited, absent⟩
    refine ⟨cell, payload, rfl, value cell, ?_, edited⟩
    cases here : memory.heap.get? cell with
    | none => simp [Heap.contains, here]
    | some object => simp [Heap.contents, here] at absent
  · rintro error after ⟨rfl, separate', others⟩
    exact ⟨separate', others, .inr ⟨rfl, payload, rfl⟩⟩

theorem makes_string (separate : memory.Separate) (bytes : List UInt8) :
    Makes (do return .string (← Memory.createString bytes)) memory (.ok (.bytes bytes)) :=
  separate.makes .string (.bytes bytes) (fun _ => rfl) rfl

theorem makes_list (separate : memory.Separate) (values : List Value) :
    Makes (do return .list (← Memory.createList values)) memory (.ok (.values values)) :=
  separate.makes .list (.values values) (fun _ => rfl) rfl

/-- Every new string or list is what the same operation on lists makes. -/
theorem copy (separate : memory.Separate) (copy : Copy) : Makes copy.run memory (copy.outcome memory) := by
  cases copy with
  | slice sequence start finish =>
      cases sequence with
      | missing | number _ | function _ => exact .throw separate _
      | string cell =>
          exact .look separate fun bytes _ => .look separate fun range _ => separate.makes_string _
      | list cell =>
          exact .look separate fun values _ => .look separate fun range _ => separate.makes_list _
  | whole sequence =>
      cases sequence with
      | missing | number _ | function _ => exact .throw separate _
      | string cell => exact .look separate fun bytes _ => separate.makes_string bytes
      | list cell => exact .look separate fun values _ => separate.makes_list values
  | concatenation left right =>
      exact .look separate fun front _ => .look separate fun back _ => separate.makes_string _

theorem congr (separate : memory.Separate) (same : after.heap = memory.heap) : after.Separate :=
  ⟨same ▸ separate.heap, same ▸ separate.contents, same ▸ separate.room⟩

theorem onStack (separate : memory.Separate)
    (operation : ScopeStack → (ceiling : Nat) → Except MemoryError (α × ScopeStack)) :
    (memory.after (onStack operation)).Separate := by
  refine separate.congr ?_
  unfold Memory.after Memory.onStack
  cases operation memory.stack memory.heap.boundary <;> rfl

theorem after_edit (separate : memory.Separate) (edit : Edit) : (memory.after edit.run).Separate := by
  cases named : edit.cell? with
  | none =>
      unfold Memory.after
      rw [edit.run_of_unnamed named]
      exact separate
  | some cell =>
      have refines := separate.edit edit named
      unfold Refines Ends at refines
      unfold Memory.after
      cases ran : edit.run memory with
      | ok _ after =>
          rw [ran] at refines
          obtain ⟨payload, -, edited⟩ := refines
          exact edited.separate
      | error error after =>
          rw [ran] at refines
          exact refines.1 ▸ separate

theorem after_copy (separate : memory.Separate) (copy : Copy) : (memory.after copy.run).Separate := by
  have makes := separate.copy copy
  unfold Makes Ends at makes
  unfold Memory.after
  cases ran : copy.run memory with
  | ok value after =>
      rw [ran] at makes
      obtain ⟨cell, payload, -, -, -, edited⟩ := makes
      exact edited.separate
  | error error after =>
      rw [ran] at makes
      exact makes.1

theorem after_createSequence (separate : memory.Separate) (payload : Payload) (no_cell : payload.target? = none) :
    (memory.after (Memory.createSequence payload.room payload)).Separate := by
  have creates := separate.createSequence no_cell (Nat.le_refl payload.room)
  unfold Ends at creates
  unfold Memory.after
  cases ran : Memory.createSequence payload.room payload memory with
  | ok cell after =>
      rw [ran] at creates
      exact creates.1.separate
  | error error after =>
      rw [ran] at creates
      exact creates.2.1

/-- Making room for at least what is there. -/
theorem after_resizePayload (separate : memory.Separate) (cell : Handle) {needed grown : Nat}
    (room : ∀ payload, memory.payload cell = .ok payload → payload.room ≤ needed) (enough : needed ≤ grown) :
    (memory.after (Memory.resizePayload cell needed grown)).Separate := by
  cases reads : memory.payload cell with
  | ok payload =>
      obtain ⟨size, capacity, -⟩ := separate.exists_capacity reads
      have resizes := separate.resizePayload reads capacity (room payload reads) enough
      unfold Ends at resizes
      unfold Memory.after
      cases ran : Memory.resizePayload cell needed grown memory with
      | ok _ after =>
          rw [ran] at resizes
          exact resizes.1.separate
      | error error after =>
          rw [ran] at resizes
          exact resizes.2.1 ▸ separate
  | error error =>
      have none : (memory.heap.target? cell).bind memory.heap.get? = none := by
        cases found : (memory.heap.target? cell).bind memory.heap.get? with
        | none => rfl
        | some object => simp [Memory.payload, found] at reads
      have missed : memory.capacity cell = .error .dangling := by simp [Memory.capacity, none]
      have refused : Memory.resizePayload cell needed grown memory = .error .dangling memory := by
        unfold Memory.resizePayload
        simp [Bind.bind, EStateM.bind, Memory.look, missed]
      unfold Memory.after
      rw [refused]
      exact separate

end Separate

/-- Whether an operation is one on strings and lists, scopes or roots, or a
    collection. Room may be made for more than is there, but not for less. -/
def IsOrderly (memory : Memory) : MemoryOperation → Prop
  | .allocate _ _ | .resize _ _ | .deallocate _ => False
  | .resizeString cell length => ∀ payload, memory.payload cell = .ok payload → payload.room ≤ stringSize length
  | .resizeList cell length => ∀ payload, memory.payload cell = .ok payload → payload.room ≤ listSize length
  | _ => True

/-- What memory of a size can become by orderly operations. -/
inductive Reached (size : Nat) : Memory → Prop where
  | empty : Reached size (.empty size)
  | perform {memory : Memory} (reached : Reached size memory) (operation : MemoryOperation)
      (orderly : memory.IsOrderly operation) : Reached size (memory.perform operation)

theorem Separate.perform (separate : memory.Separate) (operation : MemoryOperation)
    (orderly : memory.IsOrderly operation) : (memory.perform operation).Separate := by
  cases operation with
  | pushScope | pushBranch _ _ | createVariable _ _ => exact separate.onStack _
  | popScope | popBranch | setAction _ | breakLoop | continueLoop | setRoots _ => exact separate.congr rfl
  | setVariable place value =>
      refine separate.congr ?_
      simp only [Memory.perform, Memory.after, setVariable]
      cases memory.stack.variableAt? place <;> rfl
  | allocate _ _ | resize _ _ | deallocate _ => exact orderly.elim
  | createString bytes => exact separate.after_createSequence (.bytes bytes) rfl
  | createList values => exact separate.after_createSequence (.values values) rfl
  | resizeString cell length =>
      refine separate.after_resizePayload cell orderly ?_
      simp only [stringSize, grownStringSize]
      omega
  | resizeList cell length =>
      refine separate.after_resizePayload cell orderly ?_
      simp only [listSize, grownListSize, Value.size]
      omega
  | setByte cell index byte => exact separate.after_edit (.setByte cell index byte)
  | setElement cell index value => exact separate.after_edit (.setElement cell index value)
  | insertElement sequence index element => exact separate.after_edit (.insertElement sequence index element)
  | insertSequence sequence index other => exact separate.after_edit (.insertSequence sequence index other)
  | removeSlice sequence start finish => exact separate.after_edit (.removeSlice sequence start finish)
  | copySlice sequence start finish => exact separate.after_copy (.slice sequence start finish)
  | copySequence sequence => exact separate.after_copy (.whole sequence)
  | concatenate left right => exact separate.after_copy (.concatenation left right)
  | collect => exact separate.collect
  | reset => exact separate.reset

theorem Reached.separate {size : Nat} (reached : Reached size memory) : memory.Separate := by
  induction reached with
  | empty => exact separate_empty size
  | perform _ operation orderly ih => exact ih.perform operation orderly

end Memory

end PocketScript
