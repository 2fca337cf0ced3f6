import PocketScript.Proofs.Copies.Stores
import PocketScript.Proofs.Store.Refusals

/-! # The contents of files

What is written into a file is read back from it, and whatever is done to a file stays in
its slot. A slot has room for its name, its size and its data with a zero behind each.

The size of a file is not checked against that room when it is read. No operation writes a
size that is too large, but an image can hold one, and such a file is read on into the
slots behind it.
-/

namespace PocketScript

namespace Store

variable {store after last : Store} {slot other address : Address} {name data bytes : List UInt8}

/-- Part of a text that stands in the store. -/
theorem read_of_has (has : store.Has address bytes) {index amount : Nat} (inside : index + amount ≤ bytes.length) :
    store.read (address + index) amount = (bytes.drop index).take amount := by
  have long : ((bytes.drop index).take amount).length = amount := by
    rw [List.length_take, List.length_drop]
    omega
  apply List.ext_getElem
  · rw [long, read, List.length_map, List.length_range]
  · intro offset within within'
    rw [long] at within'
    have here := byte_of_has has (show index + offset < bytes.length by omega)
    simp only [read, List.getElem_map, List.getElem_range, List.getElem_take, List.getElem_drop]
    rw [Nat.add_assoc, here]

/-- What reading a file comes to that holds these bytes. -/
structure Contains (store : Store) (slot : Address) (data : List UInt8) : Prop where
  size : store.fileSize slot = data.length
  /-- Every part of the data can be read. -/
  reads : ∀ index amount : Int, 0 ≤ index → index < data.length → 0 ≤ amount → amount ≤ data.length - index →
    store.readData slot index amount = .ok ((data.drop index.toNat).take amount.toNat)
  badIndex : ∀ index amount : Int, index < 0 ∨ data.length ≤ index →
    store.readData slot index amount = .error .badIndex
  badAmount : ∀ index amount : Int, 0 ≤ index → index < data.length → amount < 0 ∨ data.length - index < amount →
    store.readData slot index amount = .error .badAmount
  /-- With indices of 32 bits, neither the size nor what is left of the data behind an
      index overflows. -/
  fits : ∀ index : Int32, (Int32.ofNat (store.fileSize slot)).toInt = data.length ∧
    (0 ≤ index.toInt → index.toInt < data.length →
      (Int32.ofNat (store.fileSize slot) - index).toInt = data.length - index.toInt)
  closed : store.byte (dataAddress slot + data.length) = 0

theorem toInt_ofNat_size {size : Nat} (short : size ≤ fileLimit) : (Int32.ofNat size).toInt = size := by
  rw [fileLimit] at short
  exact Int32.toInt_ofNat_of_lt (by omega)

theorem toInt_left {size : Nat} (short : size ≤ fileLimit) {index : Int32} (least : 0 ≤ index.toInt)
    (inside : index.toInt < size) : (Int32.ofNat size - index).toInt = size - index.toInt := by
  have exact := toInt_ofNat_size short
  rw [fileLimit] at short
  rw [Int32.toInt_sub, exact]
  apply Int.bmod_eq_of_le <;> omega

theorem contains_withData (mem : slot ∈ slots) (short : data.length ≤ fileLimit) :
    (store.withData slot data).Contains slot data := by
  have size : (store.withData slot data).fileSize slot = data.length := fileSize_withData mem short
  have has : (store.withData slot data).Has (dataAddress slot) (data ++ [0]) := (rewrites_withData mem short).has
  obtain ⟨text, zero, -⟩ := has_append.mp has
  constructor
  · exact size
  · intro index amount least inside positive few
    have good : ¬ (index < 0 ∨ (data.length : Int) ≤ index) := by omega
    have enough : ¬ (amount < 0 ∨ (data.length : Int) - index < amount) := by omega
    unfold readData
    rw [size]
    dsimp only
    rw [if_neg good, if_neg enough, read_of_has text (by omega)]
  · intro index amount outside
    unfold readData
    rw [size]
    dsimp only
    rw [if_pos outside]
  · intro index amount least inside outside
    have good : ¬ (index < 0 ∨ (data.length : Int) ≤ index) := by omega
    unfold readData
    rw [size]
    dsimp only
    rw [if_neg good, if_pos outside]
  · intro index
    rw [size]
    exact ⟨toInt_ofNat_size short, toInt_left short⟩
  · exact zero

/-- Nothing outside a slot is different. -/
def ChangesOnly (store after : Store) (slot : Address) : Prop :=
  ∀ place : Nat, place < slot ∨ place ≥ slot + slotSize → after.byte place = store.byte place

namespace ChangesOnly

theorem trans (first : store.ChangesOnly after slot) (second : after.ChangesOnly last slot) :
    store.ChangesOnly last slot := by
  intro place outside
  rw [second place outside, first place outside]

theorem of_rewrites (rewrites : store.Rewrites after slot data) (closed : Closed data) :
    store.ChangesOnly after slot := by
  intro place outside
  have short := closed.length_le
  apply rewrites.elsewhere
  simp only [dataAddress, dataOffset, fileLimit, slotSize] at short outside ⊢
  omega

/-- The bytes of another slot are the same as before. -/
theorem byte_eq (changes : store.ChangesOnly after slot) (mem : slot ∈ slots) (mem' : other ∈ slots)
    (different : other ≠ slot) {offset : Nat} (inside : offset < slotSize) :
    after.byte (other + offset) = store.byte (other + offset) := by
  obtain ⟨index, -, rfl⟩ := mem_slots.mp mem
  obtain ⟨index', -, rfl⟩ := mem_slots.mp mem'
  have apart : index' ≠ index := fun same => different (congrArg (· * 1024) same)
  apply changes
  simp only [slotSize] at inside ⊢
  omega

end ChangesOnly

/-- How many bytes of data a slot has room for. -/
def dataRoom : Nat := slotSize - dataOffset

/-- A file is the same as before, as far as it lies in its slot. -/
structure KeepsFile (store after : Store) (slot : Address) : Prop where
  present : after.isPresent slot = store.isPresent slot
  name : after.fileName slot = store.fileName slot
  size : after.fileSize slot = store.fileSize slot
  /-- Whatever is read of it is the same, unless it goes on behind its slot. -/
  reads : ∀ index amount : Int, store.fileSize slot ≤ dataRoom ∨ index + amount ≤ dataRoom →
    after.readData slot index amount = store.readData slot index amount

theorem ChangesOnly.keepsFile (changes : store.ChangesOnly after slot) (mem : slot ∈ slots) (mem' : other ∈ slots)
    (different : other ≠ slot) : store.KeepsFile after other := by
  have same {offset : Nat} (inside : offset < slotSize) := changes.byte_eq mem mem' different inside
  have head : store.KeepsHead after other := fun offset before => same (Nat.lt_trans before (by decide))
  have size : after.fileSize other = store.fileSize other :=
    fileSize_congr fun offset before => same (Nat.lt_trans before (by decide))
  refine ⟨head.isPresent_eq, head.fileName_eq, size, ?_⟩
  intro index amount within
  unfold readData
  rw [size]
  dsimp only
  split
  · rfl
  split
  · rfl
  · have room : index.toNat + amount.toNat ≤ dataRoom := by omega
    rw [read_congr]
    intro offset few
    rw [dataAddress, Nat.add_assoc, Nat.add_assoc]
    apply same
    simp only [dataRoom, slotSize, dataOffset] at room ⊢
    omega

theorem changesOnly_create (ran : Store.create name store = .ok slot after) :
    slot ∈ slots ∧ store.ChangesOnly after slot := by
  rw [create_eq] at ran
  split at ran
  · cases ran
  next fits =>
  split at ran
  · cases ran
  split at ran
  · cases ran
  next free =>
  cases ran
  have mem := List.mem_of_find?_eq_some free
  exact ⟨mem, .of_rewrites (rewrites_withFile mem (Nat.le_of_not_lt fits)) (.inr ⟨[], Nat.zero_le _, rfl⟩)⟩

theorem changesOnly_delete (ran : Store.delete name store = .ok () after) :
    ∃ slot ∈ slots, store.ChangesOnly after slot := by
  rw [delete_eq] at ran
  split at ran
  · cases ran
  next slot found =>
  cases ran
  exact ⟨slot, (find?_spec found).1, .of_rewrites (rewrites_mark _) (.inl rfl)⟩

theorem changesOnly_rename {newName : List UInt8} (ran : Store.rename name newName store = .ok () after) :
    ∃ slot ∈ slots, store.ChangesOnly after slot := by
  rw [rename_eq] at ran
  split at ran
  · cases ran
  next slot found =>
  split at ran
  · cases ran
  next fits =>
  split at ran
  · cases ran
  cases ran
  exact ⟨slot, (find?_spec found).1, .of_rewrites (rewrites_writeName (Nat.le_of_not_lt fits)) (.inl rfl)⟩

theorem changesOnly_withData (mem : slot ∈ slots) (short : data.length ≤ fileLimit) :
    store.ChangesOnly (store.withData slot data) slot :=
  .of_rewrites (rewrites_withData mem short) (.inr ⟨data, short, rfl⟩)

theorem changesOnly_writeData (mem : slot ∈ slots) (ran : Store.writeData slot data store = .ok () after) :
    store.ChangesOnly after slot := by
  rw [writeData_eq] at ran
  split at ran
  · cases ran
  next short =>
  cases ran
  exact changesOnly_withData mem (Nat.le_of_not_lt short)

theorem changesOnly_install (ran : Store.install name data store = .ok slot after) :
    slot ∈ slots ∧ store.ChangesOnly after slot := by
  cases found : store.find? name with
  | some place =>
      rw [install_of_some found] at ran
      split at ran
      · cases ran
      next short =>
      cases ran
      have mem := (find?_spec found).1
      exact ⟨mem, changesOnly_withData mem (Nat.le_of_not_lt short)⟩
  | none =>
      rw [install_of_none found] at ran
      split at ran
      next created =>
        split at ran
        · cases ran
        next short =>
        cases ran
        obtain ⟨mem, changes⟩ := changesOnly_create created
        exact ⟨mem, changes.trans (changesOnly_withData mem (Nat.le_of_not_lt short))⟩
      · cases ran

end Store

/-- Data is written to slots only. -/
def FileOperation.Placed : FileOperation → Prop
  | write slot _ => slot ∈ Store.slots
  | create _ | delete _ | rename _ _ | install _ _ => True

theorem StoreM.run_of_not_refused {α : Type} {operation : StoreM α} {store : Store}
    (accepted : StoreM.error? operation store = none) :
    ∃ value, operation store = .ok value (StoreM.last operation store) := by
  unfold StoreM.error? at accepted
  cases ran : operation store with
  | ok value after => exact ⟨value, by rw [StoreM.last_of_ok ran]⟩
  | error _ _ =>
      rw [ran] at accepted
      cases accepted

namespace Store

variable {store : Store} {operation : FileOperation}

/-- An operation that is not refused changes one slot. -/
theorem changesOnly_perform (placed : operation.Placed) (accepted : operation.error? store = none) :
    ∃ slot ∈ slots, store.ChangesOnly (operation.perform store) slot := by
  cases operation with
  | create name =>
      obtain ⟨slot, ran⟩ := StoreM.run_of_not_refused accepted
      exact ⟨slot, changesOnly_create ran⟩
  | delete name =>
      obtain ⟨_, ran⟩ := StoreM.run_of_not_refused accepted
      exact changesOnly_delete ran
  | rename name newName =>
      obtain ⟨_, ran⟩ := StoreM.run_of_not_refused accepted
      exact changesOnly_rename ran
  | write slot data =>
      obtain ⟨_, ran⟩ := StoreM.run_of_not_refused accepted
      exact ⟨slot, placed, changesOnly_writeData placed ran⟩
  | install name code =>
      obtain ⟨slot, ran⟩ := StoreM.run_of_not_refused accepted
      exact ⟨slot, changesOnly_install ran⟩

/-- Data written to a slot is what is read from it, byte for byte and closed by a zero,
    and its mark and its name stay. Whatever is done to files changes the bytes of one
    slot, so all other files stay what they are, as far as they lie in their slots. -/
theorem contents_are_kept (store : Store) :
    (∀ slot ∈ slots, ∀ data : List UInt8, data.length ≤ fileLimit →
      ∃ after, Store.writeData slot data store = .ok () after ∧ after.Contains slot data ∧
        store.KeepsHead after slot) ∧
    ∀ operation : FileOperation, operation.Placed → operation.error? store = none →
      ∃ slot ∈ slots, store.ChangesOnly (operation.perform store) slot ∧
        ∀ other ∈ slots, other ≠ slot → store.KeepsFile (operation.perform store) other := by
  constructor
  · intro slot mem data short
    have ran := writeData_eq slot data store
    rw [if_neg (Nat.not_lt_of_le short)] at ran
    exact ⟨_, ran, contains_withData mem short, keepsHeads_withData mem short slot mem⟩
  · intro operation placed accepted
    obtain ⟨slot, mem, changes⟩ := changesOnly_perform placed accepted
    exact ⟨slot, mem, changes, fun other mem' different => changes.keepsFile mem mem' different⟩

theorem contents_are_kept_firstFile :
    let data : List UInt8 := [104, 105]
    0 ∈ slots ∧ data.length ≤ fileLimit ∧ (FileOperation.create [65]).Placed ∧
      (FileOperation.create [65]).error? erased = none ∧
      (∃ after, Store.writeData 0 data erased = .ok () after ∧ after.Contains 0 data ∧ erased.KeepsHead after 0) ∧
      ∃ slot ∈ slots, erased.ChangesOnly ((FileOperation.create [65]).perform erased) slot ∧
        ∀ other ∈ slots, other ≠ slot → erased.KeepsFile ((FileOperation.create [65]).perform erased) other := by
  intro data
  have mem : 0 ∈ slots := mem_slots.mpr ⟨0, by decide⟩
  have short : data.length ≤ fileLimit := by decide
  have accepted : (FileOperation.create [65]).error? erased = none := by
    rw [FileOperation.error?, StoreM.error?, (create_erased [65] (by decide)).1]
  obtain ⟨written, isolated⟩ := contents_are_kept erased
  exact ⟨mem, short, trivial, accepted, written 0 mem data short, isolated _ trivial accepted⟩

theorem byte_ofImage (image : Array UInt8) (inside : address < capacity) :
    (ofImage image).byte address = image.getD address erasedByte := by
  have inside : address < 32768 := inside
  rw [byte, ofImage, Vector.getElem?_ofFn, dif_pos inside, Option.getD_some]

/-- The first file of this image says that it has 2000 bytes of data. Once there is a file
    behind it, another part of them is different. -/
theorem contents_are_kept_not_oversized :
    let store := ofImage #[1, 65, 0, 0, 0, 0, 0, 0, 0, 0, 0, 0, 0, 0, 0, 0, 0, 0xd0, 0x07]
    store.isPresent 0 = true ∧ store.fileName 0 = [65] ∧ store.fileSize 0 = 2000 ∧
      ∃ after, Store.create [66] store = .ok 1024 after ∧
        after.readData 0 1024 1 ≠ store.readData 0 1024 1 := by
  intro store
  have byte (address : Nat) (inside : address < 32768) : store.byte address = _ := byte_ofImage _ inside
  have present : store.isPresent 0 = true := by
    rw [isPresent, byte 0 (by decide)]
    rfl
  have name : store.fileName 0 = [65] := by
    simp [fileName, read, nameOffset, nameLimit, List.range_succ_eq_map, byte 1, byte 2]
  have size : store.fileSize 0 = 2000 := by
    simp [fileSize, readWord, sizeOffset, byte 17, byte 18]
  have absent {slot : Nat} (mem : slot ∈ slots) (behind : slot ≠ 0) : store.isPresent slot = false := by
    obtain ⟨index, few, rfl⟩ := mem_slots.mp mem
    have beyond : ¬ index * 1024 < 19 := by omega
    rw [isPresent, byte _ (by omega)]
    simp [Array.getD, beyond, erasedByte, presentMark]
  have mem : 1024 ∈ slots := mem_slots.mpr ⟨1, by decide⟩
  have unused : store.find? [66] = none := by
    apply find?_eq_none.mpr
    intro slot mem present named
    by_cases first : slot = 0
    · subst first
      rw [name] at named
      cases named
    · rw [absent mem first] at present
      cases present
  have free : store.freeSlot? = some 1024 := by
    have empty := absent mem (by decide)
    simp [freeSlot?, slots, slotCount, slotSize, capacity, List.range_succ_eq_map, present, empty]
  have created := create_of_free (by decide) unused free
  refine ⟨present, name, size, _, created, ?_⟩
  -- What is read is the first byte of data in the second slot.
  have reads {some : Store} (size : some.fileSize 0 = 2000) : some.readData 0 1024 1 = .ok [some.byte 1043] := by
    simp [readData, size, read, dataAddress, dataOffset, List.range_succ_eq_map]
  have before : store.byte 1043 = 255 := by
    rw [byte 1043 (by decide)]
    rfl
  have after : (store.withFile 1024 [66]).byte 1043 = 0 := (rewrites_withFile mem (by decide)).has.1
  have first : 0 ∈ slots := mem_slots.mpr ⟨0, by decide⟩
  have kept := (changesOnly_create created).2.keepsFile mem first (by decide)
  rw [reads (kept.size.trans size), reads size, before, after]
  intro same
  cases same

end Store

end PocketScript
