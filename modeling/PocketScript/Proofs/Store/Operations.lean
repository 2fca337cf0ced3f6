import PocketScript.Store.File

/-! # What file operations come to

Every operation on files is either refused and leaves the store as it was, or
changes it in one of three ways. Only storing a program can be refused with
something done: a file of its name may have been created.
-/

namespace PocketScript.Store

/-- A store with other data in a file. -/
def withData (store : Store) (slot : Address) (data : List UInt8) : Store :=
  (store.writeWord (slot + sizeOffset) data.length).write (dataAddress slot) (data ++ [0])

/-- A store with a new, empty file in a slot. -/
def withFile (store : Store) (slot : Address) (name : List UInt8) : Store :=
  ((store.write slot [presentMark]).writeName slot name).withData slot []

/-- Looking at the store. -/
theorem get_eq (store : Store) : (get : StoreM Store) store = .ok store store :=
  rfl

theorem create_eq (name : List UInt8) (store : Store) : Store.create name store =
    if nameLimit < name.length then .error .nameTooLong store
    else if (store.find? name).isSome then .error .fileExists store
    else
      match store.freeSlot? with
      | none => .error .storageFull store
      | some slot => .ok slot (store.withFile slot name) := by
  unfold Store.create
  by_cases long : nameLimit < name.length
  · rw [if_pos long, if_pos long]
    rfl
  rw [if_neg long, if_neg long]
  by_cases used : (store.find? name).isSome = true
  · simp only [bind, EStateM.bind, pure, get_eq, used, if_true]
    rfl
  · simp only [bind, EStateM.bind, pure, get_eq, used]
    cases store.freeSlot? <;> rfl

/-- A name that fits and is not in use gets the first free slot. -/
theorem create_of_free {store : Store} {name : List UInt8} {slot : Address} (short : name.length ≤ nameLimit)
    (unused : store.find? name = none) (free : store.freeSlot? = some slot) :
    Store.create name store = .ok slot (store.withFile slot name) := by
  simp [create_eq, Nat.not_lt_of_le short, unused, free]

theorem delete_eq (name : List UInt8) (store : Store) : Store.delete name store =
    match store.find? name with
    | none => .error .missingFile store
    | some slot => .ok () (store.write slot [erasedByte]) := by
  simp only [Store.delete, bind, EStateM.bind, get_eq]
  cases store.find? name <;> rfl

theorem rename_eq (name newName : List UInt8) (store : Store) : Store.rename name newName store =
    match store.find? name with
    | none => .error .missingFile store
    | some slot =>
      if nameLimit < newName.length then .error .nameTooLong store
      else if (store.find? newName).isSome then .error .fileExists store
      else .ok () (store.writeName slot newName) := by
  simp only [Store.rename, bind, EStateM.bind, get_eq]
  cases store.find? name with
  | none => rfl
  | some slot =>
      by_cases long : nameLimit < newName.length
      · simp only [long, if_true]
        rfl
      by_cases used : (store.find? newName).isSome = true
      · simp only [long, used, if_true, if_false]
        rfl
      · simp only [long, used, if_false]
        rfl

theorem writeData_eq (slot : Address) (data : List UInt8) (store : Store) : Store.writeData slot data store =
    if fileLimit < data.length then .error .badAmount store else .ok () (store.withData slot data) := by
  unfold Store.writeData
  by_cases long : fileLimit < data.length
  · rw [if_pos long, if_pos long]
    rfl
  · rw [if_neg long, if_neg long]
    rfl

/-- Storing a program for which there is a file. -/
theorem install_of_some {store : Store} {name : List UInt8} {slot : Address} (found : store.find? name = some slot)
    (code : List UInt8) : Store.install name code store =
      if fileLimit < code.length then .error .badAmount store else .ok slot (store.withData slot code) := by
  simp only [Store.install, bind, EStateM.bind, get_eq, found, pure, EStateM.pure, writeData_eq]
  by_cases long : fileLimit < code.length
  · simp only [long, if_true]
  · simp only [long, if_false]

/-- Storing a program for which there is none. -/
theorem install_of_none {store : Store} {name : List UInt8} (none : store.find? name = none) (code : List UInt8) :
    Store.install name code store =
      match Store.create name store with
      | .ok slot after =>
        if fileLimit < code.length then .error .badAmount after else .ok slot (after.withData slot code)
      | .error error after => .error error after := by
  simp only [Store.install, bind, EStateM.bind, get_eq, none]
  cases Store.create name store with
  | error error after => rfl
  | ok slot after =>
      simp only [writeData_eq]
      by_cases long : fileLimit < code.length
      · simp only [long, if_true]
      · simp only [long, if_false]
        rfl

end PocketScript.Store
