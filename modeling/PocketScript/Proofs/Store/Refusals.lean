import PocketScript.Proofs.Store.Names

/-! # File operations that are refused

Every operation on files checks all that it needs before it writes a byte, so a refusal
leaves the store as it was. Storing a program is the exception: it creates the file
before it checks the length of the program, so one that is too long leaves a new, empty
file behind.
-/

namespace PocketScript

/-- Why an operation on a store is refused, if it is. -/
def StoreM.error? {α : Type} (operation : StoreM α) (store : Store) : Option FileError :=
  match operation store with
  | .ok _ _ => none
  | .error error _ => some error

/-- Why an operation on files is refused, if it is. -/
def FileOperation.error? (store : Store) : FileOperation → Option FileError
  | create name => StoreM.error? (Store.create name) store
  | delete name => StoreM.error? (Store.delete name) store
  | rename name newName => StoreM.error? (Store.rename name newName) store
  | write slot data => StoreM.error? (Store.writeData slot data) store
  | install name code => StoreM.error? (Store.install name code) store

theorem StoreM.run_of_error? {α : Type} {operation : StoreM α} {store : Store} {error : FileError}
    (refused : StoreM.error? operation store = some error) :
    operation store = .error error (StoreM.last operation store) := by
  unfold StoreM.error? at refused
  cases ran : operation store with
  | ok _ after =>
      rw [ran] at refused
      cases refused
  | error _ after =>
      rw [ran] at refused
      rw [StoreM.last_of_error ran, Option.some.inj refused]

namespace Store

variable {store after : Store} {slot : Address} {name newName data code : List UInt8} {error : FileError}

theorem create_refused (ran : Store.create name store = .error error after) : after = store := by
  rw [create_eq] at ran
  split at ran
  · cases ran
    rfl
  split at ran
  · cases ran
    rfl
  split at ran
  · cases ran
    rfl
  · cases ran

theorem delete_refused (ran : Store.delete name store = .error error after) : after = store := by
  rw [delete_eq] at ran
  split at ran
  · cases ran
    rfl
  · cases ran

theorem rename_refused (ran : Store.rename name newName store = .error error after) : after = store := by
  rw [rename_eq] at ran
  split at ran
  · cases ran
    rfl
  split at ran
  · cases ran
    rfl
  split at ran
  · cases ran
    rfl
  · cases ran

theorem writeData_refused (ran : Store.writeData slot data store = .error error after) : after = store := by
  rw [writeData_eq] at ran
  split at ran
  · cases ran
    rfl
  · cases ran

/-- A program is not stored: nothing happened, or only its file was created. -/
theorem install_refused (ran : Store.install name code store = .error error after) :
    after = store ∨ fileLimit < code.length ∧ ∃ slot, Store.create name store = .ok slot after := by
  cases found : store.find? name with
  | some slot =>
      rw [install_of_some found] at ran
      split at ran
      · cases ran
        exact .inl rfl
      · cases ran
  | none =>
      rw [install_of_none found] at ran
      cases created : Store.create name store with
      | error _ _ =>
          rw [created] at ran
          cases ran
          exact .inl (create_refused created)
      | ok slot middle =>
          simp only [created] at ran
          split at ran
          · next long =>
            cases ran
            exact .inr ⟨long, slot, rfl⟩
          · cases ran

/-- An operation that is refused leaves every byte of the store as it was, unless it is
    to store a program that is too long, and a file of its name could be created. Then
    that file is all there is to it. -/
theorem refused_keeps_store {operation : FileOperation} (refused : operation.error? store = some error) :
    operation.perform store = store ∨
      ∃ name code slot, operation = .install name code ∧ fileLimit < code.length ∧
        Store.create name store = .ok slot (operation.perform store) := by
  cases operation with
  | create name => exact .inl (create_refused (StoreM.run_of_error? refused))
  | delete name => exact .inl (delete_refused (StoreM.run_of_error? refused))
  | rename name newName => exact .inl (rename_refused (StoreM.run_of_error? refused))
  | write slot data => exact .inl (writeData_refused (StoreM.run_of_error? refused))
  | install name code =>
      rcases install_refused (StoreM.run_of_error? refused) with same | ⟨long, slot, created⟩
      · exact .inl same
      · exact .inr ⟨name, code, slot, rfl, long, created⟩

theorem find?_erased (name : List UInt8) : erased.find? name = none := find?_eq_none.mpr fun slot mem present => by
  rw [isPresent_erased mem] at present
  cases present

/-- The first file of a store goes to the first slot. -/
theorem create_erased (name : List UInt8) (short : name.length ≤ nameLimit) :
    Store.create name erased = .ok 0 (erased.withFile 0 name) ∧ erased.Names (erased.withFile 0 name) 0 name := by
  have mem : 0 ∈ slots := mem_slots.mpr ⟨0, by decide⟩
  have free : erased.freeSlot? = some 0 := by
    simp [freeSlot?, slots, slotCount, slotSize, capacity, List.range_succ_eq_map, isPresent_erased mem]
  exact ⟨create_of_free short (find?_erased name) free, names_withFile mem short (find?_erased name)⟩

theorem refused_keeps_store_takenName :
    (FileOperation.create [65]).error? (erased.withFile 0 [65]) = some .fileExists ∧
      ((FileOperation.create [65]).perform (erased.withFile 0 [65]) = erased.withFile 0 [65] ∨
        ∃ name code slot, FileOperation.create [65] = .install name code ∧ fileLimit < code.length ∧
          Store.create name (erased.withFile 0 [65]) =
            .ok slot ((FileOperation.create [65]).perform (erased.withFile 0 [65]))) := by
  obtain ⟨-, names⟩ := create_erased [65] (by decide)
  have taken : (erased.withFile 0 [65]).find? [65] = some 0 := names.find?_iff.mpr (by decide)
  have refused : (FileOperation.create [65]).error? (erased.withFile 0 [65]) = some .fileExists := by
    simp [FileOperation.error?, StoreM.error?, create_eq, taken, nameLimit]
  exact ⟨refused, refused_keeps_store refused⟩

/-- A program of one byte too many is not stored, but there is a file of its name
    afterwards. -/
theorem refused_keeps_store_not_longProgram :
    (FileOperation.install [65] (List.replicate 1001 0)).error? erased = some .badAmount ∧
      (FileOperation.install [65] (List.replicate 1001 0)).perform erased ≠ erased := by
  have long : fileLimit < (List.replicate 1001 (0 : UInt8)).length := by
    rw [List.length_replicate]
    decide
  obtain ⟨created, names⟩ := create_erased [65] (by decide)
  have ran : Store.install [65] (List.replicate 1001 0) erased = .error .badAmount (erased.withFile 0 [65]) := by
    rw [install_of_none (find?_erased [65]), created]
    exact if_pos long
  refine ⟨by rw [FileOperation.error?, StoreM.error?, ran], fun same => ?_⟩
  rw [FileOperation.perform, StoreM.last_of_error ran] at same
  have present := names.present
  rw [same, isPresent_erased names.mem] at present
  cases present

end Store

end PocketScript
