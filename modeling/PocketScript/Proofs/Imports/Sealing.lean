import PocketScript.Proofs.Copies.Clearing

/-! # Sealed stores

A store is sealed if code that is read from a file comes to a zero in its slot. Every
file is closed by one. A character literal can go on behind that zero, but not without an
apostrophe, and in front of another zero if there is one. Operations on files write
nothing that is not closed by a zero, so whatever they make of an erased store is
sealed.
-/

namespace PocketScript.Store

variable {store : Store} {slot : Address} {operation : FileOperation}

/-- Every file is closed by a zero, and every apostrophe where there can be data stands
    in front of one. -/
structure Sealed (store : Store) : Prop where
  files : ∀ slot ∈ slots, store.isPresent slot = true →
    store.fileSize slot ≤ fileLimit ∧ store.byte (dataAddress slot + store.fileSize slot) = 0
  quotes : ∀ slot ∈ slots, ∀ offset ≤ fileLimit + 1, store.byte (dataAddress slot + offset) = 0x27 →
    ∃ length, offset ≤ length ∧ length ≤ fileLimit ∧ store.byte (dataAddress slot + length) = 0

namespace Sealed

/-- A sealed store next to itself. -/
def copies (sealed : store.Sealed) : Copies where
  original := store
  copy := store
  files := ⟨fun _ _ => rfl, fun slot mem present =>
    ⟨rfl, rfl, mem, (sealed.files slot mem present).1, fun _ _ => rfl, (sealed.files slot mem present).2⟩⟩
  quoted slot mem offset within quote :=
    have ⟨length, inside, short, closed⟩ := sealed.quotes slot mem offset within quote
    ⟨length, offset, ⟨mem, short, fun _ _ => rfl, closed⟩, inside, rfl⟩

theorem of_copies (copies : Copies) : copies.original.Sealed := by
  refine ⟨fun slot mem present => ?_, fun slot mem offset within quote => ?_⟩
  · have text := (copies.files.file slot mem present).text
    exact ⟨text.short, text.closed⟩
  · obtain ⟨length, offset', text, inside, address⟩ := copies.quoted slot mem offset within quote
    exact ⟨length, Nat.add_left_cancel address ▸ inside, text.short, text.closed⟩

theorem last {α : Type} (sealed : store.Sealed) {change : StoreM α} (ends : sealed.copies.Ends change) :
    (StoreM.last change store).Sealed := by
  obtain ⟨later, -, ⟨result, ran, -⟩ | ⟨error, ran, -⟩⟩ := ends
  · rw [StoreM.last_of_ok (show change store = .ok result later.original from ran)]
    exact of_copies later
  · rw [StoreM.last_of_error (show change store = .error error later.original from ran)]
    exact of_copies later

theorem withData (sealed : store.Sealed) (mem : slot ∈ slots) {data : List UInt8} (short : data.length ≤ fileLimit) :
    (store.withData slot data).Sealed := by
  have written := sealed.last (sealed.copies.ends_writeData mem data)
  have ran := writeData_eq slot data store
  rw [if_neg (Nat.not_lt_of_le short)] at ran
  rwa [StoreM.last_of_ok ran] at written

theorem install (sealed : store.Sealed) (name code : List UInt8) :
    (StoreM.last (Store.install name code) store).Sealed := by
  unfold StoreM.last
  cases found : store.find? name with
  | some slot =>
      rw [install_of_some found]
      by_cases long : fileLimit < code.length
      · rwa [if_pos long]
      · rw [if_neg long]
        exact sealed.withData (find?_spec found).1 (Nat.le_of_not_lt long)
  | none =>
      have created := sealed.last (sealed.copies.ends_create name)
      have names := create_spec name store
      rw [install_of_none found]
      unfold StoreM.last at created
      cases ran : Store.create name store with
      | error error after => simpa only [ran] using created
      | ok slot after =>
          simp only [ran] at created names ⊢
          by_cases long : fileLimit < code.length
          · rwa [if_pos long]
          · rw [if_neg long]
            exact created.withData names.mem (Nat.le_of_not_lt long)

/-- A sealed store stays sealed, refused or not, if data is written to slots only. -/
theorem perform (sealed : store.Sealed) (placed : ∀ slot data, operation = .write slot data → slot ∈ slots) :
    (operation.perform store).Sealed := by
  cases operation with
  | create name => exact sealed.last (sealed.copies.ends_create name)
  | delete name => exact sealed.last (sealed.copies.ends_delete name)
  | rename name newName => exact sealed.last (sealed.copies.ends_rename name newName)
  | write slot data => exact sealed.last (sealed.copies.ends_writeData (placed slot data rfl) data)
  | install name code => exact sealed.install name code

end Sealed

theorem sealed_erased : erased.Sealed := by
  refine ⟨fun slot mem present => ?_, fun slot mem offset within quote => ?_⟩
  · rw [isPresent_erased mem] at present
    cases present
  · have inside : dataAddress slot + offset < 32768 := lt_capacity (by rw [quote]; decide)
    simp [byte, erased, inside, erasedByte] at quote

/-- What operations on files make of an erased store is sealed. -/
theorem sealed_performAll (operations : List FileOperation)
    (placed : ∀ operation ∈ operations, ∀ slot data, operation = .write slot data → slot ∈ slots) :
    (operations.foldl FileOperation.perform erased).Sealed :=
  List.foldlRecOn operations _ (motive := Sealed) sealed_erased fun _ sealed operation mem =>
    sealed.perform (placed operation mem)

/-- An image of the first slot is sealed if there is no apostrophe in it and its file is
    closed by a zero. -/
theorem sealed_ofImage {image : Array UInt8} (short : image.size ≤ slotSize) (quoteless : 0x27 ∉ image)
    (size : (ofImage image).fileSize 0 ≤ fileLimit)
    (closed : (ofImage image).byte (dataAddress 0 + (ofImage image).fileSize 0) = 0) : (ofImage image).Sealed := by
  refine ⟨fun (slot : Nat) mem present => ?_, fun slot mem offset within quote => ?_⟩
  · have first : slot < slotSize := by
      refine Nat.lt_of_not_le fun beyond => ?_
      rw [isPresent_ofImage mem (Nat.le_trans short beyond)] at present
      cases present
    obtain rfl : slot = 0 := by
      obtain ⟨index, -, rfl⟩ := mem_slots.mp mem
      rw [slotSize] at first
      omega
    exact ⟨size, closed⟩
  · have inside : dataAddress slot + offset < 32768 := lt_capacity (by rw [quote]; decide)
    rw [byte, ofImage, Vector.getElem?_ofFn, dif_pos inside, Option.getD_some, Array.getD] at quote
    split at quote
    · next there => exact absurd (quote ▸ Array.getElem_mem there) quoteless
    · cases quote

end PocketScript.Store
