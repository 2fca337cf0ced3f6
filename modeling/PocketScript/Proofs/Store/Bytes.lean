import PocketScript.Proofs.Flow.Text

/-! # Reading what was written

A write puts its bytes at their addresses and leaves every other byte of the store
as it was.
-/

namespace PocketScript.Store

variable {store : Store} {address other count : Nat} {bytes : List UInt8}

theorem byte_set (store : Store) (address : Address) (byte : UInt8) (other : Address) :
    (Store.mk (store.bytes.setIfInBounds address byte)).byte other =
      if address = other ∧ other < capacity then byte else store.byte other := by
  unfold Store.byte capacity
  rw [Vector.getElem?_setIfInBounds]
  by_cases same : address = other
  · subst same
    by_cases inside : address < 32768
    · simp [inside]
    · simp [inside]
  · simp [same]

/-- A write changes nothing below its address and nothing behind its bytes. -/
theorem byte_write_of_outside (outside : other < address ∨ address + bytes.length ≤ other) :
    (store.write address bytes).byte other = store.byte other := by
  induction bytes generalizing store address with
  | nil => rfl
  | cons byte rest ih =>
      rw [List.length_cons] at outside
      have different : ¬ (address = other ∧ other < capacity) := by omega
      rw [write, ih (by omega), byte_set, if_neg different]

/-- What is written inside the store stands there. -/
theorem has_write (inside : address + bytes.length ≤ capacity) : (store.write address bytes).Has address bytes := by
  induction bytes generalizing store address with
  | nil => trivial
  | cons byte rest ih =>
      rw [List.length_cons] at inside
      have here : address < capacity := by omega
      refine ⟨?_, ih (by omega)⟩
      rw [write, byte_write_of_outside (.inl (Nat.lt_succ_self _)), byte_set, if_pos ⟨rfl, here⟩]

theorem read_succ (store : Store) (address count : Nat) :
    store.read address (count + 1) = store.byte address :: store.read (address + 1) count := by
  simp [read, List.range_succ_eq_map, Function.comp_def, Nat.add_assoc, Nat.add_comm 1]

theorem read_congr {after : Store}
    (same : ∀ offset < count, after.byte (address + offset) = store.byte (address + offset)) :
    after.read address count = store.read address count :=
  List.map_congr_left fun offset mem => same offset (List.mem_range.mp mem)

/-- Reading up to a zero byte stops at the one written last, or at one in front of
    it. -/
theorem takeWhile_read_of_has (has : store.Has address (bytes ++ [0])) (room : bytes.length < count) :
    (store.read address count).takeWhile (· != 0) = bytes.takeWhile (· != 0) := by
  induction bytes generalizing address count with
  | nil =>
      obtain ⟨count, rfl⟩ := Nat.exists_eq_succ_of_ne_zero (Nat.ne_zero_of_lt room)
      rw [read_succ, has.1]
      rfl
  | cons byte rest ih =>
      obtain ⟨count, rfl⟩ := Nat.exists_eq_succ_of_ne_zero (Nat.ne_zero_of_lt room)
      rw [read_succ, has.1, List.takeWhile_cons, List.takeWhile_cons, ih has.2 (Nat.lt_of_succ_lt_succ room)]

end PocketScript.Store
