import Mathlib.Data.List.Nodup
import Mathlib.Data.List.TakeWhile
import PocketScript.Proofs.Store.Bytes
import PocketScript.Proofs.Store.Operations

/-! # Names identify files

No two files get the same name, and a file is found under the name it was given,
as long as no name has a zero byte in it: a zero byte closes the name in the slot,
but the name that is asked for is compared as a whole.
-/

namespace PocketScript

namespace Store

variable {store after last : Store} {slot other : Address} {name : List UInt8} {offset : Nat} {bytes : List UInt8}

theorem mem_slots : slot ∈ slots ↔ ∃ index : Nat, index < 32 ∧ index * 1024 = slot := by
  simp [slots, slotCount, capacity, slotSize]

/-- The mark and the name of a slot are the same as before. -/
def KeepsHead (store after : Store) (slot : Address) : Prop :=
  ∀ offset < sizeOffset, after.byte (slot + offset) = store.byte (slot + offset)

namespace KeepsHead

theorem refl (store : Store) (slot : Address) : store.KeepsHead store slot :=
  fun _ _ => rfl

theorem trans (first : store.KeepsHead after slot) (second : after.KeepsHead last slot) :
    store.KeepsHead last slot :=
  fun offset head => (second offset head).trans (first offset head)

theorem isPresent_eq (keeps : store.KeepsHead after slot) : after.isPresent slot = store.isPresent slot :=
  congrArg (· == presentMark) (keeps 0 (by decide))

theorem fileName_eq (keeps : store.KeepsHead after slot) : after.fileName slot = store.fileName slot := by
  unfold fileName
  rw [read_congr fun offset within => ?_]
  rw [Nat.add_assoc]
  exact keeps _ (Nat.add_comm .. ▸ Nat.add_lt_of_lt_sub within)

/-- Writing in another slot. -/
theorem write_other (mem : slot ∈ slots) (mem' : other ∈ slots) (different : other ≠ slot)
    (fits : offset + bytes.length ≤ slotSize) : store.KeepsHead (store.write (slot + offset) bytes) other := by
  obtain ⟨index, -, rfl⟩ := mem_slots.mp mem
  obtain ⟨index', -, rfl⟩ := mem_slots.mp mem'
  have apart : index' ≠ index := fun same => different (congrArg (· * 1024) same)
  intro place head
  refine byte_write_of_outside ?_
  simp only [slotSize, sizeOffset] at fits head
  omega

/-- Marking another slot. -/
theorem mark_other (mem : slot ∈ slots) (mem' : other ∈ slots) (different : other ≠ slot) (mark : UInt8) :
    store.KeepsHead (store.write slot [mark]) other := by
  change store.KeepsHead (store.write (slot + 0) [mark]) other
  exact write_other mem mem' different (by simp [slotSize])

/-- Writing behind the name. -/
theorem write_behind (behind : sizeOffset ≤ offset) : store.KeepsHead (store.write (slot + offset) bytes) slot :=
  fun _ head => byte_write_of_outside (.inl (Nat.add_lt_add_left (Nat.lt_of_lt_of_le head behind) slot))

end KeepsHead

theorem find?_spec (found : store.find? name = some slot) :
    slot ∈ slots ∧ store.isPresent slot = true ∧ store.fileName slot = name := by
  have here := List.find?_some found
  rw [Bool.and_eq_true, beq_iff_eq] at here
  exact ⟨List.mem_of_find?_eq_some found, here⟩

theorem find?_eq_none : store.find? name = none ↔
    ∀ slot ∈ slots, store.isPresent slot = true → store.fileName slot ≠ name := by
  simp [find?]

/-- A file is found if no other file has its name. -/
theorem find?_of_only (mem : slot ∈ slots) (present : store.isPresent slot = true)
    (named : store.fileName slot = name)
    (only : ∀ other ∈ slots, store.isPresent other = true → store.fileName other = name → other = slot) :
    store.find? name = some slot := by
  cases found : store.find? name with
  | none => exact absurd named (find?_eq_none.mp found slot mem present)
  | some other =>
      obtain ⟨mem', present', named'⟩ := find?_spec found
      rw [only other mem' present' named']

/-- The name of a file has no zero byte. -/
theorem zero_not_mem_fileName (store : Store) (slot : Address) : 0 ∉ store.fileName slot := by
  intro mem
  simpa using List.mem_takeWhile_imp mem

theorem find?_of_zero_mem (zero : 0 ∈ name) (store : Store) : store.find? name = none :=
  find?_eq_none.mpr fun slot _ _ same => zero_not_mem_fileName store slot (same ▸ zero)

/-- No two files have the same name. -/
def NamesDiffer (store : Store) : Prop :=
  (store.files.map store.fileName).Nodup

theorem namesDiffer_iff : store.NamesDiffer ↔ ∀ slot ∈ slots, ∀ other ∈ slots, store.isPresent slot = true →
    store.isPresent other = true → store.fileName slot = store.fileName other → slot = other := by
  have nodup : store.files.Nodup := List.Nodup.filter _ (by decide)
  rw [NamesDiffer, List.nodup_map_iff_inj_on nodup]
  simp only [files, List.mem_filter]
  constructor
  · exact fun differ slot mem other mem' present present' => differ slot ⟨mem, present⟩ other ⟨mem', present'⟩
  · exact fun differ slot here other there => differ slot here.1 other there.1 here.2 there.2

/-- A file was given a name that no file had, and the others are left as they were. -/
structure Names (store after : Store) (slot : Address) (name : List UInt8) : Prop where
  mem : slot ∈ slots
  unused : store.find? name = none
  present : after.isPresent slot = true
  named : after.fileName slot = name.takeWhile (· != 0)
  others : ∀ other ∈ slots, other ≠ slot → store.KeepsHead after other

theorem fileName_writeName (mem : slot ∈ slots) (short : name.length ≤ nameLimit) :
    (store.writeName slot name).fileName slot = name.takeWhile (· != 0) := by
  obtain ⟨index, few, rfl⟩ := mem_slots.mp mem
  refine takeWhile_read_of_has (has_write ?_) (Nat.lt_succ_of_le short)
  simp only [List.length_append, List.length_singleton, nameOffset, nameLimit, capacity] at short ⊢
  omega

namespace Names

/-- No other file has the name. -/
theorem only (names : store.Names after slot name) (mem : other ∈ slots) (present : after.isPresent other = true)
    (named : after.fileName other = name) : other = slot := by
  refine Decidable.byContradiction fun different => ?_
  have keeps := names.others other mem different
  rw [keeps.isPresent_eq] at present
  rw [keeps.fileName_eq] at named
  exact find?_eq_none.mp names.unused other mem present named

theorem named_of_plain (names : store.Names after slot name) (plain : 0 ∉ name) : after.fileName slot = name := by
  refine names.named.trans (List.takeWhile_eq_self_iff.mpr fun byte mem => ?_)
  exact bne_iff_ne.mpr (ne_of_mem_of_not_mem mem plain)

/-- The file is found under the name unless there is a zero byte in it. -/
theorem find?_iff (names : store.Names after slot name) : after.find? name = some slot ↔ 0 ∉ name := by
  constructor
  · intro found zero
    rw [find?_of_zero_mem zero] at found
    cases found
  · intro plain
    exact find?_of_only names.mem names.present (names.named_of_plain plain) fun _ => names.only

theorem namesDiffer (names : store.Names after slot name) (plain : 0 ∉ name) (differ : store.NamesDiffer) :
    after.NamesDiffer := by
  have named := names.named_of_plain plain
  rw [namesDiffer_iff] at differ ⊢
  intro one mem other mem' present present' same
  by_cases given : one = slot
  · subst given
    exact (names.only mem' present' (same.symm.trans named)).symm
  by_cases given' : other = slot
  · subst given'
    exact names.only mem present (same.trans named)
  have keeps := names.others one mem given
  have keeps' := names.others other mem' given'
  rw [keeps.isPresent_eq] at present
  rw [keeps'.isPresent_eq] at present'
  rw [keeps.fileName_eq, keeps'.fileName_eq] at same
  exact differ one mem other mem' present present' same

end Names

/-- All marks and names are the same as before. -/
def KeepsHeads (store after : Store) : Prop :=
  ∀ slot ∈ slots, store.KeepsHead after slot

namespace KeepsHeads

theorem find?_eq (keeps : store.KeepsHeads after) (name : List UInt8) : after.find? name = store.find? name := by
  rw [find?, find?, ← List.head?_filter, ← List.head?_filter]
  refine congrArg List.head? (List.filter_congr fun slot mem => ?_)
  rw [(keeps slot mem).isPresent_eq, (keeps slot mem).fileName_eq]

theorem namesDiffer (keeps : store.KeepsHeads after) (differ : store.NamesDiffer) : after.NamesDiffer := by
  rw [namesDiffer_iff] at differ ⊢
  intro one mem other mem' present present' same
  rw [(keeps one mem).isPresent_eq] at present
  rw [(keeps other mem').isPresent_eq] at present'
  rw [(keeps one mem).fileName_eq, (keeps other mem').fileName_eq] at same
  exact differ one mem other mem' present present' same

theorem write (mem : slot ∈ slots) (behind : sizeOffset ≤ offset) (fits : offset + bytes.length ≤ slotSize) :
    store.KeepsHeads (store.write (slot + offset) bytes) := by
  intro other mem'
  by_cases same : other = slot
  · subst same
    exact .write_behind behind
  · exact .write_other mem mem' same fits

theorem trans (first : store.KeepsHeads after) (second : after.KeepsHeads last) : store.KeepsHeads last :=
  fun slot mem => (first slot mem).trans (second slot mem)

end KeepsHeads

theorem Names.keeps (names : store.Names after slot name) (keeps : after.KeepsHeads last) :
    store.Names last slot name := by
  have here := keeps slot names.mem
  refine ⟨names.mem, names.unused, ?_, ?_, fun other mem different => ?_⟩
  · rw [here.isPresent_eq, names.present]
  · rw [here.fileName_eq, names.named]
  · exact (names.others other mem different).trans (keeps other mem)

theorem names_writeName (mem : slot ∈ slots) (short : name.length ≤ nameLimit) (unused : store.find? name = none)
    (present : after.isPresent slot = true) (others : ∀ other ∈ slots, other ≠ slot → store.KeepsHead after other) :
    store.Names (after.writeName slot name) slot name := by
  refine ⟨mem, unused, ?_, fileName_writeName mem short, fun other mem' different => ?_⟩
  · have mark : (after.writeName slot name).byte slot = after.byte slot :=
      byte_write_of_outside (.inl (Nat.lt_succ_self _))
    rw [isPresent, mark]
    exact present
  · refine (others other mem' different).trans (.write_other mem mem' different ?_)
    simp only [List.length_append, List.length_singleton, nameOffset, nameLimit, slotSize] at short ⊢
    omega

theorem keepsHeads_withData (mem : slot ∈ slots) (short : bytes.length ≤ fileLimit) :
    store.KeepsHeads (store.withData slot bytes) := by
  refine .trans (.write mem (Nat.le_refl _) ?_) (.write mem (by decide) ?_)
  · simp [sizeOffset, slotSize]
  · simp only [List.length_append, List.length_singleton, dataOffset, fileLimit, slotSize] at short ⊢
    omega

theorem names_withFile (mem : slot ∈ slots) (short : name.length ≤ nameLimit) (unused : store.find? name = none) :
    store.Names (store.withFile slot name) slot name := by
  have marked : (store.write slot [presentMark]).isPresent slot = true := by
    obtain ⟨index, few, rfl⟩ := mem_slots.mp mem
    have written : (store.write (index * 1024) [presentMark]).Has (index * 1024) [presentMark] :=
      has_write (by simp only [List.length_singleton, capacity]; omega)
    rw [isPresent, written.1]
    rfl
  have named := names_writeName mem short unused marked fun other mem' different =>
    KeepsHead.mark_other mem mem' different presentMark
  exact named.keeps (keepsHeads_withData mem (Nat.zero_le _))

theorem create_spec (name : List UInt8) (store : Store) :
    match Store.create name store with
    | .ok slot after => store.Names after slot name
    | .error _ after => after = store := by
  rw [create_eq]
  by_cases long : nameLimit < name.length
  · rw [if_pos long]
  rw [if_neg long]
  cases found : store.find? name with
  | some slot => rfl
  | none =>
      simp only [Option.isSome_none, Bool.false_eq_true, if_false]
      cases free : store.freeSlot? with
      | none => rfl
      | some slot => exact names_withFile (List.mem_of_find?_eq_some free) (Nat.le_of_not_lt long) found

theorem rename_spec (name newName : List UInt8) (store : Store) :
    match Store.rename name newName store with
    | .ok () after => ∃ slot, store.find? name = some slot ∧ store.Names after slot newName
    | .error _ after => after = store := by
  rw [rename_eq]
  cases found : store.find? name with
  | none => rfl
  | some slot =>
      dsimp only
      by_cases long : nameLimit < newName.length
      · rw [if_pos long]
      rw [if_neg long]
      cases used : store.find? newName with
      | some other => rfl
      | none =>
          simp only [Option.isSome_none, Bool.false_eq_true, if_false]
          obtain ⟨mem, present, -⟩ := find?_spec found
          exact ⟨slot, rfl, names_writeName mem (Nat.le_of_not_lt long) used present fun other _ _ => .refl store other⟩

theorem delete_spec (name : List UInt8) (differ : store.NamesDiffer) :
    match Store.delete name store with
    | .ok () after => after.NamesDiffer
    | .error _ after => after = store := by
  rw [delete_eq]
  cases found : store.find? name with
  | none => rfl
  | some slot =>
      obtain ⟨mem, -, -⟩ := find?_spec found
      rw [namesDiffer_iff] at differ
      -- The file that is gone has no mark; the others have theirs and their names.
      have marked : ∀ other ∈ slots, (store.write slot [erasedByte]).isPresent other = true →
          store.KeepsHead (store.write slot [erasedByte]) other := by
        intro other mem' present
        refine .mark_other mem mem' ?_ erasedByte
        rintro rfl
        obtain ⟨index, few, rfl⟩ := mem_slots.mp mem
        have written : (store.write (index * 1024) [erasedByte]).Has (index * 1024) [erasedByte] :=
          has_write (by simp only [List.length_singleton, capacity]; omega)
        rw [isPresent, written.1] at present
        cases present
      refine namesDiffer_iff.mpr fun one mem' other mem'' present present' same => ?_
      have keeps := marked one mem' present
      have keeps' := marked other mem'' present'
      rw [keeps.isPresent_eq] at present
      rw [keeps'.isPresent_eq] at present'
      rw [keeps.fileName_eq, keeps'.fileName_eq] at same
      exact differ one mem' other mem'' present present' same

theorem install_spec (name code : List UInt8) (store : Store) :
    match Store.install name code store with
    | .ok slot after => store.find? name = some slot ∧ store.KeepsHeads after ∨ store.Names after slot name
    | .error _ after => after = store ∨ ∃ slot, store.Names after slot name := by
  cases found : store.find? name with
  | some slot =>
      obtain ⟨mem, -, -⟩ := find?_spec found
      rw [install_of_some found]
      by_cases long : fileLimit < code.length
      · rw [if_pos long]
        exact .inl rfl
      · rw [if_neg long]
        exact .inl ⟨rfl, keepsHeads_withData mem (Nat.le_of_not_lt long)⟩
  | none =>
      have created := create_spec name store
      rw [install_of_none found]
      cases ran : Store.create name store with
      | error error after =>
          rw [ran] at created
          exact .inl created
      | ok slot after =>
          rw [ran] at created
          dsimp only
          by_cases long : fileLimit < code.length
          · rw [if_pos long]
            exact .inr ⟨slot, created⟩
          · rw [if_neg long]
            exact .inr (created.keeps (keepsHeads_withData created.mem (Nat.le_of_not_lt long)))

end Store

/-- An operation on files. -/
inductive FileOperation where
  | create (name : List UInt8)
  | delete (name : List UInt8)
  | rename (name newName : List UInt8)
  | write (slot : Address) (data : List UInt8)
  | install (name code : List UInt8)

/-- The store that an operation leads to, refused or not. -/
def StoreM.last {α : Type} (operation : StoreM α) (store : Store) : Store :=
  match operation store with
  | .ok _ after | .error _ after => after

namespace StoreM

variable {α : Type} {operation : StoreM α} {store after : Store}

theorem last_of_ok {value : α} (ran : operation store = .ok value after) : operation.last store = after := by
  rw [last, ran]

theorem last_of_error {error : FileError} (ran : operation store = .error error after) :
    operation.last store = after := by
  rw [last, ran]

end StoreM

namespace FileOperation

/-- What an operation does to a store, refused or not. -/
def perform (store : Store) : FileOperation → Store
  | create name => StoreM.last (Store.create name) store
  | delete name => StoreM.last (Store.delete name) store
  | rename name newName => StoreM.last (Store.rename name newName) store
  | write slot data => StoreM.last (Store.writeData slot data) store
  | install name code => StoreM.last (Store.install name code) store

/-- Data is written to slots, and no name that is given has a zero byte. -/
def Proper : FileOperation → Prop
  | create name | rename _ name | install name _ => 0 ∉ name
  | delete _ => True
  | write slot _ => slot ∈ Store.slots

/-- If the operation gives a name to a file, the file is found under it afterwards,
    unless there is a zero byte in the name. -/
def Identifies (store : Store) : FileOperation → Prop
  | create name => ∀ slot after, Store.create name store = .ok slot after →
      (after.find? name = some slot ↔ 0 ∉ name)
  | rename name newName => ∀ slot after, store.find? name = some slot → Store.rename name newName store = .ok () after →
      (after.find? newName = some slot ↔ 0 ∉ newName)
  | install name code => ∀ slot after, Store.install name code store = .ok slot after →
      (after.find? name = some slot ↔ 0 ∉ name)
  | delete _ | write _ _ => True

end FileOperation

namespace Store

variable {store : Store} {slot : Address} {operation : FileOperation}

theorem NamesDiffer.perform (differ : store.NamesDiffer) (proper : operation.Proper) :
    (operation.perform store).NamesDiffer := by
  cases operation with
  | create name =>
      have spec := create_spec name store
      cases ran : Store.create name store with
      | ok slot after =>
          rw [ran] at spec
          rw [FileOperation.perform, StoreM.last_of_ok ran]
          exact spec.namesDiffer proper differ
      | error error after =>
          rw [ran] at spec
          rw [FileOperation.perform, StoreM.last_of_error ran]
          exact spec ▸ differ
  | delete name =>
      have spec := delete_spec name differ
      cases ran : Store.delete name store with
      | ok slot after =>
          rw [ran] at spec
          rw [FileOperation.perform, StoreM.last_of_ok ran]
          exact spec
      | error error after =>
          rw [ran] at spec
          rw [FileOperation.perform, StoreM.last_of_error ran]
          exact spec ▸ differ
  | rename name newName =>
      have spec := rename_spec name newName store
      cases ran : Store.rename name newName store with
      | ok _ after =>
          rw [ran] at spec
          rw [FileOperation.perform, StoreM.last_of_ok ran]
          obtain ⟨slot, -, names⟩ := spec
          exact names.namesDiffer proper differ
      | error error after =>
          rw [ran] at spec
          rw [FileOperation.perform, StoreM.last_of_error ran]
          exact spec ▸ differ
  | write slot data =>
      have ran := writeData_eq slot data store
      by_cases long : fileLimit < data.length
      · rw [if_pos long] at ran
        rw [FileOperation.perform, StoreM.last_of_error ran]
        exact differ
      · rw [if_neg long] at ran
        rw [FileOperation.perform, StoreM.last_of_ok ran]
        exact (keepsHeads_withData proper (Nat.le_of_not_lt long)).namesDiffer differ
  | install name code =>
      have spec := install_spec name code store
      cases ran : Store.install name code store with
      | ok slot after =>
          rw [ran] at spec
          rw [FileOperation.perform, StoreM.last_of_ok ran]
          rcases spec with ⟨-, keeps⟩ | names
          · exact keeps.namesDiffer differ
          · exact names.namesDiffer proper differ
      | error error after =>
          rw [ran] at spec
          rw [FileOperation.perform, StoreM.last_of_error ran]
          rcases spec with rfl | ⟨slot, names⟩
          · exact differ
          · exact names.namesDiffer proper differ

theorem identifies (store : Store) (operation : FileOperation) : operation.Identifies store := by
  cases operation with
  | create name =>
      intro slot after ran
      have spec := create_spec name store
      rw [ran] at spec
      exact spec.find?_iff
  | rename name newName =>
      intro slot after found ran
      have spec := rename_spec name newName store
      rw [ran] at spec
      obtain ⟨slot', found', names⟩ := spec
      obtain rfl := Option.some.inj (found.symm.trans found')
      exact names.find?_iff
  | install name code =>
      intro slot after ran
      have spec := install_spec name code store
      rw [ran] at spec
      rcases spec with ⟨found, keeps⟩ | names
      · rw [keeps.find?_eq, found]
        refine ⟨fun _ zero => ?_, fun _ => rfl⟩
        rw [find?_of_zero_mem zero] at found
        cases found
      · exact names.find?_iff
  | delete _ | write _ _ => trivial

theorem isPresent_erased (mem : slot ∈ slots) : erased.isPresent slot = false := by
  obtain ⟨index, few, rfl⟩ := mem_slots.mp mem
  have inside : index * 1024 < 32768 := by omega
  simp [isPresent, byte, erased, inside, erasedByte, presentMark]

theorem namesDiffer_erased : erased.NamesDiffer := by
  refine namesDiffer_iff.mpr fun slot mem _ _ present => ?_
  rw [isPresent_erased mem] at present
  cases present

/-- From an erased store on, no two files get the same name, and a file is found
    under the name it is given, unless a name has a zero byte. -/
theorem names_identify_files (operations : List FileOperation) (proper : ∀ operation ∈ operations, operation.Proper) :
    (operations.foldl FileOperation.perform erased).NamesDiffer ∧
      ∀ next : FileOperation, next.Identifies (operations.foldl FileOperation.perform erased) := by
  refine ⟨?_, identifies _⟩
  refine List.foldlRecOn operations _ (motive := NamesDiffer) namesDiffer_erased fun store differ operation mem => ?_
  exact differ.perform (proper operation mem)

theorem names_identify_files_reusingSlots :
    let operations : List FileOperation :=
      [.create [65], .create [66], .delete [65], .install [67] [1, 2], .rename [66] [65], .write 1024 [3]]
    (∀ operation ∈ operations, operation.Proper) ∧
      (operations.foldl FileOperation.perform erased).NamesDiffer ∧
      ∀ next : FileOperation, next.Identifies (operations.foldl FileOperation.perform erased) := by
  intro operations
  have proper : ∀ operation ∈ operations, operation.Proper := by
    simp only [operations, List.forall_mem_cons, FileOperation.Proper, mem_slots]
    exact ⟨by decide, by decide, trivial, by decide, by decide, ⟨1, by decide⟩, by simp⟩
  exact ⟨proper, names_identify_files operations proper⟩

/-- A name with a zero byte is given although there is a file of the name up to it,
    and the file is not found under it. -/
theorem names_differ_not_zeroByte : ∃ first second : Store,
    Store.create [65] erased = .ok 0 first ∧ Store.create [65, 0] first = .ok 1024 second ∧
      ¬ second.NamesDiffer ∧ second.find? [65, 0] = none := by
  have zero : (0 : UInt8) ∈ [65, 0] := by decide
  have mem : 0 ∈ slots := mem_slots.mpr ⟨0, by decide⟩
  have mem' : 1024 ∈ slots := mem_slots.mpr ⟨1, by decide⟩
  have unused : erased.find? [65] = none := find?_eq_none.mpr fun slot mem present => by
    rw [isPresent_erased mem] at present
    cases present
  have free : erased.freeSlot? = some 0 := by
    simp [freeSlot?, slots, slotCount, slotSize, capacity, List.range_succ_eq_map, isPresent_erased mem]
  have names := names_withFile mem (by decide) unused
  have free' : (erased.withFile 0 [65]).freeSlot? = some 1024 := by
    have empty := (names.others 1024 mem' (by decide)).isPresent_eq.trans (isPresent_erased mem')
    simp [freeSlot?, slots, slotCount, slotSize, capacity, List.range_succ_eq_map, names.present, empty]
  have names' := names_withFile mem' (by decide) (find?_of_zero_mem zero (erased.withFile 0 [65]))
  refine ⟨_, _, create_of_free (by decide) unused free,
    create_of_free (by decide) (find?_of_zero_mem zero _) free', fun differ => ?_, find?_of_zero_mem zero _⟩
  have keeps := names'.others 0 mem (by decide)
  have present : ((erased.withFile 0 [65]).withFile 1024 [65, 0]).isPresent 0 = true :=
    keeps.isPresent_eq.trans names.present
  have same := keeps.fileName_eq.trans (names.named.trans names'.named.symm)
  cases namesDiffer_iff.mp differ 0 mem 1024 mem' present names'.present same

end Store

end PocketScript
