import Mathlib.Order.Basic
import PocketScript.Machine.Run
import PocketScript.Proofs.Store.Names

/-! # Stores with the same files

Deleting a file and shortening one leave bytes behind in the store. Two stores with
the same files may differ in such bytes. Reading code from an address in a file
comes to the same in both, up to the zero that closes the file; of everything that
reads code, only a character literal goes on behind that zero. If one of the stores
has no apostrophe there, that literal is malformed in it.
-/

namespace PocketScript

namespace Store

variable {store after other original copy original' copy' : Store} {slot address : Address} {length : Nat}
  {data : List UInt8}

/-- The text in a slot and the zero that closes it are the same in both stores. -/
structure SameText (original copy : Store) (slot : Address) (length : Nat) : Prop where
  mem : slot ∈ slots
  short : length ≤ fileLimit
  same : ∀ offset ≤ length, copy.byte (dataAddress slot + offset) = original.byte (dataAddress slot + offset)
  closed : original.byte (dataAddress slot + length) = 0

/-- An address lies in text of a slot that is the same in both stores. -/
def Shares (original copy : Store) (slot address : Address) : Prop :=
  ∃ length offset, original.SameText copy slot length ∧ offset ≤ length ∧ address = dataAddress slot + offset

/-- A slot holds the same file in both stores. -/
structure SameFile (original copy : Store) (slot : Address) : Prop where
  name : copy.fileName slot = original.fileName slot
  size : copy.fileSize slot = original.fileSize slot
  text : original.SameText copy slot (original.fileSize slot)

/-- The same slots hold files in both stores, and the same ones. -/
structure SameFiles (original copy : Store) : Prop where
  present : ∀ slot ∈ slots, copy.isPresent slot = original.isPresent slot
  file : ∀ slot ∈ slots, original.isPresent slot = true → original.SameFile copy slot

/-- Every apostrophe where there can be data lies in text that both stores have. -/
def Quoted (original copy : Store) : Prop :=
  ∀ slot ∈ slots, ∀ offset ≤ fileLimit + 1, original.byte (dataAddress slot + offset) = 0x27 →
    original.Shares copy slot (dataAddress slot + offset)

theorem Shares.byte_eq (shares : original.Shares copy slot address) : copy.byte address = original.byte address := by
  obtain ⟨length, offset, text, within, rfl⟩ := shares
  exact text.same offset within

/-- The text goes on behind a byte that does not close it. -/
theorem Shares.next (shares : original.Shares copy slot address) (more : original.byte address ≠ 0) :
    original.Shares copy slot (address + 1) := by
  obtain ⟨length, offset, text, within, rfl⟩ := shares
  have before : offset ≠ length := by
    rintro rfl
    exact more text.closed
  exact ⟨length, offset + 1, text, Nat.lt_of_le_of_ne within before, rfl⟩

theorem SameText.shares (text : original.SameText copy slot length) : original.Shares copy slot (dataAddress slot) :=
  ⟨length, 0, text, Nat.zero_le _, rfl⟩

/-- In a slot the mark, the name and the size may have changed, and data was
    written. -/
structure Rewrites (store after : Store) (slot : Address) (data : List UInt8) : Prop where
  has : after.Has (dataAddress slot) data
  elsewhere : ∀ other : Nat, other < slot ∨ other ≥ dataAddress slot + data.length → after.byte other = store.byte other

/-- Data that is written is closed by a zero, if there is any. -/
def Closed (data : List UInt8) : Prop :=
  data = [] ∨ ∃ text : List UInt8, text.length ≤ fileLimit ∧ data = text ++ [0]

theorem byte_of_has {text : List UInt8} (has : store.Has address text) {offset : Nat} (within : offset < text.length) :
    store.byte (address + offset) = text[offset] := by
  induction text generalizing address offset with
  | nil => cases within
  | cons byte rest ih =>
      cases offset with
      | zero => exact has.1
      | succ offset =>
          have there := ih has.2 (Nat.lt_of_succ_lt_succ within)
          rw [Nat.add_assoc, Nat.add_comm 1] at there
          exact there

theorem Closed.length_le (closed : Closed data) : data.length ≤ fileLimit + 1 := by
  obtain rfl | ⟨text, short, rfl⟩ := closed
  · exact Nat.zero_le _
  · rw [List.length_append]
    exact Nat.succ_le_succ short

/-- What was written in a slot leaves the text of every other slot alone, and text
    behind what was written. -/
theorem Rewrites.text_eq (rewrites : store.Rewrites after slot data) (mem : slot ∈ slots) (closed : Closed data)
    {other : Address} (mem' : other ∈ slots) {offset : Nat} (within : offset ≤ fileLimit + 1)
    (unwritten : other = slot → data.length ≤ offset) :
    after.byte (dataAddress other + offset) = store.byte (dataAddress other + offset) := by
  refine rewrites.elsewhere _ ?_
  have short := closed.length_le
  by_cases same : other = slot
  · exact .inr (same ▸ Nat.add_le_add_left (unwritten same) _)
  · obtain ⟨index, -, rfl⟩ := mem_slots.mp mem
    obtain ⟨index', -, rfl⟩ := mem_slots.mp mem'
    have apart : index' ≠ index := fun equal => same (congrArg (· * 1024) equal)
    simp only [dataAddress, dataOffset, fileLimit] at short within ⊢
    omega

/-- The text in the slot is the same up to the zero written last. -/
theorem SameText.written (mem : slot ∈ slots) {text : List UInt8} (short : text.length ≤ fileLimit)
    (has : original.Has (dataAddress slot) (text ++ [0])) (has' : copy.Has (dataAddress slot) (text ++ [0])) :
    original.SameText copy slot text.length := by
  refine ⟨mem, short, fun offset within => ?_, ?_⟩
  · have within : offset < (text ++ [0]).length := by simpa using Nat.lt_succ_of_le within
    rw [byte_of_has has within, byte_of_has has' within]
  · rw [byte_of_has has (by simp), List.getElem_concat_length rfl]

/-- Text stays the same if nothing was written into it. -/
theorem Rewrites.sameText (rewrites : original.Rewrites original' slot data) (rewrites' : copy.Rewrites copy' slot data)
    (mem : slot ∈ slots) (closed : Closed data) {other : Address} (text : original.SameText copy other length)
    (kept : other = slot → data.length ≤ length) : original'.SameText copy' other length := by
  have inside {place : Nat} (within : place ≤ length) : place ≤ fileLimit + 1 :=
    Nat.le_succ_of_le (Nat.le_trans within text.short)
  refine ⟨text.mem, text.short, fun place within => ?_, ?_⟩
  · by_cases written : other = slot ∧ place < data.length
    · obtain ⟨rfl, written⟩ := written
      rw [byte_of_has rewrites.has written, byte_of_has rewrites'.has written]
    · have unwritten (same : other = slot) : data.length ≤ place := Nat.le_of_not_lt fun less => written ⟨same, less⟩
      rw [rewrites.text_eq mem closed text.mem (inside within) unwritten,
        rewrites'.text_eq mem closed text.mem (inside within) unwritten, text.same place within]
  · rw [rewrites.text_eq mem closed text.mem (inside (Nat.le_refl _)) kept, text.closed]

theorem Rewrites.shares (rewrites : original.Rewrites original' slot data) (rewrites' : copy.Rewrites copy' slot data)
    (mem : slot ∈ slots) (closed : Closed data) {other : Address} (shares : original.Shares copy other address) :
    original'.Shares copy' other address := by
  obtain ⟨length, offset, text, within, rfl⟩ := shares
  by_cases beyond : other = slot ∧ length < data.length
  · obtain ⟨rfl, longer⟩ := beyond
    obtain rfl | ⟨new, few, rfl⟩ := closed
    · cases longer
    · rw [List.length_append, List.length_singleton] at longer
      have within : offset ≤ new.length := Nat.le_trans within (Nat.le_of_lt_succ longer)
      exact ⟨new.length, offset, .written mem few rewrites.has rewrites'.has, within, rfl⟩
  · have kept (same : other = slot) : data.length ≤ length := Nat.le_of_not_lt fun less => beyond ⟨same, less⟩
    exact ⟨length, offset, rewrites.sameText rewrites' mem closed text kept, within, rfl⟩

theorem Rewrites.quoted (rewrites : original.Rewrites original' slot data) (rewrites' : copy.Rewrites copy' slot data)
    (mem : slot ∈ slots) (closed : Closed data) (quoted : original.Quoted copy) : original'.Quoted copy' := by
  intro other mem' offset within quote
  by_cases written : other = slot ∧ offset < data.length
  · obtain ⟨rfl, written⟩ := written
    obtain rfl | ⟨new, few, rfl⟩ := closed
    · cases written
    · have within : offset ≤ new.length := by simpa using Nat.le_of_lt_succ (by simpa using written)
      exact ⟨new.length, offset, .written mem few rewrites.has rewrites'.has, within, rfl⟩
  · have unwritten (same : other = slot) : data.length ≤ offset := Nat.le_of_not_lt fun less => written ⟨same, less⟩
    rw [rewrites.text_eq mem closed mem' within unwritten] at quote
    exact rewrites.shares rewrites' mem closed (quoted other mem' offset within quote)

theorem Rewrites.head_eq (rewrites : store.Rewrites after slot data) (mem : slot ∈ slots) (closed : Closed data)
    {other : Address} (mem' : other ∈ slots) (different : other ≠ slot) {offset : Nat} (head : offset < dataOffset) :
    after.byte (other + offset) = store.byte (other + offset) := by
  refine rewrites.elsewhere _ ?_
  have short := closed.length_le
  obtain ⟨index, -, rfl⟩ := mem_slots.mp mem
  obtain ⟨index', -, rfl⟩ := mem_slots.mp mem'
  have apart : index' ≠ index := fun equal => different (congrArg (· * 1024) equal)
  simp only [dataAddress, dataOffset, fileLimit] at short head ⊢
  omega

theorem Rewrites.keepsHead (rewrites : store.Rewrites after slot data) (mem : slot ∈ slots) (closed : Closed data)
    {other : Address} (mem' : other ∈ slots) (different : other ≠ slot) : store.KeepsHead after other :=
  fun _ head => rewrites.head_eq mem closed mem' different (Nat.lt_trans head (by decide))

theorem fileSize_congr (same : ∀ offset < dataOffset, after.byte (slot + offset) = store.byte (slot + offset)) :
    after.fileSize slot = store.fileSize slot := by
  unfold fileSize readWord
  rw [same sizeOffset (by decide), Nat.add_assoc, same (sizeOffset + 1) (by decide)]

/-- A file in another slot is the same as before. -/
theorem Rewrites.sameFile (rewrites : original.Rewrites original' slot data)
    (rewrites' : copy.Rewrites copy' slot data) (mem : slot ∈ slots) (closed : Closed data) {other : Address}
    (different : other ≠ slot) (file : original.SameFile copy other) : original'.SameFile copy' other := by
  have mem' := file.text.mem
  have size := fileSize_congr fun offset => rewrites.head_eq mem closed mem' different
  have size' := fileSize_congr fun offset => rewrites'.head_eq mem closed mem' different
  refine ⟨?_, ?_, ?_⟩
  · rw [(rewrites.keepsHead mem closed mem' different).fileName_eq,
      (rewrites'.keepsHead mem closed mem' different).fileName_eq, file.name]
  · rw [size, size', file.size]
  · rw [size]
    exact rewrites.sameText rewrites' mem closed file.text fun same => absurd same different

theorem Rewrites.trans (first : store.Rewrites after slot []) (second : after.Rewrites other slot data) :
    store.Rewrites other slot data := by
  refine ⟨second.has, fun place outside => (second.elsewhere place outside).trans (first.elsewhere place ?_)⟩
  exact outside.imp_right fun behind => Nat.le_trans (Nat.add_le_add_left (Nat.zero_le _) _) behind

theorem rewrites_write {offset : Nat} {bytes : List UInt8} (head : offset + bytes.length ≤ dataOffset) :
    store.Rewrites (store.write (slot + offset) bytes) slot [] := by
  refine ⟨trivial, fun other outside => byte_write_of_outside ?_⟩
  simp only [dataAddress, List.length_nil] at outside
  omega

theorem rewrites_mark (mark : UInt8) : store.Rewrites (store.write slot [mark]) slot [] := by
  have head : store.Rewrites (store.write (slot + 0) [mark]) slot [] :=
    rewrites_write (show 1 ≤ dataOffset by decide)
  exact head

theorem rewrites_writeName {name : List UInt8} (short : name.length ≤ nameLimit) :
    store.Rewrites (store.writeName slot name) slot [] := by
  refine rewrites_write ?_
  rw [List.length_append, List.length_singleton]
  exact Nat.le_trans (Nat.add_le_add_left (Nat.succ_le_succ short) _) (by decide)

theorem isPresent_writeName (store : Store) (slot : Address) (name : List UInt8) :
    (store.writeName slot name).isPresent slot = store.isPresent slot :=
  congrArg (· == presentMark) (byte_write_of_outside (.inl (Nat.lt_succ_self _)))

theorem fileSize_writeName (store : Store) (slot : Address) {name : List UInt8} (short : name.length ≤ nameLimit) :
    (store.writeName slot name).fileSize slot = store.fileSize slot := by
  have behind {place : Nat} (behind : slot + sizeOffset ≤ place) :
      (store.writeName slot name).byte place = store.byte place := by
    refine byte_write_of_outside (.inr (Nat.le_trans ?_ behind))
    rw [List.length_append, List.length_singleton, Nat.add_assoc]
    exact Nat.add_le_add_left (Nat.le_trans (Nat.add_le_add_left (Nat.succ_le_succ short) _) (by decide)) _
  rw [fileSize, fileSize, readWord, readWord, behind (Nat.le_refl _), behind (Nat.le_succ _)]

theorem isPresent_erasedMark (store : Store) (mem : slot ∈ slots) :
    (store.write slot [erasedByte]).isPresent slot = false := by
  obtain ⟨index, few, rfl⟩ := mem_slots.mp mem
  have written : (store.write (index * 1024) [erasedByte]).Has (index * 1024) [erasedByte] :=
    has_write (by simp only [List.length_singleton, capacity]; omega)
  rw [isPresent, written.1]
  rfl

theorem rewrites_size (size : Nat) : store.Rewrites (store.writeWord (slot + sizeOffset) size) slot [] :=
  rewrites_write (Nat.le_refl dataOffset)

theorem rewrites_withData (mem : slot ∈ slots) (short : data.length ≤ fileLimit) :
    store.Rewrites (store.withData slot data) slot (data ++ [0]) := by
  refine (rewrites_size data.length).trans ⟨has_write ?_, fun other outside => ?_⟩
  · obtain ⟨index, few, rfl⟩ := mem_slots.mp mem
    rw [List.length_append, List.length_singleton]
    simp only [dataAddress, dataOffset, fileLimit, capacity] at short ⊢
    omega
  · refine byte_write_of_outside (outside.imp_left fun before => ?_)
    exact Nat.lt_of_lt_of_le before (Nat.le_add_right _ _)

theorem fileSize_withData (mem : slot ∈ slots) (short : data.length ≤ fileLimit) :
    (store.withData slot data).fileSize slot = data.length := by
  obtain ⟨index, few, rfl⟩ := mem_slots.mp mem
  have written : (store.writeWord (index * 1024 + sizeOffset) data.length).Has (index * 1024 + sizeOffset)
      [UInt8.ofNat data.length, UInt8.ofNat (data.length / 256)] :=
    has_write (by simp only [List.length_cons, List.length_nil, sizeOffset, capacity]; omega)
  have below {offset : Nat} (head : offset < dataOffset) :
      (store.withData (index * 1024) data).byte (index * 1024 + offset) =
        (store.writeWord (index * 1024 + sizeOffset) data.length).byte (index * 1024 + offset) :=
    byte_write_of_outside (.inl (Nat.add_lt_add_left head _))
  unfold fileSize readWord
  rw [below (by decide), written.1, Nat.add_assoc, below (by decide), ← Nat.add_assoc, written.2.1]
  simp only [UInt8.toNat_ofNat', fileLimit] at short ⊢
  omega

theorem rewrites_withFile (mem : slot ∈ slots) {name : List UInt8} (short : name.length ≤ nameLimit) :
    store.Rewrites (store.withFile slot name) slot [0] :=
  ((rewrites_mark _).trans (rewrites_writeName short)).trans (rewrites_withData mem (Nat.zero_le _))

section SameFiles

variable (same : original.SameFiles copy)
include same

theorem SameFiles.find?_eq (name : List UInt8) : copy.find? name = original.find? name := by
  rw [find?, find?, ← List.head?_filter, ← List.head?_filter]
  refine congrArg List.head? (List.filter_congr fun slot mem => ?_)
  rw [same.present slot mem]
  cases present : original.isPresent slot with
  | false => rfl
  | true => rw [(same.file slot mem present).name]

theorem SameFiles.freeSlot?_eq : copy.freeSlot? = original.freeSlot? := by
  rw [freeSlot?, freeSlot?, ← List.head?_filter, ← List.head?_filter]
  refine congrArg List.head? (List.filter_congr fun slot mem => ?_)
  rw [same.present slot mem]

theorem SameFiles.file_of_find? {name : List UInt8} (found : original.find? name = some slot) :
    original.SameFile copy slot := by
  obtain ⟨mem, present, -⟩ := find?_spec found
  exact same.file slot mem present

end SameFiles

theorem SameFile.readData_eq (file : original.SameFile copy slot) (index amount : Int) :
    copy.readData slot index amount = original.readData slot index amount := by
  unfold readData
  rw [file.size]
  dsimp only
  split
  · rfl
  split
  · rfl
  · rw [read_congr fun offset within => ?_]
    rw [Nat.add_assoc]
    exact file.text.same _ (by omega)

theorem lineStart_congr {lowest : Address}
    (same : ∀ place : Nat, lowest ≤ place → place < address → copy.byte place = original.byte place) :
    copy.lineStart lowest address = original.lineStart lowest address := by
  induction address with
  | zero => rfl
  | succ address ih =>
      unfold lineStart
      by_cases above : lowest < address + 1
      · rw [same address (Nat.le_of_lt_succ above) (Nat.lt_succ_self _),
          ih fun place least less => same place least (Nat.lt_succ_of_lt less)]
      · simp [above]

theorem lineStart_bounds (store : Store) {lowest address : Nat} (above : lowest ≤ address) :
    lowest ≤ store.lineStart lowest address ∧ store.lineStart lowest address ≤ address := by
  induction address with
  | zero => exact ⟨above, Nat.le_refl _⟩
  | succ address ih =>
      unfold lineStart
      split
      · next goesOn =>
        obtain ⟨least, most⟩ := ih (Nat.le_of_lt_succ goesOn.1)
        exact ⟨least, Nat.le_succ_of_le most⟩
      · exact ⟨above, Nat.le_refl _⟩

/-- The line of an address of data is looked for in the slot of that address. -/
theorem sourceLine_eq (store : Store) (mem : slot ∈ slots) {offset : Nat} (short : offset ≤ fileLimit) :
    store.sourceLine (dataAddress slot + offset) =
      Symbol.decode (store.lineFrom (store.lineStart (dataAddress slot) (dataAddress slot + offset))) := by
  obtain ⟨index, -, rfl⟩ := mem_slots.mp mem
  have slot_eq : index * 1024 + dataOffset + offset - (index * 1024 + dataOffset + offset) % slotSize = index * 1024 := by
    simp only [dataOffset, fileLimit, slotSize] at short ⊢
    omega
  unfold sourceLine
  exact congrArg (fun slot => Symbol.decode (store.lineFrom (store.lineStart (dataAddress slot) _))) slot_eq

end Store

/-- Two stores with the same files. An apostrophe of the original is in no bytes that
    were left behind. -/
structure Copies where
  original : Store
  copy : Store
  files : original.SameFiles copy
  quoted : original.Quoted copy

namespace Copies

open Store

variable {copies later : Copies} {own? : Option Address} {slot address : Address} {data : List UInt8}

/-- More text is the same, and stores that were equal still are. -/
instance : Preorder Copies where
  le copies later := (copies.copy = copies.original → later.copy = later.original) ∧
    ∀ slot address, copies.original.Shares copies.copy slot address → later.original.Shares later.copy slot address
  le_refl _ := ⟨id, fun _ _ => id⟩
  le_trans _ _ _ first second :=
    ⟨second.1 ∘ first.1, fun slot address shares => second.2 slot address (first.2 slot address shares)⟩

/-- Reading code from an address comes to the same in both stores: it lies in the
    slot that is named, or in any slot if none is named. -/
def Knows (copies : Copies) : (own? : Option Address) → Address → Prop
  | some slot, address => copies.original.Shares copies.copy slot address
  | none, address => copies.copy = copies.original ∨ ∃ slot, copies.original.Shares copies.copy slot address

namespace Knows

theorem anywhere (knows : copies.Knows own? address) : copies.Knows none address := by
  cases own? with
  | none => exact knows
  | some slot => exact .inr ⟨slot, knows⟩

theorem mono (more : copies ≤ later) (knows : copies.Knows own? address) : later.Knows own? address := by
  cases own? with
  | none => exact knows.imp more.1 fun ⟨slot, shares⟩ => ⟨slot, more.2 slot address shares⟩
  | some slot => exact more.2 slot address knows

theorem byte_eq (knows : copies.Knows own? address) : copies.copy.byte address = copies.original.byte address := by
  obtain same | ⟨slot, shares⟩ := knows.anywhere
  · rw [same]
  · exact shares.byte_eq

theorem next (knows : copies.Knows own? address) (more : copies.original.byte address ≠ 0) :
    copies.Knows own? (address + 1) := by
  cases own? with
  | none => exact knows.imp id fun ⟨slot, shares⟩ => ⟨slot, shares.next more⟩
  | some slot => exact Shares.next knows more

theorem next_of_eq {byte : UInt8} (knows : copies.Knows own? address) (here : copies.original.byte address = byte)
    (more : byte ≠ 0) : copies.Knows own? (address + 1) :=
  knows.next (here ▸ more)

end Knows

theorem knows_data {name : List UInt8} (found : copies.original.find? name = some slot) :
    copies.Knows (some slot) (dataAddress slot) :=
  (copies.files.file_of_find? found).text.shares

/-- Both stores give the same bytes, and code goes on behind them. -/
def SameBytes (copies : Copies) (own? : Option Address) (address : Address) (bytes? bytes?' : Option (List UInt8)) :
    Prop :=
  bytes?' = bytes? ∧ ∀ bytes, bytes? = some bytes → copies.Knows own? (address + bytes.length)

theorem SameBytes.cons {bytes? bytes?' : Option (List UInt8)}
    (same : copies.SameBytes own? (address + 1) bytes? bytes?') (byte : UInt8) :
    copies.SameBytes own? address (bytes?.map (byte :: ·)) (bytes?'.map (byte :: ·)) := by
  obtain ⟨rfl, behind⟩ := same
  refine ⟨rfl, fun bytes read => ?_⟩
  obtain ⟨rest, here, rfl⟩ := Option.map_eq_some_iff.mp read
  rw [List.length_cons, Nat.add_comm rest.length, ← Nat.add_assoc]
  exact behind rest here

theorem Knows.sameNothing (knows : copies.Knows own? address) : copies.SameBytes own? address (some []) (some []) :=
  ⟨rfl, fun _ nothing => Option.some.inj nothing ▸ knows⟩

namespace Knows

variable {stop : UInt8 → Bool}

theorem scanWithin (closes : stop 0 = true) (knows : copies.Knows own? address) (count : Nat) :
    copies.copy.scanWithin stop count address = copies.original.scanWithin stop count address ∧
      copies.Knows own? (address + (copies.original.scanWithin stop count address).length) := by
  induction count generalizing address with
  | zero => exact ⟨rfl, knows⟩
  | succ count ih =>
      simp only [Store.scanWithin, knows.byte_eq]
      split
      · exact ⟨rfl, knows⟩
      · next goesOn =>
        have more : copies.original.byte address ≠ 0 := fun zero => goesOn (zero ▸ closes)
        obtain ⟨same, behind⟩ := ih (knows.next more)
        rw [same, List.length_cons, Nat.add_comm (List.length _), ← Nat.add_assoc]
        exact ⟨rfl, behind⟩

theorem scan (closes : stop 0 = true) (knows : copies.Knows own? address) :
    copies.copy.scan stop address = copies.original.scan stop address ∧
      copies.Knows own? (address + (copies.original.scan stop address).length) :=
  knows.scanWithin closes _

theorem lineFrom_eq (knows : copies.Knows own? address) :
    copies.copy.lineFrom address = copies.original.lineFrom address :=
  (knows.scan rfl).1

theorem lineEnd_eq (knows : copies.Knows own? address) :
    copies.copy.lineEnd address = copies.original.lineEnd address := by
  rw [lineEnd, lineEnd, knows.lineFrom_eq]

theorem lineEnd (knows : copies.Knows own? address) : copies.Knows own? (copies.original.lineEnd address) :=
  (knows.scan rfl).2

theorem parameterCount_eq {header : Address} (knows : copies.Knows own? (header + 1)) :
    copies.copy.parameterCount header = copies.original.parameterCount header := by
  rw [parameterCount, parameterCount, knows.lineFrom_eq]

theorem parameterAt (knows : copies.Knows own? address) :
    copies.copy.parameterAt address = copies.original.parameterAt address ∧
      copies.Knows own? (copies.original.parameterAt address).2 := by
  obtain ⟨same, behind⟩ :=
    (knows.scan rfl : _ ∧ copies.Knows own? (address + (copies.original.scan endsParameter address).length))
  unfold Store.parameterAt
  dsimp only
  rw [same, behind.byte_eq]
  refine ⟨rfl, ?_⟩
  split
  · next comma => exact behind.next_of_eq comma (by decide)
  · exact behind

theorem restOfName? (knows : copies.Knows own? address) (room : Nat) :
    copies.SameBytes own? address (copies.original.restOfName? room address)
      (copies.copy.restOfName? room address) := by
  induction room generalizing address with
  | zero => exact ⟨rfl, nofun⟩
  | succ room ih =>
      simp only [Store.restOfName?, knows.byte_eq]
      split
      · next goesOn =>
        refine (ih (knows.next fun zero => ?_)).cons _
        exact absurd (zero ▸ goesOn) (by decide)
      · exact knows.sameNothing

theorem name? (knows : copies.Knows own? address) :
    copies.SameBytes own? address (copies.original.name? address) (copies.copy.name? address) := by
  simp only [Store.name?, knows.byte_eq]
  split
  · next starts =>
    refine ((knows.next fun zero => ?_).restOfName? (variableNameLimit - 1)).cons _
    exact absurd (zero ▸ starts) (by decide)
  · exact knows.sameNothing

theorem restOfNumber? (knows : copies.Knows own? address) (room : Nat) (last : UInt8) :
    copies.SameBytes own? address (copies.original.restOfNumber? room last address)
      (copies.copy.restOfNumber? room last address) := by
  induction room generalizing address last with
  | zero => exact ⟨rfl, nofun⟩
  | succ room ih =>
      simp only [Store.restOfNumber?, knows.byte_eq]
      split
      · next goesOn =>
        refine (ih (knows.next fun zero => ?_) _).cons _
        simp [zero, continuesNumber, Symbol.isDigit] at goesOn
      · exact knows.sameNothing

theorem restOfString? (knows : copies.Knows own? address) (count : Nat) (escaped : Bool) :
    copies.copy.restOfString? count escaped address = copies.original.restOfString? count escaped address ∧
      ∀ bytes after, copies.original.restOfString? count escaped address = some (bytes, after) →
        copies.Knows own? after := by
  induction count generalizing address escaped with
  | zero => exact ⟨rfl, nofun⟩
  | succ count ih =>
      simp only [Store.restOfString?, knows.byte_eq]
      split
      · exact ⟨rfl, nofun⟩
      · next more =>
        have goesOn (escaped : Bool) (byte : UInt8) :
            (copies.copy.restOfString? count escaped (address + 1)).map (fun read => (byte :: read.1, read.2)) =
              (copies.original.restOfString? count escaped (address + 1)).map
                (fun read => (byte :: read.1, read.2)) ∧
            ∀ bytes after, (copies.original.restOfString? count escaped (address + 1)).map
              (fun read => (byte :: read.1, read.2)) = some (bytes, after) → copies.Knows own? after := by
          obtain ⟨same, behind⟩ := ih (knows.next more) escaped
          rw [same]
          refine ⟨rfl, fun bytes after read => ?_⟩
          obtain ⟨⟨rest, after'⟩, here, pair⟩ := Option.map_eq_some_iff.mp read
          obtain ⟨-, rfl⟩ := Prod.mk.inj pair
          exact behind rest after' here
        split
        · exact goesOn false _
        split
        · exact ih (knows.next more) true
        split
        · refine ⟨rfl, fun bytes after read => ?_⟩
          obtain ⟨-, rfl⟩ := Prod.mk.inj (Option.some.inj read)
          exact knows.next more
        · exact goesOn false _

/-- The byte behind code is the same in both stores, unless it is behind the zero
    that closes the code, and no apostrophe in the original. -/
theorem behind (knows : copies.Knows own? address) :
    copies.copy.byte (address + 1) = copies.original.byte (address + 1) ∧
        (copies.original.byte (address + 1) = 0x27 → copies.Knows own? (address + 2)) ∨
      copies.original.byte address = 0 ∧ copies.original.byte (address + 1) ≠ 0x27 := by
  have known (knows : copies.Knows own? (address + 1)) :
      copies.copy.byte (address + 1) = copies.original.byte (address + 1) ∧
        (copies.original.byte (address + 1) = 0x27 → copies.Knows own? (address + 2)) :=
    ⟨knows.byte_eq, fun quote => knows.next_of_eq quote (by decide)⟩
  have quoted {slot : Address} (shares : copies.original.Shares copies.copy slot address)
      (quote : copies.original.byte (address + 1) = 0x27) :
      copies.original.Shares copies.copy slot (address + 1) := by
    obtain ⟨length, offset, text, within, rfl⟩ := shares
    exact copies.quoted slot text.mem (offset + 1) (Nat.succ_le_succ (Nat.le_trans within text.short)) quote
  by_cases more : copies.original.byte address = 0
  · by_cases quote : copies.original.byte (address + 1) = 0x27
    · refine .inl (known ?_)
      cases own? with
      | none => exact Or.imp id (fun ⟨slot, shares⟩ => ⟨slot, quoted shares quote⟩) knows
      | some slot => exact quoted knows quote
    · exact .inr ⟨more, quote⟩
  · exact .inl (known (knows.next more))

end Knows

/-- A fault in known code is reported with the same line. -/
theorem Knows.sourceLine_eq (knows : copies.Knows own? address) :
    copies.copy.sourceLine address = copies.original.sourceLine address := by
  obtain same | ⟨slot, length, offset, text, within, rfl⟩ := knows.anywhere
  · rw [same]
  have short := Nat.le_trans within text.short
  rw [sourceLine_eq _ text.mem short, sourceLine_eq _ text.mem short]
  generalize lowest_eq : dataAddress slot = lowest
  obtain ⟨least, most⟩ := copies.original.lineStart_bounds (Nat.le_add_right lowest offset)
  obtain ⟨back, line⟩ := Nat.exists_eq_add_of_le least
  have early : back ≤ length := Nat.le_trans (Nat.le_of_add_le_add_left (line ▸ most)) within
  have known : copies.Knows (some slot) (lowest + back) := ⟨length, back, text, early, by rw [lowest_eq]⟩
  have same : copies.copy.lineStart lowest (lowest + offset) = copies.original.lineStart lowest (lowest + offset) := by
    refine lineStart_congr fun place least less => ?_
    obtain ⟨back, rfl⟩ := Nat.exists_eq_add_of_le least
    have before : back ≤ length := Nat.le_trans (Nat.le_of_lt (Nat.lt_of_add_lt_add_left less)) within
    exact lowest_eq ▸ text.same back before
  rw [same, line, known.lineFrom_eq]

/-- An operation on files ends the same way on both stores, with copies of which at
    least as much text is the same. -/
def Ends {α : Type} (copies : Copies) (operation : StoreM α) : Prop :=
  ∃ later : Copies, copies ≤ later ∧
    ((∃ result, operation copies.original = .ok result later.original ∧ operation copies.copy = .ok result later.copy) ∨
      ∃ error, operation copies.original = .error error later.original ∧
        operation copies.copy = .error error later.copy)

/-- The same data was written in a slot of both stores. -/
theorem exists_rewritten {original copy : Store} (mem : slot ∈ slots) (closed : Closed data)
    (rewrites : copies.original.Rewrites original slot data) (rewrites' : copies.copy.Rewrites copy slot data)
    (same : copies.copy = copies.original → copy = original) (present : copy.isPresent slot = original.isPresent slot)
    (file : original.isPresent slot = true → original.SameFile copy slot) :
    ∃ later : Copies, copies ≤ later ∧ later.original = original ∧ later.copy = copy := by
  refine ⟨⟨original, copy, ⟨fun other mem' => ?_, fun other mem' there => ?_⟩,
    rewrites.quoted rewrites' mem closed copies.quoted⟩,
    ⟨same, fun _ _ => rewrites.shares rewrites' mem closed⟩, rfl, rfl⟩
  · by_cases here : other = slot
    · exact here ▸ present
    · rw [(rewrites.keepsHead mem closed mem' here).isPresent_eq,
        (rewrites'.keepsHead mem closed mem' here).isPresent_eq, copies.files.present other mem']
  · by_cases here : other = slot
    · exact here ▸ file (here ▸ there)
    · rw [(rewrites.keepsHead mem closed mem' here).isPresent_eq] at there
      exact rewrites.sameFile rewrites' mem closed here (copies.files.file other mem' there)

theorem ends_refused {α : Type} {operation : StoreM α} (error : FileError)
    (refused : operation copies.original = .error error copies.original)
    (refused' : operation copies.copy = .error error copies.copy) : copies.Ends operation :=
  ⟨copies, le_refl _, .inr ⟨error, refused, refused'⟩⟩

theorem ends_writeData (mem : slot ∈ slots) (data : List UInt8) : copies.Ends (writeData slot data) := by
  have ran := writeData_eq slot data
  by_cases long : fileLimit < data.length
  · simp only [if_pos long] at ran
    exact ends_refused _ (ran _) (ran _)
  simp only [if_neg long] at ran
  have short := Nat.le_of_not_lt long
  have head (store : Store) : store.KeepsHead (store.withData slot data) slot := keepsHeads_withData mem short slot mem
  have rewrites (store : Store) : store.Rewrites (store.withData slot data) slot (data ++ [0]) :=
    rewrites_withData mem short
  obtain ⟨later, more, original, copy⟩ := exists_rewritten mem (.inr ⟨data, short, rfl⟩) (rewrites _) (rewrites _)
    (fun same => by rw [same])
    (by rw [(head _).isPresent_eq, (head _).isPresent_eq, copies.files.present slot mem])
    (fun there => by
      rw [(head _).isPresent_eq] at there
      refine ⟨?_, ?_, ?_⟩
      · rw [(head _).fileName_eq, (head _).fileName_eq, (copies.files.file slot mem there).name]
      · rw [fileSize_withData mem short, fileSize_withData mem short]
      · rw [fileSize_withData mem short]
        exact .written mem short (rewrites _).has (rewrites _).has)
  exact ⟨later, more, .inl ⟨(), original ▸ ran _, copy ▸ ran _⟩⟩

theorem ends_delete (name : List UInt8) : copies.Ends (delete name) := by
  have ran := delete_eq name
  have ran' := ran copies.copy
  rw [copies.files.find?_eq] at ran'
  cases found : copies.original.find? name with
  | none =>
      simp only [found] at ran'
      exact ends_refused _ (by rw [ran, found]) ran'
  | some slot =>
      simp only [found] at ran'
      obtain ⟨mem, -, -⟩ := find?_spec found
      have gone (store : Store) := store.isPresent_erasedMark mem
      obtain ⟨later, more, original, copy⟩ := exists_rewritten mem (.inl rfl) (rewrites_mark erasedByte)
        (rewrites_mark erasedByte) (fun same => by rw [same]) (by rw [gone, gone])
        (fun there => by rw [gone] at there; cases there)
      exact ⟨later, more, .inl ⟨(), by rw [ran, found, original], copy ▸ ran'⟩⟩

theorem ends_rename (name newName : List UInt8) : copies.Ends (rename name newName) := by
  have ran := rename_eq name newName
  have ran' := ran copies.copy
  rw [copies.files.find?_eq, copies.files.find?_eq] at ran'
  cases found : copies.original.find? name with
  | none =>
      simp only [found] at ran'
      exact ends_refused _ (by rw [ran, found]) ran'
  | some slot =>
      have ran := ran copies.original
      simp only [found] at ran ran'
      split at ran
      · next long =>
        rw [if_pos long] at ran'
        exact ends_refused _ ran ran'
      next long =>
      rw [if_neg long] at ran'
      split at ran
      · next used =>
        rw [if_pos used] at ran'
        exact ends_refused _ ran ran'
      next unused =>
      rw [if_neg unused] at ran'
      obtain ⟨mem, present, -⟩ := find?_spec found
      have short := Nat.le_of_not_lt long
      have rewrites (store : Store) : store.Rewrites (store.writeName slot newName) slot [] := rewrites_writeName short
      have mark (store : Store) := store.isPresent_writeName slot newName
      have size (store : Store) := store.fileSize_writeName slot short
      have file := copies.files.file slot mem present
      obtain ⟨later, more, original, copy⟩ := exists_rewritten mem (.inl rfl) (rewrites _) (rewrites _)
        (fun same => by rw [same]) (by rw [mark, mark, copies.files.present slot mem])
        (fun _ => by
          refine ⟨?_, ?_, ?_⟩
          · rw [fileName_writeName mem short, fileName_writeName mem short]
          · rw [size, size, file.size]
          · rw [size]
            exact (rewrites _).sameText (rewrites _) mem (.inl rfl) file.text fun _ => Nat.zero_le _)
      exact ⟨later, more, .inl ⟨(), original ▸ ran, copy ▸ ran'⟩⟩

theorem ends_create (name : List UInt8) : copies.Ends (create name) := by
  have ran := create_eq name
  have ran' := ran copies.copy
  rw [copies.files.find?_eq, copies.files.freeSlot?_eq] at ran'
  have ran := ran copies.original
  split at ran
  · next long =>
    rw [if_pos long] at ran'
    exact ends_refused _ ran ran'
  next long =>
  rw [if_neg long] at ran'
  split at ran
  · next used =>
    rw [if_pos used] at ran'
    exact ends_refused _ ran ran'
  next unused =>
  rw [if_neg unused] at ran'
  cases free : copies.original.freeSlot? with
  | none =>
      simp only [free] at ran ran'
      exact ends_refused _ ran ran'
  | some slot =>
      simp only [free] at ran ran'
      have mem := List.mem_of_find?_eq_some free
      have short := Nat.le_of_not_lt long
      have none : copies.original.find? name = none := Option.not_isSome_iff_eq_none.mp unused
      have names := names_withFile mem short none
      have names' := names_withFile mem short ((copies.files.find?_eq name).trans none)
      have rewrites (store : Store) : store.Rewrites (store.withFile slot name) slot ([] ++ [0]) :=
        rewrites_withFile mem short
      have empty (store : Store) : (store.withFile slot name).fileSize slot = 0 :=
        fileSize_withData mem (Nat.zero_le _)
      obtain ⟨later, more, original, copy⟩ := exists_rewritten mem (.inr ⟨[], Nat.zero_le _, rfl⟩) (rewrites _)
        (rewrites _) (fun same => by rw [same]) (by rw [names.present, names'.present])
        (fun _ => by
          refine ⟨?_, ?_, ?_⟩
          · rw [names.named, names'.named]
          · rw [empty, empty]
          · rw [empty]
            exact .written mem (Nat.zero_le _) (rewrites _).has (rewrites _).has)
      exact ⟨later, more, .inl ⟨slot, original ▸ ran, copy ▸ ran'⟩⟩

end Copies

end PocketScript
