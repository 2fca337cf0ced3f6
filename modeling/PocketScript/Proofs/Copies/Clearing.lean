import PocketScript.Console.Script
import PocketScript.Proofs.Copies.Evaluations
import PocketScript.Proofs.Schedule.Runs

/-! # Bytes that were left behind do not run

A store is cleared by setting every byte to zero that no file has. Programs run on a
store as they do on the cleared store, unless they end there at a character literal
that the end of the code cuts off: on the store itself, that literal may be closed by
a byte that was left behind. Hence programs run alike on all stores with the same
files.
-/

namespace PocketScript

namespace Store

variable {store other : Store} {slot offset : Nat}

/-- A byte belongs to the file in its slot: the mark, the name and the zero that closes
    it, the size, or the data and the zero that closes it. -/
def belongs (store : Store) (slot offset : Nat) : Bool :=
  store.isPresent slot &&
    (offset == 0 || (decide (offset < sizeOffset) && decide (offset ≤ nameOffset + (store.fileName slot).length)) ||
      (decide (sizeOffset ≤ offset) && decide (offset ≤ dataOffset + store.fileSize slot)))

/-- A store with the same files and with zeros everywhere else. -/
def cleared (store : Store) : Store :=
  ⟨Vector.ofFn fun address =>
    if store.belongs (address.val - address.val % slotSize) (address.val % slotSize) then store.byte address.val else 0⟩

theorem byte_cleared (store : Store) (address : Nat) : store.cleared.byte address =
    if store.belongs (address - address % slotSize) (address % slotSize) then store.byte address else 0 := by
  by_cases inside : address < capacity
  · rw [byte, cleared, Vector.getElem?_ofFn, dif_pos (show address < 32768 from inside), Option.getD_some]
  · have beyond (store : Store) : store.byte address = 0 := not_not.mp fun some_byte => inside (lt_capacity some_byte)
    rw [beyond, beyond, ite_self]

theorem byte_cleared_slot (mem : slot ∈ slots) (within : offset < slotSize) :
    store.cleared.byte (slot + offset) = if store.belongs slot offset then store.byte (slot + offset) else 0 := by
  obtain ⟨index, -, rfl⟩ := mem_slots.mp mem
  have rest : (index * 1024 + offset) % slotSize = offset := by
    rw [slotSize] at within ⊢
    omega
  rw [byte_cleared, rest, Nat.add_sub_cancel]

theorem byte_cleared_of_belongs (mem : slot ∈ slots) (within : offset < slotSize)
    (belongs : store.belongs slot offset = true) : store.cleared.byte (slot + offset) = store.byte (slot + offset) := by
  rw [byte_cleared_slot mem within, if_pos belongs]

/-- The bytes of a name up to the zero that closes it decide it. -/
theorem takeWhile_congr {bytes bytes' : List UInt8} (same : ∀ index ≤ (bytes.takeWhile (· != 0)).length,
    bytes'[index]? = bytes[index]?) : bytes'.takeWhile (· != 0) = bytes.takeWhile (· != 0) := by
  induction bytes generalizing bytes' with
  | nil =>
      have first := same 0 (Nat.zero_le _)
      cases bytes' with
      | nil => rfl
      | cons byte rest => simp at first
  | cons byte rest ih =>
      have first := same 0 (Nat.zero_le _)
      cases bytes' with
      | nil => simp at first
      | cons byte' rest' =>
          obtain rfl : byte' = byte := by simpa using first
          by_cases zero : byte' = 0
          · simp [zero]
          · have more : (byte' != 0) = true := bne_iff_ne.mpr zero
            rw [List.takeWhile_cons, if_pos more] at same ⊢
            rw [List.takeWhile_cons, if_pos more, ih fun index within => ?_]
            simpa using same (index + 1) (Nat.succ_le_succ within)

theorem read_getElem? (store : Store) (address : Address) {count index : Nat} (within : index < count) :
    (store.read address count)[index]? = some (store.byte (address + index)) := by
  simp [read, within]

theorem fileName_cleared (mem : slot ∈ slots) (present : store.isPresent slot = true) :
    store.cleared.fileName slot = store.fileName slot := by
  refine takeWhile_congr fun index within => ?_
  by_cases inside : index < nameLimit + 1
  · rw [read_getElem? _ _ inside, read_getElem? _ _ inside, Nat.add_assoc]
    refine congrArg some (byte_cleared_of_belongs mem ?_ ?_)
    · simp only [nameLimit, nameOffset, slotSize] at inside ⊢
      omega
    · have named : nameOffset + index ≤ nameOffset + (store.fileName slot).length := Nat.add_le_add_left within _
      have front : nameOffset + index < sizeOffset := by
        simp only [nameLimit, nameOffset, sizeOffset] at inside ⊢
        omega
      simp [belongs, present, named, front]
  · have beyond (store : Store) : (store.read (slot + nameOffset) (nameLimit + 1))[index]? = none := by
      simpa [read] using Nat.le_of_not_lt inside
    rw [beyond, beyond]

theorem isPresent_cleared (store : Store) (mem : slot ∈ slots) :
    store.cleared.isPresent slot = store.isPresent slot := by
  have first : store.cleared.byte (slot + 0) = _ := byte_cleared_slot mem (by decide)
  cases present : store.isPresent slot with
  | true =>
      rw [if_pos (by simp [belongs, present])] at first
      rw [← present]
      exact congrArg (· == presentMark) first
  | false =>
      rw [if_neg (by simp [belongs, present])] at first
      exact congrArg (· == presentMark) first

theorem byte_cleared_behind (mem : slot ∈ slots) (present : store.isPresent slot = true) (behind : sizeOffset ≤ offset)
    (within : offset ≤ dataOffset + store.fileSize slot) (inside : offset < slotSize) :
    store.cleared.byte (slot + offset) = store.byte (slot + offset) :=
  byte_cleared_of_belongs mem inside (by simp [belongs, present, behind, within])

theorem fileSize_cleared (mem : slot ∈ slots) (present : store.isPresent slot = true) :
    store.cleared.fileSize slot = store.fileSize slot := by
  have head (offset : Nat) (behind : sizeOffset ≤ offset) (head : offset < dataOffset) :=
    byte_cleared_behind mem present behind (Nat.le_trans (Nat.le_of_lt head) (Nat.le_add_right _ _))
      (Nat.lt_trans head (by decide))
  unfold fileSize readWord
  rw [head sizeOffset (by decide) (by decide), Nat.add_assoc, head (sizeOffset + 1) (by decide) (by decide)]

theorem SameText.trans {length : Nat} {third : Store} (first : store.SameText other slot length)
    (second : other.SameText third slot length) : store.SameText third slot length :=
  ⟨first.mem, first.short, fun place within => (second.same place within).trans (first.same place within), first.closed⟩

theorem SameFiles.trans {third : Store} (first : store.SameFiles other) (second : other.SameFiles third) :
    store.SameFiles third := by
  refine ⟨fun slot mem => (second.present slot mem).trans (first.present slot mem), fun slot mem present => ?_⟩
  have file := first.file slot mem present
  have file' := second.file slot mem ((first.present slot mem).trans present)
  exact ⟨file'.name.trans file.name, file'.size.trans file.size, file.text.trans (file.size ▸ file'.text)⟩

/-- The cleared store has the same files, if every file is closed by a zero. -/
theorem SameFiles.cleared (same : store.SameFiles other) : store.cleared.SameFiles store := by
  refine ⟨fun slot mem => (isPresent_cleared store mem).symm, fun slot mem present => ?_⟩
  rw [isPresent_cleared store mem] at present
  have text := (same.file slot mem present).text
  have data (place : Nat) (within : place ≤ store.fileSize slot) :
      store.cleared.byte (dataAddress slot + place) = store.byte (dataAddress slot + place) := by
    have inside : dataOffset + place < slotSize := by
      have short := Nat.le_trans within text.short
      simp only [fileLimit, dataOffset, slotSize] at short ⊢
      omega
    rw [dataAddress, Nat.add_assoc]
    exact byte_cleared_behind mem present (Nat.le_trans (by decide) (Nat.le_add_right dataOffset place))
      (Nat.add_le_add_left within _) inside
  refine ⟨(fileName_cleared mem present).symm, (fileSize_cleared mem present).symm, ?_⟩
  rw [fileSize_cleared mem present]
  exact ⟨mem, text.short, fun place within => (data place within).symm, by rw [data _ (Nat.le_refl _), text.closed]⟩

/-- Where the cleared store has an apostrophe there is text of a file. -/
theorem SameFiles.quoted_cleared (same : store.cleared.SameFiles other) : store.cleared.Quoted other := by
  intro slot mem offset within quote
  have inside : dataOffset + offset < slotSize := by
    simp only [fileLimit, dataOffset, slotSize] at within ⊢
    omega
  have here : store.belongs slot (dataOffset + offset) = true := by
    by_contra stray
    rw [dataAddress, Nat.add_assoc, byte_cleared_slot mem inside, if_neg stray] at quote
    cases quote
  have data : ¬dataOffset + offset < sizeOffset := by simp only [dataOffset, sizeOffset]; omega
  simp only [belongs, Bool.and_eq_true, Bool.or_eq_true, beq_iff_eq, decide_eq_true_eq, data, false_and,
    or_false] at here
  obtain ⟨present, first | ⟨-, belongs⟩⟩ := here
  · simp [dataOffset] at first
  have present' := (isPresent_cleared store mem).trans present
  refine ⟨_, offset, (same.file slot mem present').text, ?_, rfl⟩
  rw [fileSize_cleared mem present]
  exact Nat.le_of_add_le_add_left belongs

/-- The cleared store, next to a store with the same files. -/
def copiesOfCleared (same : store.SameFiles other) : Copies :=
  ⟨store.cleared, other, same.cleared.trans same, (same.cleared.trans same).quoted_cleared⟩

theorem SameText.symm (text : store.SameText other slot length) : other.SameText store slot length :=
  ⟨text.mem, text.short, fun place within => (text.same place within).symm,
    (text.same _ (Nat.le_refl _)).trans text.closed⟩

theorem SameFiles.symm (same : store.SameFiles other) : other.SameFiles store := by
  refine ⟨fun slot mem => (same.present slot mem).symm, fun slot mem present => ?_⟩
  have file := same.file slot mem ((same.present slot mem).symm.trans present)
  exact ⟨file.name.symm, file.size.symm, file.size ▸ file.text.symm⟩

instance (store other : Store) (slot : Address) (length : Nat) : Decidable (store.SameText other slot length) :=
  decidable_of_iff (slot ∈ slots ∧ length ≤ fileLimit ∧
      (∀ offset ≤ length, other.byte (dataAddress slot + offset) = store.byte (dataAddress slot + offset)) ∧
      store.byte (dataAddress slot + length) = 0)
    ⟨fun ⟨mem, short, same, closed⟩ => ⟨mem, short, same, closed⟩,
      fun ⟨mem, short, same, closed⟩ => ⟨mem, short, same, closed⟩⟩

instance (store other : Store) (slot : Address) : Decidable (store.SameFile other slot) :=
  decidable_of_iff (other.fileName slot = store.fileName slot ∧ other.fileSize slot = store.fileSize slot ∧
      store.SameText other slot (store.fileSize slot))
    ⟨fun ⟨name, size, text⟩ => ⟨name, size, text⟩, fun ⟨name, size, text⟩ => ⟨name, size, text⟩⟩

/-- Past an image there are no files. -/
theorem isPresent_ofImage {image : Array UInt8} (mem : slot ∈ slots) (beyond : image.size ≤ slot) :
    (ofImage image).isPresent slot = false := by
  obtain ⟨index, few, rfl⟩ := mem_slots.mp mem
  have inside : index * 1024 < 32768 := by omega
  rw [isPresent, byte, ofImage, Vector.getElem?_ofFn, dif_pos inside, Option.getD_some, Array.getD,
    dif_neg (by simpa using beyond)]
  rfl

/-- Images of the first slot have the same files if it has the same file in both. -/
theorem sameFiles_ofImage {image image' : Array UInt8} (short : image.size ≤ slotSize) (short' : image'.size ≤ slotSize)
    (present : (ofImage image').isPresent 0 = (ofImage image).isPresent 0)
    (file : (ofImage image).SameFile (ofImage image') 0) : (ofImage image).SameFiles (ofImage image') := by
  have behind {slot : Nat} (mem : slot ∈ slots) (other : slot ≠ 0) : slotSize ≤ slot := by
    obtain ⟨index, -, rfl⟩ := mem_slots.mp mem
    rw [slotSize]
    omega
  refine ⟨fun slot mem => ?_, fun slot mem there => ?_⟩
  · by_cases first : slot = 0
    · rw [first, present]
    · rw [isPresent_ofImage mem (Nat.le_trans short' (behind mem first)),
        isPresent_ofImage mem (Nat.le_trans short (behind mem first))]
  · by_cases first : slot = 0
    · exact first ▸ file
    · rw [isPresent_ofImage mem (Nat.le_trans short (behind mem first))] at there
      cases there

end Store

namespace Machine

open Eval (Still Coincides Quiet Coincident)

variable {κ : Type} [Console κ] {copies : Copies} {machine : Machine κ} {slot : Address}

/-- A run failed at a character literal that the end of the code cuts off. -/
def EndsCutOff (run : Outcome × Machine κ) : Prop :=
  ∃ address, run.1 = .failed ⟨.program .missingApostrophe, address⟩ ∧ run.2.store.CutsOff address

/-- Two runs ended the same way, asked the same of the console and left the same
    files. -/
structure SameEnd (run run' : Outcome × Machine κ) : Prop where
  outcome : run'.1 = run.1
  console : run'.2.console = run.2.console
  files : run.2.store.SameFiles run'.2.store

theorem coincides_runGlobal (steps : Nat) (known : copies.Knows none (Store.dataAddress slot)) :
    Coincides copies (runGlobal (κ := κ) steps slot) fun later value => value.LeadsTo (later.Knows none) := by
  unfold runGlobal
  refine Still.then (Quiet.onMemory known Memory.leads_pushScope) fun scope _ => ?_
  refine Still.then (Quiet.onMemory known (Memory.leads_pushBranch nofun)) fun _ _ => ?_
  refine Still.then (Quiet.modifyRoots _) fun _ _ => .get_bind (fun _ _ => rfl) fun machine _ => ?_
  exact coincides_runCode (fun _ _ known => coincides_evaluate steps _ (fun _ _ => rfl) known _) steps known

theorem store_finish (machine : Machine κ) (outcome : Outcome) : (machine.finish outcome).2.store = machine.store := by
  unfold finish
  dsimp only
  split <;> rfl

/-- A fault is reported on copies with the same line. -/
theorem WorksOn.finish (works : machine.WorksOn copies) (outcome : Outcome) :
    SameEnd (machine.finish outcome) ((machine.withStore copies.copy).finish outcome) := by
  have files : (machine.finish outcome).2.store.SameFiles ((machine.withStore copies.copy).finish outcome).2.store := by
    rw [store_finish, store_finish, works.store]
    exact copies.files
  refine ⟨?_, ?_, files⟩ <;> unfold Machine.finish <;> dsimp only [withStore]
  · cases machine.fault? <;> rfl
  · cases failed : machine.fault? with
    | none => rfl
    | some fault => simp only [report, works.store, (works.fault fault failed).sourceLine_eq]

theorem CutOff.finish (cut : machine.CutOff) (outcome : Outcome) : EndsCutOff (machine.finish outcome) := by
  obtain ⟨address, failed, here⟩ := cut
  exact ⟨address, finish_of_fault failed outcome, (store_finish machine outcome).symm ▸ here⟩

theorem sameEnd_ending {reached : Copies → Prop} {done : Copies → Value → Prop}
    {first second : EStateM.Result Interrupt (Machine κ) Value} (coincident : Coincident reached done first second) :
    SameEnd (ending first) (ending second) ∨ EndsCutOff (ending first) := by
  cases coincident with
  | ok _ works _ => exact .inl (works.finish .finished)
  | @error later interrupt after _ works _ =>
      cases interrupt with
      | answer value => exact .inl (works.finish .finished)
      | quit => exact .inl (works.finish .quit)
      | unfinished => exact .inl (works.finish .unfinished)
  | cutOff cut => exact .inr (cut.finish .quit)

/-- A program runs on the copy as it does on the original. -/
theorem runSlot_of_copies (copies : Copies) (machine : Machine κ) (steps : Nat)
    (known : copies.Knows none (Store.dataAddress slot)) :
    SameEnd ((machine.withStore copies.original).runSlot steps slot)
        ((machine.withStore copies.copy).runSlot steps slot) ∨
      EndsCutOff ((machine.withStore copies.original).runSlot steps slot) := by
  exact sameEnd_ending (coincides_runGlobal steps known _ ⟨rfl, Memory.leadsTo_reset _, nofun⟩)

/-- Bytes that were left behind do not run: on two stores with the same files, a file
    runs the same way, whatever other bytes the stores have. Only where the end of the
    code cuts off a character literal can they matter; of the store without them it is
    said there that the literal is malformed. -/
theorem runSlot_of_same_files (machine : Machine κ) {other : Store} (same : machine.store.SameFiles other)
    (file : slot ∈ machine.store.files) (steps : Nat) :
    SameEnd (machine.runSlot steps slot) ((machine.withStore other).runSlot steps slot) ∨
      EndsCutOff ((machine.withStore machine.store.cleared).runSlot steps slot) := by
  obtain ⟨mem, present⟩ := List.mem_filter.mp file
  have known {other : Store} (same : machine.store.SameFiles other) :
      (Store.copiesOfCleared same).Knows none (Store.dataAddress slot) := by
    have present := (Store.isPresent_cleared machine.store mem).trans present
    exact .inr ⟨slot, ((Store.copiesOfCleared same).files.file slot mem present).text.shares⟩
  have itself : machine.store.SameFiles machine.store := same.trans same.symm
  rcases runSlot_of_copies (Store.copiesOfCleared itself) machine steps (known itself) with first | cut
  · rcases runSlot_of_copies (Store.copiesOfCleared same) machine steps (known same) with second | cut
    · exact .inl ⟨second.outcome.trans first.outcome.symm, second.console.trans first.console.symm,
        first.files.symm.trans second.files⟩
    · exact .inr cut
  · exact .inr cut

/-- The first slot with a program of two bytes under the name `MAIN`, and what a longer
    one left behind. -/
def slotOfShortened (program left : List UInt8) : List UInt8 :=
  [1, 77, 65, 73, 78] ++ List.replicate 12 0 ++ [2, 0] ++ program ++ [0] ++ left

/-- A machine that has that slot. -/
def startShortened (program left : List UInt8) : Machine Script :=
  start (Store.ofImage (slotOfShortened program left).toArray) (Script.ofAnswers [])
    { Configuration.standard with seed? := some 1 }

theorem sameFiles_shortened (program left : List UInt8)
    (short : (slotOfShortened program left).length ≤ Store.slotSize)
    (present : (startShortened program left).store.isPresent 0 = (startShortened program []).store.isPresent 0)
    (file : (startShortened program []).store.SameFile (startShortened program left).store 0) :
    (startShortened program []).store.SameFiles (startShortened program left).store := by
  refine Store.sameFiles_ofImage ?_ (by simpa using short) present file
  simp [slotOfShortened] at short ⊢
  omega

theorem runSlot_of_same_files_shortened :
    (startShortened [186, 55] []).store.SameFiles (startShortened [186, 55] [10, 186, 56, 0]).store ∧
      0 ∈ (startShortened [186, 55] []).store.files ∧
      (SameEnd ((startShortened [186, 55] []).runSlot 20 0)
          (((startShortened [186, 55] []).withStore (startShortened [186, 55] [10, 186, 56, 0]).store).runSlot 20 0) ∨
        EndsCutOff (((startShortened [186, 55] []).withStore
          (startShortened [186, 55] []).store.cleared).runSlot 20 0)) := by
  have present : (startShortened [186, 55] []).store.isPresent 0 = true := by
    unfold startShortened
    rw [ofImage_toArray _ (by decide +kernel)]
    decide +kernel
  have same : (startShortened [186, 55] []).store.SameFiles (startShortened [186, 55] [10, 186, 56, 0]).store := by
    refine sameFiles_shortened _ _ (by decide +kernel) ?_ ?_ <;> unfold startShortened <;>
      rw [ofImage_toArray _ (by decide +kernel), ofImage_toArray _ (by decide +kernel)]
    · decide +kernel
    · decide +kernel
  have file : 0 ∈ (startShortened [186, 55] []).store.files := List.mem_filter.mpr ⟨by decide, present⟩
  exact ⟨same, file, runSlot_of_same_files _ same file 20⟩

/-- The program `print:'` is malformed. Over a longer one, of which `'`, a line end and
    `print:7` are left behind, it runs these. -/
theorem runSlot_leftBehind :
    (startShortened [186, 39] []).store.SameFiles (startShortened [186, 39] [39, 10, 186, 55, 0]).store ∧
      ((startShortened [186, 39] []).runSlot 20 0).1 = .failed ⟨.program .missingApostrophe, 20⟩ ∧
      ((startShortened [186, 39] [39, 10, 186, 55, 0]).runSlot 20 0).1 = .finished := by
  refine ⟨sameFiles_shortened _ _ (by decide +kernel) ?_ ?_, ?_, ?_⟩ <;> unfold startShortened <;>
    repeat rw [ofImage_toArray _ (by decide +kernel)]
  · decide +kernel
  · decide +kernel
  · decide +kernel
  · decide +kernel

end Machine

end PocketScript
