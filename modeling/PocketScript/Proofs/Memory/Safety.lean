import PocketScript.Proofs.Memory.Soundness

/-! # Operations on live values

None of the operations on strings, lists and variables is refused because of a
collected object as long as what it works on is live. An operation on a cell
that is not live is refused at once.
-/

namespace PocketScript

namespace Memory

open MemoryM

variable {memory : Memory} {cell : Handle} {value : Value}

theorem length_ne (live : memory.Live value) : memory.length value ≠ .error .dangling := by
  cases value with
  | missing | number _ | function _ => simp [length]
  | string cell =>
      obtain ⟨bytes, string⟩ := live_string_iff.mp live
      simp [length, string, Except.map]
  | list cell =>
      obtain ⟨values, list⟩ := live_list_iff.mp live
      simp [length, list, Except.map]

theorem byte_ne (live : memory.Live (.string cell)) (index : Nat) :
    memory.byte cell index ≠ .error .dangling := by
  obtain ⟨bytes, string⟩ := live_string_iff.mp live
  simp only [byte, string, bind, Except.bind]
  cases bytes[index]? <;> simp

theorem element_ne (live : memory.Live (.list cell)) (index : Nat) :
    memory.element cell index ≠ .error .dangling := by
  obtain ⟨values, list⟩ := live_list_iff.mp live
  simp only [element, list, bind, Except.bind]
  cases values[index]? <;> simp

/-- What is read from a list is live, whatever the list. -/
theorem Sound.element (sound : memory.Sound) {index : Nat} (found : memory.element cell index = .ok value) :
    memory.Live value := by
  simp only [Memory.element, bind, Except.bind] at found
  split at found
  · simp at found
  · next values list =>
    split at found
    · next item at_index =>
      obtain rfl := Except.ok.inj found
      exact sound.items list _ (List.mem_of_getElem? at_index)
    · simp at found

theorem Sound.setByte (sound : memory.Sound) (live : memory.Live (.string cell)) (index : Nat)
    (byte : UInt8) : Runs (setByte cell index byte) memory fun _ _ => True := by
  refine (Runs.string sound live).bind ?_
  rintro bytes _ - ⟨rfl, string⟩
  split
  · exact sound.setPayload (string_eq_ok_iff.mp string) rfl rfl trivial
  · exact .throw sound (by simp)

theorem Sound.setElement (sound : memory.Sound) (live : memory.Live (.list cell)) (index : Nat)
    (item : memory.Live value) : Runs (setElement cell index value) memory fun _ _ => True := by
  refine (Runs.list sound live).bind ?_
  rintro values _ - ⟨rfl, list⟩
  split
  · refine sound.setPayload (list_eq_ok_iff.mp list) rfl rfl fun other mem => ?_
    rcases List.mem_or_eq_of_mem_set mem with mem | rfl
    · exact sound.items list other mem
    · exact item
  · exact .throw sound (by simp)

theorem setByte_of_not_live (dead : ¬ memory.Live (.string cell)) (index : Nat) (byte : UInt8) :
    ∃ error, setByte cell index byte memory = .error error memory := by
  cases string : memory.string cell with
  | ok bytes => exact absurd (live_string_iff.mpr ⟨bytes, string⟩) dead
  | error error =>
      refine ⟨error, ?_⟩
      simp only [Memory.setByte, Bind.bind, EStateM.bind, look, string]

theorem setElement_of_not_live (dead : ¬ memory.Live (.list cell)) (index : Nat) (value : Value) :
    ∃ error, setElement cell index value memory = .error error memory := by
  cases list : memory.list cell with
  | ok values => exact absurd (live_list_iff.mpr ⟨values, list⟩) dead
  | error error =>
      refine ⟨error, ?_⟩
      simp only [Memory.setElement, Bind.bind, EStateM.bind, look, list]

theorem Sound.insertBytes (sound : memory.Sound) (live : memory.Live (.string cell)) (index : Int)
    (part : List UInt8) : Runs (insertBytes cell index part) memory fun _ _ => True := by
  refine (Runs.string sound live).bind ?_
  rintro bytes _ - ⟨rfl, string⟩
  refine (Runs.require sound (checkPlace_ne index _)).bind ?_
  rintro place _ - ⟨rfl, -⟩
  refine (sound.resizePayload (string_eq_ok_iff.mp string) rfl _ _).bind ?_
  intro _ after evolves holds
  exact evolves.sound.setPayload holds rfl rfl trivial

theorem Sound.insertValues (sound : memory.Sound) (live : memory.Live (.list cell)) (index : Int)
    {part : List Value} (items : ∀ value ∈ part, memory.Live value) :
    Runs (insertValues cell index part) memory fun _ _ => True := by
  refine (Runs.list sound live).bind ?_
  rintro values _ - ⟨rfl, list⟩
  refine (Runs.require sound (checkPlace_ne index _)).bind ?_
  rintro place _ - ⟨rfl, -⟩
  refine (sound.resizePayload (list_eq_ok_iff.mp list) rfl _ _).bind ?_
  intro _ after evolves holds
  refine evolves.sound.setPayload holds rfl rfl fun value mem => evolves.keeps value ?_
  simp only [spliced, List.mem_append] at mem
  rcases mem with (mem | mem) | mem
  · exact sound.items list value (List.mem_of_mem_take mem)
  · exact items value mem
  · exact sound.items list value (List.mem_of_mem_drop mem)

theorem Sound.insertElement (sound : memory.Sound) {sequence element : Value}
    (live : memory.Live sequence) (item : memory.Live element) (index : Int) :
    Runs (insertElement sequence index element) memory fun _ _ => True := by
  unfold Memory.insertElement
  split
  · exact sound.insertBytes live index _
  · refine sound.insertValues live index fun value mem => ?_
    obtain rfl := List.mem_singleton.mp mem
    exact item
  · exact .throw sound (by simp)

theorem Sound.insertSequence (sound : memory.Sound) {sequence other : Value}
    (live : memory.Live sequence) (live' : memory.Live other) (index : Int) :
    Runs (insertSequence sequence index other) memory fun _ _ => True := by
  unfold Memory.insertSequence
  split
  · refine (Runs.string sound live').bind ?_
    rintro part _ - ⟨rfl, -⟩
    exact sound.insertBytes live index part
  · refine (Runs.list sound live').bind ?_
    rintro part _ - ⟨rfl, list⟩
    exact sound.insertValues live index (sound.items list)
  · exact .throw sound (by simp)

theorem Sound.removeSlice (sound : memory.Sound) {sequence : Value} (live : memory.Live sequence)
    (start finish : Int) : Runs (removeSlice sequence start finish) memory fun _ _ => True := by
  unfold Memory.removeSlice
  split
  · refine (Runs.string sound live).bind ?_
    rintro bytes _ - ⟨rfl, string⟩
    refine (Runs.require sound (checkRange_ne start finish _)).bind ?_
    rintro ⟨first, last⟩ _ - ⟨rfl, -⟩
    dsimp only
    refine Runs.bind (sound.setPayload (string_eq_ok_iff.mp string) rfl ?_ trivial) ?_
    · rfl
    intro _ after evolves _
    exact evolves.sound.resizeLive (evolves.keeps _ live) rfl _ _
  · refine (Runs.list sound live).bind ?_
    rintro values _ - ⟨rfl, list⟩
    refine (Runs.require sound (checkRange_ne start finish _)).bind ?_
    rintro ⟨first, last⟩ _ - ⟨rfl, -⟩
    dsimp only
    refine Runs.bind (sound.setPayload (list_eq_ok_iff.mp list) rfl ?_ fun value mem => ?_) ?_
    · rfl
    · rcases List.mem_append.mp mem with mem | mem
      · exact sound.items list value (List.mem_of_mem_take mem)
      · exact sound.items list value (List.mem_of_mem_drop mem)
    · intro _ after evolves _
      exact evolves.sound.resizeLive (evolves.keeps _ live) rfl _ _
  · exact .throw sound (by simp)

theorem Sound.copySlice (sound : memory.Sound) {sequence : Value} (live : memory.Live sequence)
    (start finish : Int) :
    Runs (copySlice sequence start finish) memory fun copy after => after.Live copy := by
  unfold Memory.copySlice
  split
  · refine (Runs.string sound live).bind ?_
    rintro bytes _ - ⟨rfl, string⟩
    refine (Runs.require sound (checkRange_ne start finish _)).bind ?_
    rintro ⟨first, last⟩ _ - ⟨rfl, -⟩
    refine (sound.createString _).bind ?_
    exact fun copy after evolves live => .pure evolves.sound live
  · refine (Runs.list sound live).bind ?_
    rintro values _ - ⟨rfl, list⟩
    refine (Runs.require sound (checkRange_ne start finish _)).bind ?_
    rintro ⟨first, last⟩ _ - ⟨rfl, -⟩
    refine (sound.createList fun value mem => ?_).bind ?_
    · exact sound.items list value (List.mem_of_mem_take (List.mem_of_mem_drop mem))
    · exact fun copy after evolves live => .pure evolves.sound live
  · exact .throw sound (by simp)

theorem Sound.copySequence (sound : memory.Sound) {sequence : Value} (live : memory.Live sequence) :
    Runs (copySequence sequence) memory fun copy after => after.Live copy := by
  unfold Memory.copySequence
  split
  · refine (Runs.string sound live).bind ?_
    rintro bytes _ - ⟨rfl, -⟩
    refine (sound.createString bytes).bind ?_
    exact fun copy after evolves live => .pure evolves.sound live
  · refine (Runs.list sound live).bind ?_
    rintro values _ - ⟨rfl, list⟩
    refine (sound.createList (sound.items list)).bind ?_
    exact fun copy after evolves live => .pure evolves.sound live
  · exact .throw sound (by simp)

theorem Sound.concatenate (sound : memory.Sound) {left right : Handle}
    (live : memory.Live (.string left)) (live' : memory.Live (.string right)) :
    Runs (concatenate left right) memory fun copy after => after.Live copy := by
  refine (Runs.string sound live).bind ?_
  rintro front _ - ⟨rfl, -⟩
  refine (Runs.string sound live').bind ?_
  rintro back _ - ⟨rfl, -⟩
  refine (sound.createString _).bind ?_
  exact fun copy after evolves live => .pure evolves.sound live

end Memory

end PocketScript
