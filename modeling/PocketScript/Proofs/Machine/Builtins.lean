import PocketScript.Machine.Builtin
import PocketScript.Proofs.Machine.Blocks

/-! # Built-in functions keep memory sound

The arguments of a built-in function are registered one by one and stay
registered while it runs.
-/

namespace PocketScript

namespace Machine

open Eval (Keeps)

variable {κ : Type} {machine : Machine κ} {inner : Inner κ} {expression : Expression}
  {value : Value} {arguments : List Value}

theorem keeps_numberOf (steady : machine.Steady) (value : Value) (start : Address) :
    Keeps (numberOf value start) machine fun _ after => after = machine := by
  unfold numberOf
  split
  · exact .pure steady rfl
  · exact .raise steady _

theorem keeps_indexOf (steady : machine.Steady) (value : Value) (start : Address) :
    Keeps (indexOf value start) machine fun _ after => after = machine := by
  refine (keeps_numberOf steady value start).bind ?_
  rintro number _ - rfl
  exact .pure steady rfl

theorem keeps_bytesOf (steady : machine.Steady) (live : machine.memory.Live value) (start : Address) :
    Keeps (bytesOf value start) machine fun _ after => machine.memory.Evolves after.memory := by
  unfold bytesOf
  split
  · next cell =>
    obtain ⟨bytes, string⟩ := Memory.live_string_iff.mp live
    exact (Keeps.viewMemory steady (by simp [string])).mono fun _ _ _ seen => seen.1
  · exact .raise steady _

theorem keeps_draw (steady : machine.Steady) :
    Keeps draw machine fun _ after => after.memory = machine.memory :=
  .modifyGet steady rfl rfl

theorem keeps_ask {α : Type} (steady : machine.Steady) (request : κ → α × κ) :
    Keeps (Eval.ask request) machine fun _ after => after.memory = machine.memory :=
  .modifyGet steady rfl rfl

theorem keeps_onStore {α : Type} (steady : machine.Steady) (operation : StoreM α) (start : Address) :
    Keeps (Eval.onStore start operation) machine fun _ after => after.memory = machine.memory := by
  unfold Keeps Eval.KeepsFrom Eval.onStore
  cases operation machine.store with
  | ok result store => exact ⟨.ofMemory_eq steady steady.harmless rfl, rfl⟩
  | error error store =>
      refine ⟨fun address same => ?_, steady.sound.heap⟩
      simp at same

theorem keeps_readFunctionArguments (inside : inner.Sound) (start : Address) {array : Nat}
    (isDefinition : Bool) (ready : machine.Ready) (collects : machine.memory.roots.Collects array)
    (count : Nat) (address : Address) :
    Keeps (readFunctionArguments inner start array isDefinition count address) machine fun result after =>
      ∀ value ∈ result.1, after.memory.roots.Registered value := by
  induction count generalizing machine address with
  | zero => exact .pure ready.toSteady (by simp)
  | succ count ih =>
      refine (inside.argument ready _).bind ?_
      intro argument evaluated follows fresh
      split
      · exact .raise follows.steady _
      · have collects := follows.memory.roots.collects collects
        refine (Keeps.trackIn follows.steady fresh.value collects).bind ?_
        rintro - tracked follows' ⟨evolves, registered⟩
        split
        · refine .pure follows'.steady fun value mem => ?_
          obtain rfl := List.mem_singleton.mp mem
          exact registered
        · refine .byteAt_bind ?_
          split
          · exact .raise follows'.steady _
          · refine (ih ((follows.trans follows').ready ready) (evolves.roots.collects collects) _).bind ?_
            rintro ⟨rest, after⟩ last follows'' all
            refine .pure follows''.steady fun value mem => ?_
            rcases List.mem_cons.mp mem with rfl | mem
            · exact follows''.memory.roots.registered registered
            · exact all value mem

theorem live_getD (live : ∀ value ∈ arguments, machine.memory.Live value) (index : Nat) :
    machine.memory.Live (arguments.getD index .missing) := by
  rw [List.getD_eq_getElem?_getD]
  cases here : arguments[index]? with
  | none => exact Memory.live_missing _
  | some value => exact live value (List.mem_of_getElem? here)

theorem keeps_randomBetween (steady : machine.Steady) (lowest highest : Int32) (start : Address) :
    Keeps (randomBetween lowest highest start) machine fun _ _ => True := by
  unfold randomBetween
  dsimp only
  split
  · exact .raise steady _
  · refine (keeps_draw steady).bind ?_
    intro draw after follows _
    exact .pure follows.steady trivial

theorem keeps_applyMath (function : MathFunction) (steady : machine.Steady) (start : Address) :
    Keeps (applyMath function arguments start) machine fun value after => after.memory.Live value := by
  cases function with
  | random =>
      refine (keeps_draw steady).bind ?_
      intro draw after follows _
      exact .pure follows.steady (Memory.live_number _ _)
  | randomInteger =>
      refine (keeps_numberOf steady _ start).bind ?_
      rintro lowest _ - rfl
      refine (keeps_numberOf steady _ start).bind ?_
      rintro highest _ - rfl
      refine (keeps_randomBetween steady _ _ start).bind ?_
      intro number after follows _
      exact .pure follows.steady (Memory.live_number _ _)
  | absolute | round | floor | ceiling | sine | cosine | tangent =>
      refine (keeps_numberOf steady _ start).bind ?_
      rintro number _ - rfl
      exact .pure steady (Memory.live_number _ _)
  | squareRoot =>
      refine (keeps_numberOf steady _ start).bind ?_
      rintro number _ - rfl
      split
      · exact .raise steady _
      · exact .pure steady (Memory.live_number _ _)
  | power | logarithm =>
      refine (keeps_numberOf steady _ start).bind ?_
      rintro number _ - rfl
      refine (keeps_numberOf steady _ start).bind ?_
      rintro second _ - rfl
      split
      · exact .raise steady _
      · exact .pure steady (Memory.live_number _ _)

theorem keeps_stringOf (steady : machine.Steady) (text : String) (start : Address) :
    Keeps (stringOf text start) machine fun value after => after.memory.Live value := by
  refine (Keeps.onMemory steady (steady.sound.createString _)).bind ?_
  rintro cell after follows ⟨-, live⟩
  exact .pure follows.steady live

theorem keeps_applyValue (function : ValueFunction) (steady : machine.Steady)
    (live : ∀ value ∈ arguments, machine.memory.Live value) (start : Address) :
    Keeps (applyValue function arguments start) machine fun value after => after.memory.Live value := by
  have live := live_getD live
  have sound := steady.sound
  have changes : ∀ {operation : MemoryM Unit}, Memory.Runs operation machine.memory (fun _ _ => True) →
      Keeps (do Eval.onMemory start operation; return .missing) machine
        fun value after => after.memory.Live value := by
    intro operation runs
    refine (Keeps.onMemory steady runs).bind ?_
    intro _ after follows _
    exact .pure follows.steady (Memory.live_missing _)
  unfold applyValue
  dsimp only
  cases function with
  | number =>
      dsimp only
      split
      · exact .pure steady (live 0)
      · refine (keeps_bytesOf steady (live 0) start).bind ?_
        intro bytes after follows _
        exact .pure follows.steady (Memory.live_number _ _)
      · exact .raise steady _
  | string =>
      dsimp only
      split
      · exact keeps_stringOf steady _ start
      · exact .pure steady (live 0)
      · exact .raise steady _
  | type => exact .pure steady (Memory.live_number _ _)
  | length =>
      refine (Keeps.viewMemory steady (Memory.length_ne (live 0))).bind ?_
      intro length after follows _
      exact .pure follows.steady (Memory.live_number _ _)
  | copy => exact (Keeps.onMemory steady (sound.copySequence (live 0))).mono fun _ _ _ done => done.2
  | insert =>
      refine (keeps_indexOf steady _ start).bind ?_
      rintro index _ - rfl
      exact changes (sound.insertElement (live 0) (live 2) index)
  | remove =>
      refine (keeps_indexOf steady _ start).bind ?_
      rintro index _ - rfl
      exact changes (sound.removeSlice (live 0) _ _)
  | slice =>
      refine (keeps_indexOf steady _ start).bind ?_
      rintro first _ - rfl
      refine (keeps_indexOf steady _ start).bind ?_
      rintro finish _ - rfl
      exact (Keeps.onMemory steady (sound.copySlice (live 0) _ _)).mono fun _ _ _ done => done.2
  | insertSlice =>
      refine (keeps_indexOf steady _ start).bind ?_
      rintro index _ - rfl
      exact changes (sound.insertSequence (live 0) (live 2) index)
  | removeSlice =>
      refine (keeps_indexOf steady _ start).bind ?_
      rintro first _ - rfl
      refine (keeps_indexOf steady _ start).bind ?_
      rintro finish _ - rfl
      exact changes (sound.removeSlice (live 0) _ _)
  | sameReference =>
      dsimp only
      split
      · exact .pure steady (Memory.live_number _ _)
      · exact .pure steady (Memory.live_number _ _)
      · exact .raise steady _

theorem keeps_applyFile (function : FileFunction) (inside : inner.Sound) (ready : machine.Ready)
    (live : ∀ value ∈ arguments, machine.memory.Live value) (start : Address) :
    Keeps (applyFile inner function arguments start) machine fun value after => after.memory.Live value := by
  have live := live_getD live
  refine (keeps_bytesOf ready.toSteady (live 0) start).bind ?_
  intro name named follows evolves
  have live : ∀ index, named.memory.Live (arguments.getD index .missing) :=
    fun index => evolves.keeps _ (live index)
  have steady := follows.steady
  have stores : ∀ {machine : Machine κ}, machine.Steady → ∀ (operation : StoreM Unit),
      Keeps (do Eval.onStore start operation; return .missing) machine
        fun value after => after.memory.Live value := by
    intro machine steady operation
    refine (keeps_onStore steady operation start).bind ?_
    intro _ after follows _
    exact .pure follows.steady (Memory.live_missing _)
  refine .get_bind ?_
  split
  · exact .pure steady (Memory.live_number _ _)
  · refine (keeps_onStore steady _ start).bind ?_
    intro _ after follows' _
    exact .pure follows'.steady (Memory.live_missing _)
  · exact .raise steady _
  · exact .get_bind (.pure steady (Memory.live_number _ _))
  · exact stores steady _
  · refine (keeps_bytesOf steady (live 1) start).bind ?_
    intro newName after follows' _
    exact stores follows'.steady _
  · refine (keeps_indexOf steady _ start).bind ?_
    rintro index _ - rfl
    refine (keeps_indexOf steady _ start).bind ?_
    rintro amount _ - rfl
    refine .get_bind ?_
    split
    · exact .fail steady (by simp)
    · refine (Keeps.onMemory steady (steady.sound.createString _)).bind ?_
      rintro cell after follows' ⟨-, live⟩
      exact .pure follows'.steady live
  · refine (keeps_bytesOf steady (live 1) start).bind ?_
    intro data after follows' _
    exact stores follows'.steady _
  · refine (inside.code (follows.ready ready) _).bind ?_
    intro value after follows' _
    exact .pure follows'.steady (Memory.live_missing _)

theorem keeps_shownText (steady : machine.Steady) (live : machine.memory.Live value) (start : Address) :
    Keeps (shownText value start) machine fun _ after => machine.memory.Evolves after.memory := by
  unfold shownText
  split
  · exact .pure steady (.refl steady.sound)
  · refine (keeps_bytesOf steady live start).bind ?_
    intro bytes after follows evolves
    exact .pure follows.steady evolves
  · exact .raise steady _

theorem keeps_shownTexts (steady : machine.Steady) {values : List Value}
    (live : ∀ value ∈ values, machine.memory.Live value) (start : Address) :
    Keeps (values.mapM (shownText · start)) machine fun _ _ => True := by
  induction values generalizing machine with
  | nil => exact .pure steady trivial
  | cons value rest ih =>
      rw [List.mapM_cons]
      refine (keeps_shownText steady (live value (by simp)) start).bind ?_
      intro text after follows evolves
      refine (ih follows.steady fun other mem => evolves.keeps other (live other (by simp [mem]))).bind ?_
      intro texts last follows' _
      exact .pure follows'.steady trivial

variable [Console κ]

theorem keeps_resume (steady : machine.Steady) :
    Keeps Eval.resume machine fun _ after => after.memory = machine.memory :=
  ⟨.ofMemory_eq steady steady.harmless rfl, rfl⟩

theorem keeps_showMenu (steady : machine.Steady) {title options : Value} (live : machine.memory.Live title)
    (live' : machine.memory.Live options) (start : Address) :
    Keeps (showMenu title options start) machine fun value after => after.memory.Live value := by
  unfold showMenu
  dsimp only
  split
  · refine (keeps_shownText steady live start).bind ?_
    intro text after follows evolves
    split
    · next cell =>
      have live := evolves.keeps _ live'
      obtain ⟨values, list⟩ := Memory.live_list_iff.mp live
      refine (Keeps.viewMemory follows.steady (by simp [list])).bind ?_
      rintro options listed follows' ⟨evolves', seen⟩
      split
      · exact .raise follows'.steady _
      · have items : ∀ value ∈ options, listed.memory.Live value :=
          fun value mem => evolves'.keeps value (follows.steady.sound.items seen value mem)
        refine (keeps_shownTexts follows'.steady items start).bind ?_
        intro labels shown follows'' _
        refine (keeps_ask follows''.steady _).bind ?_
        intro choice asked follows''' _
        split
        · refine (keeps_resume follows'''.steady).bind ?_
          intro _ last follows'''' _
          exact .pure follows''''.steady (Memory.live_number _ _)
        · exact .quit follows'''.steady
        · exact .quit follows'''.steady
    · exact .raise follows.steady _
  · exact .raise steady _

theorem keeps_applyConsole (function : ConsoleFunction) (steady : machine.Steady)
    (live : ∀ value ∈ arguments, machine.memory.Live value) (start : Address) :
    Keeps (applyConsole function arguments start) machine fun value after => after.memory.Live value := by
  have live := live_getD live
  cases function with
  | print =>
      refine (keeps_shownText steady (live 0) start).bind ?_
      intro text shown follows _
      refine (keeps_ask follows.steady _).bind ?_
      intro goesOn asked follows' _
      split
      · refine (keeps_resume follows'.steady).bind ?_
        intro _ after follows'' _
        exact .pure follows''.steady (Memory.live_missing _)
      · exact .quit follows'.steady
  | askText =>
      refine (keeps_ask steady _).bind ?_
      intro answer asked follows _
      split
      · refine (keeps_resume follows.steady).bind ?_
        intro _ after follows' _
        exact keeps_stringOf follows'.steady _ start
      · exact .quit follows.steady
  | askNumber =>
      refine (keeps_ask steady _).bind ?_
      intro answer asked follows _
      split
      · refine (keeps_resume follows.steady).bind ?_
        intro _ after follows' _
        exact .pure follows'.steady (Memory.live_number _ _)
      · exact .quit follows.steady
  | menu => exact keeps_showMenu steady (live 0) (live 1) start

theorem keeps_applyBuiltin (builtin : Builtin) (inside : inner.Sound) (ready : machine.Ready)
    (bare : expression.Bare) (isStatement : Bool) :
    Keeps (applyBuiltin inner builtin expression isStatement) machine
      fun result after => result.Valid after.memory := by
  refine .get_bind ?_
  refine (Keeps.trackValues ready.toSteady).bind ?_
  rintro array tracked follows ⟨-, collects⟩
  refine (keeps_readFunctionArguments inside _ _ (follows.ready ready) collects _ _).bind ?_
  rintro ⟨arguments, code⟩ evaluated follows' registered
  have since := follows.trans follows'
  have steady := since.steady
  have live : ∀ value ∈ arguments, evaluated.memory.Live value :=
    fun value mem => steady.sound.registered value (registered value mem)
  have results : ∀ {evaluation : Eval κ Value},
      Keeps evaluation evaluated (fun value after => after.memory.Live value) →
      Keeps (do return { expression with code, value := ← evaluation }) evaluated
        fun result after => result.Valid after.memory := by
    intro evaluation keeps
    refine keeps.bind ?_
    intro value after follows live
    exact .pure follows.steady (.ofNone live bare.destination)
  dsimp only
  split
  · split
    · have first : evaluated.memory.Live (arguments.headD .missing) := by
        cases arguments with
        | nil => exact Memory.live_missing _
        | cons value rest => exact live value (by simp)
      have bare : { expression with code }.Bare := ⟨bare.value, bare.destination⟩
      exact (keeps_control _ steady first bare).mono fun result after _ bare => bare.valid after.memory
    · exact .raise steady _
  · exact results (keeps_applyMath _ steady _)
  · exact results (keeps_applyValue _ steady live _)
  · exact results (keeps_applyConsole _ steady live _)
  · exact results (keeps_applyFile _ inside (since.ready ready) live _)

end Machine

end PocketScript
