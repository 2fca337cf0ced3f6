import PocketScript.Proofs.Flow.Formulas
import PocketScript.Proofs.Flow.Idling
import PocketScript.Proofs.Frame.Discipline
import PocketScript.Proofs.Memory.Appending
import PocketScript.Proofs.Schedule.Tallying
import PocketScript.Proofs.Symbol.Quoting

/-! # Texts of places and of values

What a place is, and what a value is, depends on memory and not on where their texts
stand. Reading the text of a place registers values that are reached anyway, and the
text of a value takes no effect. Names and what is indexed with a formula are such
texts, so every sort of destination has one. So is a quoted string: it may leave less
room, but nothing reaches the new string yet.
-/

namespace PocketScript

open Machine (evaluate innerOf frame readPrimary readRest select)

variable {κ α β : Type} {machine after last : Machine κ} {memory : Memory} {value : Value} {destination : Destination}

namespace Machine

/-- The machine with other registrations. -/
def withRoots (machine : Machine κ) (roots : Roots) : Machine κ :=
  { machine with memory := { machine.memory with roots } }

/-- The machine with one more registration. -/
def tracking (machine : Machine κ) (value : Value) : Machine κ :=
  machine.withRoots (machine.memory.roots.track value)

/-- All that was done is to register values that are reached anyway. -/
def Registers (machine after : Machine κ) : Prop :=
  ∃ more : Roots, after = machine.withRoots (machine.memory.roots ++ more) ∧
    ∀ root ∈ more, ∀ value ∈ machine.memory.rootValues root, machine.memory.Reaches value

namespace Registers

theorem refl (machine : Machine κ) : machine.Registers machine :=
  ⟨#[], by simp [withRoots], by simp⟩

theorem eq_withRoots (registers : machine.Registers after) : after = machine.withRoots after.memory.roots := by
  obtain ⟨more, rfl, -⟩ := registers
  rfl

theorem store (registers : machine.Registers after) : after.store = machine.store := by
  rw [registers.eq_withRoots]
  rfl

theorem stack (registers : machine.Registers after) : after.memory.stack = machine.memory.stack := by
  rw [registers.eq_withRoots]
  rfl

theorem reaches_iff (registers : machine.Registers after) :
    after.memory.Reaches value ↔ machine.memory.Reaches value := by
  obtain ⟨more, rfl, known⟩ := registers
  constructor
  · intro reaches
    induction reaches with
    | root root value mem holds =>
        rcases Array.mem_append.mp mem with old | new
        · exact .root root value old holds
        · exact known root new value holds
    | item cell values value _ list mem ih => exact .item cell values value ih list mem
  · intro reaches
    induction reaches with
    | root root value mem holds => exact .root root value (Array.mem_append.mpr (.inl mem)) holds
    | item cell values value _ list mem ih => exact .item cell values value ih list mem

theorem trans (first : machine.Registers after) (second : after.Registers last) : machine.Registers last := by
  have reached := @reaches_iff κ machine after
  obtain ⟨more, rfl, known⟩ := first
  obtain ⟨more', rfl, known'⟩ := second
  refine ⟨more ++ more', by simp [withRoots, Array.append_assoc], fun root mem value holds => ?_⟩
  rcases Array.mem_append.mp mem with old | new
  · exact known root old value holds
  · exact (reached ⟨more, rfl, known⟩).mp (known' root new value holds)

end Registers

theorem registers_tracking (reached : ∀ cell, value.cell? = some cell → machine.memory.Reaches value) :
    machine.Registers (machine.tracking value) := by
  rw [tracking, Roots.track]
  split
  · next named =>
    obtain ⟨cell, named⟩ := Option.isSome_iff_exists.mp named
    refine ⟨#[.value value], rfl, fun root mem held holds => ?_⟩
    obtain rfl : root = .value value := by simpa using mem
    obtain rfl : held = value := by simpa [Memory.rootValues] using holds
    exact reached cell named
  · exact .refl machine

end Machine

/-- The value at a destination. -/
def Memory.valueAt (memory : Memory) : Destination → Except MemoryError Value
  | .variable place =>
    match memory.variableValue? place with
    | some value => .ok value
    | none => .error .dangling
  | .element list index => memory.element list index
  | .character string index => do return .number (← memory.byte string index).toFloat32

namespace Memory

variable {cell : Handle} {index : Nat} {byte : UInt8} {place : VariableRef}

theorem element_eq_ok_iff : memory.element cell index = .ok value ↔
    ∃ values, memory.list cell = .ok values ∧ values[index]? = some value := by
  unfold element
  cases memory.list cell with
  | error error => simp [bind, Except.bind]
  | ok values => cases here : values[index]? <;> simp [bind, Except.bind, here]

theorem byte_eq_ok_iff : memory.byte cell index = .ok byte ↔
    ∃ bytes, memory.string cell = .ok bytes ∧ bytes[index]? = some byte := by
  unfold Memory.byte
  cases memory.string cell with
  | error error => simp [bind, Except.bind]
  | ok bytes => cases here : bytes[index]? <;> simp [bind, Except.bind, here]

theorem valueAt_variable : memory.valueAt (.variable place) = .ok value ↔
    ∃ binding, memory.stack.variableAt? place = some binding ∧ binding.value = value := by
  simp only [valueAt, variableValue?]
  cases memory.stack.variableAt? place with
  | none => simp
  | some binding => simp

theorem valueAt_element : memory.valueAt (.element cell index) = .ok value ↔
    ∃ values, memory.list cell = .ok values ∧ values[index]? = some value :=
  element_eq_ok_iff

theorem valueAt_character : memory.valueAt (.character cell index) = .ok value ↔
    ∃ bytes byte, memory.string cell = .ok bytes ∧ bytes[index]? = some byte ∧ .number byte.toFloat32 = value := by
  have stands : memory.valueAt (.character cell index) = .ok value ↔
      ∃ byte, memory.byte cell index = .ok byte ∧ .number byte.toFloat32 = value := by
    simp only [valueAt]
    cases memory.byte cell index with
    | error error => simp [bind, Except.bind]
    | ok byte => simp [bind, Except.bind, pure, Except.pure]
  simp only [stands, byte_eq_ok_iff]
  constructor
  · rintro ⟨byte, ⟨bytes, reads, here⟩, same⟩
    exact ⟨bytes, byte, reads, here, same⟩
  · rintro ⟨bytes, byte, reads, here, same⟩
    exact ⟨byte, ⟨bytes, reads, here⟩, same⟩

end Memory

@[simp] theorem Machine.valueAt_withRoots (machine : Machine κ) (roots : Roots) (destination : Destination) :
    (machine.withRoots roots).memory.valueAt destination = machine.memory.valueAt destination := by
  cases destination <;> rfl

namespace Destination

theorem read_eq (held : machine.memory.valueAt destination = .ok value) (hold : Hold) (address : Address) :
    destination.read hold address machine = .ok value machine := by
  match destination with
  | .variable place =>
      obtain ⟨binding, there, rfl⟩ := Memory.valueAt_variable.mp held
      simp only [read, Eval.onMemory, Eval.onMemoryAs, Memory.look, Memory.variableValue?, there, Option.map_some]
  | .element list index =>
      simp only [Memory.valueAt] at held
      simp only [read, Eval.onMemoryAs, Memory.look, held]
  | .character string index =>
      obtain ⟨bytes, byte, reads, here, rfl⟩ := Memory.valueAt_character.mp held
      have seen := Memory.byte_eq_ok_iff.mpr ⟨bytes, reads, here⟩
      simp only [read, Eval.onMemoryAs, Memory.look, seen, Bind.bind, EStateM.bind]
      rfl

/-- Where a value can be read, a number can be written, and what is registered does
    not matter for that. -/
theorem exists_write (held : machine.memory.valueAt destination = .ok value) (number : Float32) :
    ∃ stored : Machine κ, stored.store = machine.store ∧ stored.memory.roots = machine.memory.roots ∧
      ∀ hold address roots, destination.write hold (.number number) address (machine.withRoots roots) =
        .ok () (stored.withRoots roots) := by
  have replaced : ∀ {cell : Handle} {payload : Payload} (payload' : Payload),
      machine.memory.payload cell = .ok payload → ∃ heap, ∀ roots,
        Memory.setPayload cell payload' { machine.memory with roots } = .ok () { machine.memory with heap, roots } := by
    intro cell payload payload' reads
    obtain ⟨object, -, target, -⟩ := Memory.target?_of_payload reads
    refine ⟨machine.memory.heap.modify object ({ · with payload := payload' }), fun roots => ?_⟩
    simp only [Memory.setPayload, modify, modifyGet, MonadStateOf.modifyGet, EStateM.modifyGet, target]
  match destination with
  | .variable place =>
      obtain ⟨binding, there, -⟩ := Memory.valueAt_variable.mp held
      refine ⟨{ machine with memory := { machine.memory with
        stack := machine.memory.stack.setVariable place (.number number) } }, rfl, rfl, fun hold address roots => ?_⟩
      simp only [write, Eval.onMemory, Eval.onMemoryAs, Memory.setVariable, Machine.withRoots, there]
  | .element list index =>
      obtain ⟨values, reads, here⟩ := Memory.valueAt_element.mp held
      obtain ⟨inside, -⟩ := List.getElem?_eq_some_iff.mp here
      obtain ⟨heap, sets⟩ := replaced (.values (values.set index (.number number))) (Memory.list_eq_ok_iff.mp reads)
      refine ⟨{ machine with memory := { machine.memory with heap } }, rfl, rfl, fun hold address roots => ?_⟩
      have reads : ({ machine.memory with roots } : Memory).list list = .ok values := reads
      simp only [write, Eval.onMemoryAs, Memory.setElement, Memory.look, Machine.withRoots, Bind.bind, EStateM.bind,
        reads, inside, if_true, sets]
  | .character string index =>
      obtain ⟨bytes, byte, reads, here, -⟩ := Memory.valueAt_character.mp held
      obtain ⟨inside, -⟩ := List.getElem?_eq_some_iff.mp here
      obtain ⟨heap, sets⟩ := replaced (.bytes (bytes.set index (Memory.byteOfNumber number)))
        (Memory.string_eq_ok_iff.mp reads)
      refine ⟨{ machine with memory := { machine.memory with heap } }, rfl, rfl, fun hold address roots => ?_⟩
      have reads : ({ machine.memory with roots } : Memory).string string = .ok bytes := reads
      simp only [write, Eval.onMemoryAs, Memory.setByte, Memory.look, Machine.withRoots, Bind.bind, EStateM.bind,
        reads, inside, if_true, sets]

/-- The string or list that a destination lies in is reached. -/
def Reached (destination : Destination) (memory : Memory) : Prop :=
  match destination with
  | .variable _ => True
  | .element list _ => memory.Reaches (.list list)
  | .character string _ => memory.Reaches (.string string)

theorem Reached.reaches (reached : destination.Reached memory) (tracked : memory.Tracked)
    (held : memory.valueAt destination = .ok value) {cell : Handle} (named : value.cell? = some cell) :
    memory.Reaches value := by
  match destination with
  | .variable place =>
      obtain ⟨binding, there, rfl⟩ := Memory.valueAt_variable.mp held
      have inside : place.scope < memory.stack.scopes.size := by
        obtain ⟨scope, here, -⟩ := Option.bind_eq_some_iff.mp there
        exact (Array.getElem?_eq_some_iff.mp here).1
      exact .root _ _ (tracked place.scope inside) (Memory.mem_rootValues_scope.mpr ⟨place.index, binding, there, rfl⟩)
  | .element list index =>
      obtain ⟨values, reads, here⟩ := Memory.valueAt_element.mp held
      exact .item _ values value reached reads (List.mem_of_getElem? here)
  | .character string index =>
      obtain ⟨bytes, byte, -, -, rfl⟩ := Memory.valueAt_character.mp held
      cases named

end Destination

/-- What is reached is there. -/
theorem Memory.Sound.isSome_contents (sound : memory.Sound) {handle : Handle} (reaches : memory.ReachesObject handle) :
    (memory.heap.contents handle).isSome := by
  have there {value : Value} {cell : Handle} (reached : memory.Reaches value) (named : value.cell? = some cell) :
      ∃ object, memory.heap.contents cell = some (.target object) ∧ (memory.heap.contents object).isSome := by
    have live := sound.live_of_reaches reached
    cases value with
    | missing | number _ | function _ => cases named
    | string cell | list cell =>
        cases named
        obtain ⟨object, _, at_cell, at_object⟩ := live
        exact ⟨object, at_cell, by simp [at_object]⟩
  cases reaches with
  | cell value cell reached named =>
      obtain ⟨object, at_cell, -⟩ := there reached named
      simp [at_cell]
  | target value cell object reached named stands =>
      obtain ⟨object, at_cell, at_object⟩ := there reached named
      cases (Heap.target?_eq_some_iff.mp stands).symm.trans at_cell
      exact at_object

namespace Machine.Idles

variable [Console κ]

/-- What is reached is still read through its cell. -/
theorem payload (idles : machine.Idles after) {cell : Handle} {payload : Payload}
    (reaches : machine.memory.Reaches value) (named : value.cell? = some cell) (reads : machine.memory.payload cell = .ok payload) :
    after.memory.payload cell = .ok payload := by
  obtain ⟨object, at_cell, at_object⟩ := Memory.payload_eq_ok_iff_contents.mp reads
  refine Memory.payload_eq_ok_iff_contents.mpr ⟨object, ?_, ?_⟩
  · rw [idles.contents cell (.cell value cell reaches named), at_cell]
  · have stands := Heap.target?_eq_some_iff.mpr at_cell
    rw [idles.contents object (.target value cell object reaches named stands), at_object]

theorem valueAt (idles : machine.Idles after) (reached : destination.Reached machine.memory)
    (held : machine.memory.valueAt destination = .ok value) : after.memory.valueAt destination = .ok value := by
  match destination with
  | .variable place =>
      rw [Memory.valueAt_variable, idles.bindings.variableAt?]
      exact Memory.valueAt_variable.mp held
  | .element list index =>
      obtain ⟨values, reads, here⟩ := Memory.valueAt_element.mp held
      refine Memory.valueAt_element.mpr ⟨values, Memory.list_eq_ok_iff.mpr ?_, here⟩
      exact idles.payload reached rfl (Memory.list_eq_ok_iff.mp reads)
  | .character string index =>
      obtain ⟨bytes, byte, reads, here, same⟩ := Memory.valueAt_character.mp held
      refine Memory.valueAt_character.mpr ⟨bytes, byte, Memory.string_eq_ok_iff.mpr ?_, here, same⟩
      exact idles.payload reached rfl (Memory.string_eq_ok_iff.mp reads)

end Machine.Idles

namespace Eval

variable {evaluation : Eval κ α}

/-- The program ends there since an expression is nested too deeply. -/
def TooComplex (evaluation : Eval κ α) (machine : Machine κ) : Prop :=
  ∃ last address, evaluation machine = .error .quit last ∧
    last.fault? = some ⟨.program .expressionTooComplex, address⟩

namespace TooComplex

theorem bind (complex : TooComplex evaluation machine) (next : α → Eval κ β) :
    TooComplex (evaluation >>= next) machine := by
  obtain ⟨last, address, ran, fault⟩ := complex
  exact ⟨last, address, bind_of_error ran, fault⟩

theorem of_eq {evaluation' : Eval κ α} (same : evaluation machine = evaluation' after)
    (complex : TooComplex evaluation' after) : TooComplex evaluation machine := by
  obtain ⟨last, address, ran, fault⟩ := complex
  exact ⟨last, address, same.trans ran, fault⟩

theorem not_ok {result : α} (complex : TooComplex evaluation machine) : evaluation machine ≠ .ok result last := by
  obtain ⟨_, _, ran, -⟩ := complex
  simp [ran]

end TooComplex

/-- How an evaluation ends, but with other registrations. -/
def withRoots (roots : Roots) :
    EStateM.Result Interrupt (Machine κ) α → EStateM.Result Interrupt (Machine κ) α
  | .ok result last => .ok result (last.withRoots roots)
  | .error interrupt last => .error interrupt (last.withRoots roots)

end Eval

namespace Machine

variable [Console κ] {limit levels start ceiling : Nat} {isStatement : Bool}

theorem tooComplex_zero : Eval.TooComplex (evaluate limit 0 start ceiling isStatement) machine := by
  rw [evaluate_zero]
  exact ⟨_, start, rfl, rfl⟩

/-- An expression registers nothing for longer than it lasts. -/
theorem evaluate_eq_withRoots (limit levels start ceiling : Nat) (isStatement : Bool) (machine : Machine κ) :
    evaluate limit (levels + 1) start ceiling isStatement machine =
      Eval.withRoots machine.memory.roots (frame (innerOf limit levels) start ceiling isStatement machine) := by
  have roots := (framed_evaluate limit (levels + 1) start ceiling isStatement machine).1
  rw [evaluate_succ] at roots ⊢
  simp only [Eval.releasing, Eval.always, Bind.bind, EStateM.bind, get, getThe, MonadStateOf.get, EStateM.get]
    at roots ⊢
  cases ran : frame (innerOf limit levels) start ceiling isStatement machine with
  | ok result last | error interrupt last =>
      simp only [ran, Eval.last] at roots
      simp only [Eval.withRoots, withRoots, roots]

theorem tooComplex_evaluate
    (complex : Eval.TooComplex (frame (innerOf limit levels) start ceiling isStatement) machine) :
    Eval.TooComplex (evaluate limit (levels + 1) start ceiling isStatement) machine := by
  obtain ⟨last, address, ran, fault⟩ := complex
  refine ⟨last.withRoots machine.memory.roots, address, ?_, fault⟩
  rw [evaluate_eq_withRoots, ran]
  rfl

theorem frame_eq (running : machine.memory.stack.action.isIgnored = false) (inner : Inner κ) :
    frame inner start ceiling isStatement machine =
      (readPrimary inner (.starting start) isStatement >>= readRest inner ceiling (Store.capacity + 1)) machine := by
  unfold frame
  simp only [Bind.bind, EStateM.bind, get, getThe, MonadStateOf.get, EStateM.get, running, Bool.false_eq_true,
    if_false]

omit [Console κ] in
theorem readRest_of_stopsAt {inner : Inner κ} {expression : Expression} (room : Nat)
    (stops : StopsAt ceiling (machine.store.byte expression.code)) :
    readRest inner ceiling (room + 1) expression machine = .ok expression (machine.tracking expression.value) := by
  have settled : ∀ operator, BinaryOperator.ofByte? (machine.store.byte expression.code) = some operator →
      ¬ operator.precedence < ceiling :=
    fun operator found => Nat.not_lt.mpr (stops.operator operator found)
  refine (Eval.bind_of_ok (show Eval.track expression.value machine = .ok () (machine.tracking expression.value) from
    rfl)).trans ?_
  refine (Eval.bind_of_ok (show Eval.byteAt expression.code (machine.tracking expression.value) =
    .ok (machine.store.byte expression.code) _ from rfl)).trans ?_
  rw [stops.step]
  dsimp only
  rw [if_neg stops.index, if_neg stops.call]
  cases found : BinaryOperator.ofByte? (machine.store.byte expression.code) with
  | none => rfl
  | some operator =>
      dsimp only
      rw [if_neg (settled operator found)]
      rfl

end Machine

/-- A byte that closes parentheses or brackets. -/
def Symbol.closes (byte : UInt8) : Bool :=
  byte == 0x29 || byte == 0x5d

theorem Symbol.closes_spec {byte : UInt8} (closes : Symbol.closes byte = true) :
    EndsAtom byte ∧ StopsAt Inner.statementCeiling byte := by
  have : byte = 0x29 ∨ byte = 0x5d := by simpa [Symbol.closes] using closes
  rcases this with rfl | rfl
  · exact ⟨⟨by decide, fun last other => by simp [Store.continuesNumber, Symbol.isDigit]⟩,
      stopsAt_of_none _ (by decide)⟩
  · exact ⟨⟨by decide, fun last other => by simp [Store.continuesNumber, Symbol.isDigit]⟩,
      stopsAt_of_none _ (by decide)⟩

namespace Machine

variable [Console κ]

/-- The text of a place that has a value. An expression that starts with the text goes
    on behind it, wherever that is, and before that nothing is done but to register
    values that are reached anyway; or it is nested too deeply. -/
structure Locates (limit : Nat) (machine : Machine κ) (text : List UInt8) (destination : Destination) (value : Value) :
    Prop where
  held : machine.memory.valueAt destination = .ok value
  present : value.isMissing = false
  reached : destination.Reached machine.memory
  reads : ∀ (levels start ceiling : Nat) (isStatement : Bool) (early : Machine κ), machine.Registers early →
    machine.store.Has start text → Symbol.continuesName (machine.store.byte (start + text.length)) = false →
    Eval.TooComplex (frame (innerOf limit levels) start ceiling isStatement) early ∨
      ∃ left late room, frame (innerOf limit levels) start ceiling isStatement early =
          readRest (innerOf limit levels) ceiling (room + 2) left late ∧
        machine.Registers late ∧ Store.capacity ≤ room + text.length ∧ left.value = value ∧
        left.destination? = some destination ∧ left.code = start + text.length

/-- The text of a value that takes no effect. Between parentheses or brackets it is
    evaluated to the value, wherever that is, and all that may be different afterwards
    is what nothing reaches; or it is nested too deeply. -/
structure Supplies (limit : Nat) (machine : Machine κ) (text : List UInt8) (value : Value) (after : Machine κ) :
    Prop where
  idles : machine.Idles after
  present : value.isMissing = false
  computes : ∀ (levels start : Nat) (early : Machine κ), machine.Registers early → machine.store.Has start text →
    Symbol.closes (machine.store.byte (start + text.length)) = true →
    Eval.TooComplex (evaluate limit levels start Inner.statementCeiling false) early ∨
      ∃ right, evaluate limit levels start Inner.statementCeiling false early =
          .ok right (after.withRoots early.memory.roots) ∧
        right.value = value ∧ right.code = start + text.length

variable {limit : Nat} {text operand : List UInt8} {name : Name} {place : VariableRef}

/-- The value at a place is reached anyway. -/
theorem Locates.registers (locates : machine.Locates limit text destination value) (tracked : machine.memory.Tracked)
    (registers : machine.Registers after) : machine.Registers (after.tracking value) :=
  registers.trans <| registers_tracking fun _ named =>
    registers.reaches_iff.mpr (locates.reached.reaches tracked locates.held named)

omit [Console κ] in
/-- What is read for a name that has a variable. -/
theorem readVariable_found {start : Nat} (has : machine.store.Has start name.bytes)
    (stops : Symbol.continuesName (machine.store.byte (start + name.bytes.length)) = false)
    (found : machine.memory.stack.find? name.text = some place)
    (held : machine.memory.variableValue? place = some value) :
    readVariable (.starting start) machine = .ok { Expression.starting start with
      code := start + name.bytes.length
      value
      destination? := some (.variable place) } machine := by
  have named := name.readName_eq has stops
  unfold readVariable
  simp only [Bind.bind, EStateM.bind, Expression.starting, named, get, getThe, MonadStateOf.get, EStateM.get, found,
    held]
  rfl

theorem locates_name (limit : Nat) (running : machine.memory.stack.action.isIgnored = false)
    (found : machine.memory.stack.find? name.text = some place)
    (held : machine.memory.variableValue? place = some value) (present : value.isMissing = false) :
    machine.Locates limit name.bytes (.variable place) value := by
  have fits : 0 < name.bytes.length := by
    obtain ⟨first, rest, bytes, -⟩ := name.exists_cons
    simp [bytes]
  refine ⟨by simp [Memory.valueAt, held], present, trivial, ?_⟩
  intro levels start ceiling isStatement early registers has ends
  have stack := registers.stack
  have held' : early.memory.variableValue? place = some value := by
    rw [Memory.variableValue?, stack]
    exact held
  rw [← registers.store] at has ends
  rw [← stack] at running found
  have read := readVariable_found has ends found held'
  refine .inr ⟨_, early, Store.capacity - 1,
    (frame_eq running _).trans (Eval.bind_of_ok ((readPrimary_name has).trans read)), registers, ?_, rfl, rfl, rfl⟩
  have positive : 0 < Store.capacity := by decide
  omega

/-- A text that an expression starts with as a whole. -/
theorem supplies_of_primary (limit : Nat) (running : machine.memory.stack.action.isIgnored = false)
    (idles : machine.Idles after) (present : value.isMissing = false)
    (primary : ∀ (inner : Inner κ) (start : Nat) (early : Machine κ), machine.Registers early →
      early.store.Has start text → EndsAtom (early.store.byte (start + text.length)) → ∃ right,
        readPrimary inner (.starting start) false early = .ok right (after.withRoots early.memory.roots) ∧
          right.value = value ∧ right.code = start + text.length) :
    machine.Supplies limit text value after := by
  refine ⟨idles, present, fun levels start early registers has closes => ?_⟩
  obtain ⟨ends, stops⟩ := Symbol.closes_spec closes
  rw [← registers.store] at has ends
  rw [← registers.stack] at running
  cases levels with
  | zero => exact .inl tooComplex_zero
  | succ levels =>
      obtain ⟨right, ran, known, code⟩ := primary (innerOf limit levels) start early registers has ends
      rw [← code, ← idles.store] at stops
      refine .inr ⟨right, ?_, known, code⟩
      have rest : readRest (innerOf limit levels) Inner.statementCeiling (Store.capacity + 1) right
          (after.withRoots early.memory.roots) =
            .ok right ((after.withRoots early.memory.roots).tracking right.value) :=
        readRest_of_stopsAt _ stops
      rw [evaluate_eq_withRoots, frame_eq running, Eval.bind_of_ok ran, rest]
      rfl

/-- A place has a value. -/
theorem Locates.supplies (locates : machine.Locates limit text destination value) (ready : machine.Ready) :
    machine.Supplies limit text value machine := by
  refine ⟨.refl ready, locates.present, fun levels start early registers has closes => ?_⟩
  obtain ⟨ends, stops⟩ := Symbol.closes_spec closes
  cases levels with
  | zero => exact .inl tooComplex_zero
  | succ levels =>
      rcases locates.reads levels start Inner.statementCeiling false early registers has ends.name with
        complex | ⟨left, late, room, ran, registers', -, known, -, code⟩
      · exact .inl (tooComplex_evaluate complex)
      rw [← code, ← registers'.store] at stops
      refine .inr ⟨left, ?_, known, code⟩
      rw [evaluate_eq_withRoots, ran, readRest_of_stopsAt _ stops, registers'.eq_withRoots]
      rfl

theorem supplies_digits (limit : Nat) (ready : machine.Ready) (running : machine.memory.stack.action.isIgnored = false)
    (digits : Digits) : machine.Supplies limit digits.bytes (.number (readNumber digits.bytes)) machine := by
  refine supplies_of_primary limit running (.refl ready) rfl fun inner start early registers has ends => ?_
  obtain ⟨first, rest, bytes, digit, all, short⟩ := digits.exists_cons
  have stops := ends.number
  rw [bytes] at has stops ⊢
  rw [← registers.eq_withRoots]
  exact ⟨_, (readPrimary_number (has.1 ▸ digit)).trans (readNumberLiteral_eq has all short stops), rfl, rfl⟩

/-- A new string takes no effect: nothing reaches it yet. -/
theorem supplies_quoted (limit : Nat) (ready : machine.Ready) (running : machine.memory.stack.action.isIgnored = false)
    {bytes : List UInt8} (quotable : ∀ byte ∈ bytes, Symbol.Quotable byte) {cell : Handle}
    (created : Memory.createString bytes machine.memory = .ok cell memory) :
    machine.Supplies limit (Symbol.asBytes (Symbol.quoted bytes)) (.string cell) { machine with memory } := by
  have adds : machine.memory.Adds (.bytes bytes) cell memory := by
    have ends := Memory.adds_createSequence ready.sound.heap (Memory.stringSize bytes.length) (.bytes bytes)
    unfold MemoryM.Ends at ends
    rwa [show Memory.createSequence _ _ machine.memory = .ok cell memory from created] at ends
  have again (early : Machine κ) (registers : machine.Registers early) (address : Address) :
      Eval.onMemory address (Memory.createString bytes) early =
        .ok cell (Machine.withRoots { machine with memory } early.memory.roots) := by
    have same := Memory.createSequence_withRoots (Memory.stringSize bytes.length) (.bytes bytes) machine.memory
      early.memory.roots
    rw [show Memory.createSequence _ _ machine.memory = .ok cell memory from created] at same
    rw [registers.eq_withRoots]
    simp only [Eval.onMemory, Eval.onMemoryAs, Memory.createString, Machine.withRoots, same]
  have ready' : Machine.Ready { machine with memory } := by
    have keeps : Eval.Keeps (Eval.onMemory 0 (Memory.createString bytes)) machine _ :=
      .onMemory ready.toSteady (ready.sound.createString bytes)
    unfold Eval.Keeps Eval.KeepsFrom at keeps
    simp only [Eval.onMemory, Eval.onMemoryAs, created] at keeps
    exact keeps.1.ready ready
  have idles : machine.Idles { machine with memory } := by
    refine ⟨ready', rfl, .here _, rfl, rfl, ?_, ?_, fun handle reaches => ?_⟩
    · rw [adds.rest]
    · rw [adds.rest]
      exact .refl _
    · exact adds.keeps handle (ready.sound.isSome_contents reaches)
  refine supplies_of_primary limit running idles rfl fun inner start early registers has _ => ?_
  obtain ⟨quote, read⟩ := Store.restOfString?_quoted quotable has
  refine ⟨⟨start, start + (Symbol.quoted bytes).length, .string cell, none, .loose⟩, ?_, rfl, ?_⟩
  · rw [readPrimary_quote inner false quote]
    have literal : readStringLiteral (.starting start) early =
        (Eval.onMemory start (Memory.createString bytes) >>= fun cell => pure
          ⟨start, start + (Symbol.quoted bytes).length, .string cell, none, .loose⟩) early := by
      simp only [readStringLiteral, Expression.starting, bind, EStateM.bind, get, getThe, MonadStateOf.get,
        EStateM.get, read]
    exact literal.trans (Eval.bind_of_ok (again early registers start))
  · rw [Symbol.asBytes, List.length_map]

omit [Console κ] in
theorem readRest_index {inner : Inner κ} {left : Expression} {ceiling : Nat}
    (here : machine.store.byte left.code = 0x5b) (room : Nat) :
    readRest inner ceiling (room + 1) left machine =
      (applyIndex inner left >>= readRest inner ceiling room) (machine.tracking left.value) := by
  refine (Eval.bind_of_ok (show Eval.track left.value machine = .ok () (machine.tracking left.value) from
    rfl)).trans ?_
  refine (Eval.bind_of_ok (show Eval.byteAt left.code (machine.tracking left.value) =
    .ok (machine.store.byte left.code) _ from rfl)).trans ?_
  rw [here]
  rfl

omit [Console κ] in
theorem tooComplex_applyIndex {inner : Inner κ} {left : Expression} (present : left.value.isMissing = false)
    (complex : Eval.TooComplex (inner.argument (left.code + 1)) machine) :
    Eval.TooComplex (applyIndex inner left) machine := by
  simp only [applyIndex, present, Bool.false_eq_true, if_false]
  exact complex.bind _

omit [Console κ] in
theorem applyIndex_eq {inner : Inner κ} {left right : Expression} {index : Float32}
    (present : left.value.isMissing = false) (ran : inner.argument (left.code + 1) machine = .ok right after)
    (number : right.value = .number index) (here : after.store.byte right.code = 0x5d)
    (selects : select left.value index left.start after = .ok destination after)
    (held : (after.tracking left.value).memory.valueAt destination = .ok value) :
    applyIndex inner left machine = .ok { left with
      code := right.code + 1
      value
      destination? := some destination
      hold := .loose } (after.tracking left.value) := by
  simp only [applyIndex, present, Bool.false_eq_true, if_false]
  rw [Eval.bind_of_ok ran]
  simp only [number, Value.isMissing, Bool.false_eq_true, if_false]
  have byte : Eval.byteAt right.code after = .ok 0x5d after := by
    rw [← here]
    rfl
  refine (Eval.bind_of_ok byte).trans ?_
  refine (Eval.bind_of_ok selects).trans ?_
  have track : Eval.track left.value after = .ok () (after.tracking left.value) := rfl
  refine (Eval.bind_of_ok track).trans ?_
  exact Eval.bind_of_ok (Destination.read_eq held _ _)

/-- What an index selects is a place if the sequence is at one. -/
theorem Locates.index {base : Destination} {sequence : Value} {index : Float32}
    (locates : machine.Locates limit text base sequence) (tracked : machine.memory.Tracked)
    (supplies : machine.Supplies limit operand (.number index) machine)
    (selects : ∀ early, machine.Registers early → ∀ start, select sequence index start early = .ok destination early)
    (held : machine.memory.valueAt destination = .ok value) (present : value.isMissing = false)
    (reached : destination.Reached machine.memory) :
    machine.Locates limit (text ++ 0x5b :: (operand ++ [0x5d])) destination value := by
  refine ⟨held, present, reached, fun levels start ceiling isStatement early registers has _ => ?_⟩
  obtain ⟨has_text, opens, has_operand⟩ := Store.has_append.mp has
  obtain ⟨has_operand, closes, -⟩ := Store.has_append.mp has_operand
  have total : ∀ place : Nat, place + text.length + 1 + operand.length + 1 =
      place + (text ++ 0x5b :: (operand ++ [0x5d])).length := by
    intro place
    simp only [List.length_append, List.length_cons, List.length_nil]
    omega
  have inside : start + text.length < Store.capacity := Store.lt_capacity (by rw [opens]; decide)
  rcases locates.reads levels start ceiling isStatement early registers has_text (by rw [opens]; decide) with
    complex | ⟨left, late, room, ran, registers', enough, known, place, code⟩
  · exact .inl complex
  subst known
  obtain ⟨room, rfl⟩ : ∃ fewer, room = fewer + 1 := Nat.exists_eq_add_one.mpr (by omega)
  rw [readRest_index (by rw [registers'.store, code, opens])] at ran
  have registers'' := locates.registers tracked registers'
  rw [← code] at has_operand closes
  rcases supplies.computes levels (left.code + 1) _ registers'' has_operand (by rw [closes]; decide) with
    complex | ⟨right, ran', number, code'⟩
  · have complex : Eval.TooComplex ((innerOf limit levels).argument (left.code + 1)) _ := complex
    exact .inl (.of_eq ran ((tooComplex_applyIndex locates.present complex).bind _))
  -- The index leaves no registration behind, so only that of the sequence is new.
  rw [← registers''.eq_withRoots] at ran'
  have ran' : (innerOf limit levels).argument (left.code + 1) _ = _ := ran'
  have again := locates.registers tracked registers''
  have held' : ((late.tracking left.value).tracking left.value).memory.valueAt destination = .ok value := by
    rw [again.eq_withRoots, valueAt_withRoots]
    exact held
  have here : (late.tracking left.value).store.byte right.code = 0x5d := by rw [registers''.store, code', closes]
  have applied := applyIndex_eq locates.present ran' number here (selects _ registers'' _) held'
  refine .inr ⟨_, _, room, ran.trans (Eval.bind_of_ok applied), again, ?_, rfl, rfl, ?_⟩
  · refine Nat.le_trans enough ?_
    rw [← total]
    omega
  · rw [code', code]
    exact total start

section Selecting

variable {base : Destination} {cell : Handle} {index : Float32} {position : Nat}

omit [Console κ] in
theorem select_eq {sequence : Value} {count : Nat} (length : machine.memory.length sequence = .ok count)
    (named : sequence = .list cell ∨ sequence = .string cell) (whole : (truncate index).toInt = position)
    (inside : position < count) (start : Address) :
    select sequence index start machine = .ok (match sequence with
      | .string _ => .character cell position
      | _ => .element cell position) machine := by
  have seen : Eval.viewMemory start (·.length sequence) machine = .ok count machine := by
    simp only [Eval.viewMemory, Eval.onMemory, Eval.onMemoryAs, Memory.look, length]
  have within : ¬ ((truncate index).toInt < 0 ∨ (count : Int) ≤ (truncate index).toInt) := by
    rw [whole]
    omega
  rcases named with rfl | rfl
  · refine (Eval.bind_of_ok seen).trans ?_
    dsimp only
    rw [if_neg within, whole]
    rfl
  · refine (Eval.bind_of_ok seen).trans ?_
    dsimp only
    rw [if_neg within, whole]
    rfl

/-- An element of a list that is at a place. -/
theorem Locates.element (locates : machine.Locates limit text base (.list cell)) (tracked : machine.memory.Tracked)
    (supplies : machine.Supplies limit operand (.number index) machine) {values : List Value}
    (list : machine.memory.list cell = .ok values) (whole : (truncate index).toInt = position)
    (here : values[position]? = some value) (present : value.isMissing = false) :
    machine.Locates limit (text ++ 0x5b :: (operand ++ [0x5d])) (.element cell position) value := by
  obtain ⟨inside, -⟩ := List.getElem?_eq_some_iff.mp here
  refine locates.index tracked supplies (fun early registers start => ?_)
    (Memory.valueAt_element.mpr ⟨values, list, here⟩) present (locates.reached.reaches tracked locates.held rfl)
  have length : early.memory.length (.list cell) = .ok values.length := by
    rw [registers.eq_withRoots]
    exact congrArg (Except.map List.length) list
  exact select_eq length (.inl rfl) whole inside start

/-- A byte of a string that is at a place. -/
theorem Locates.character (locates : machine.Locates limit text base (.string cell)) (tracked : machine.memory.Tracked)
    (supplies : machine.Supplies limit operand (.number index) machine) {bytes : List UInt8} {byte : UInt8}
    (string : machine.memory.string cell = .ok bytes) (whole : (truncate index).toInt = position)
    (here : bytes[position]? = some byte) :
    machine.Locates limit (text ++ 0x5b :: (operand ++ [0x5d])) (.character cell position)
      (.number byte.toFloat32) := by
  obtain ⟨inside, -⟩ := List.getElem?_eq_some_iff.mp here
  refine locates.index tracked supplies (fun early registers start => ?_)
    (Memory.valueAt_character.mpr ⟨bytes, byte, string, here, rfl⟩) rfl
    (locates.reached.reaches tracked locates.held rfl)
  have length : early.memory.length (.string cell) = .ok bytes.length := by
    rw [registers.eq_withRoots]
    exact congrArg (Except.map List.length) string
  exact select_eq length (.inr rfl) whole inside start

end Selecting

end Machine

end PocketScript
