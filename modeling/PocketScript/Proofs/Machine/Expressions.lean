import PocketScript.Proofs.Machine.Keeping

/-! # Expressions under way

What can be relied on while an expression is evaluated: its value is live, and
its destination is kept as its hold says. A destination in a string or list that
nothing keeps any more may be accessed all the same; memory refuses that, or
gives what is live.
-/

namespace PocketScript

variable {memory after : Memory} {value : Value} {hold : Hold} {destination : Destination}

/-- What a hold assures of a string or list. -/
def Hold.Covers (hold : Hold) (memory : Memory) (value : Value) : Prop :=
  match hold with
  | .kept => memory.roots.Registered value
  | .passedOn => memory.Live value
  | .loose => True

namespace Hold.Covers

theorem live (covers : hold.Covers memory value) (sound : memory.Sound) :
    hold = .loose ∨ memory.Live value := by
  cases hold with
  | kept => exact .inr (sound.registered value covers)
  | passedOn => exact .inr covers
  | loose => exact .inl rfl

theorem evolves (covers : hold.Covers memory value) (evolves : memory.Evolves after) :
    hold.Covers after value := by
  cases hold with
  | kept => exact evolves.roots.registered covers
  | passedOn => exact evolves.keeps value covers
  | loose => trivial

theorem handOver (covers : hold.Covers memory value) (sound : memory.Sound) :
    hold.handOver.Covers memory value := by
  cases hold with
  | kept => exact sound.registered value covers
  | passedOn => exact covers
  | loose => trivial

/-- Only registrations outlast what is evaluated next. -/
theorem outlast (covers : hold.Covers memory value) (follows : memory.Follows after) :
    hold.outlast.Covers after value := by
  cases hold with
  | kept => exact follows.roots.registered covers
  | passedOn | loose => trivial

/-- What is registered is covered by every hold. -/
theorem ofKept (covers : Hold.kept.Covers memory value) (sound : memory.Sound) (hold : Hold) :
    hold.Covers memory value := by
  cases hold with
  | kept => exact covers
  | passedOn => exact sound.registered value covers
  | loose => trivial

/-- A refused access is put down to a collected object only if nothing kept it. -/
theorem cause_ne (covers : hold.Covers memory value) (sound : memory.Sound) {error : MemoryError}
    (other : memory.Live value → error ≠ .dangling) : hold.cause error ≠ .memory .dangling := by
  intro same
  rcases covers.live sound with rfl | live
  · simp [Hold.cause] at same
  · refine other live ?_
    cases hold with
    | kept | passedOn => exact FaultCause.memory.inj same
    | loose => simp [Hold.cause] at same

end Hold.Covers

/-- What a hold assures of a destination. -/
def Destination.Held (destination : Destination) (hold : Hold) (memory : Memory) : Prop :=
  match destination with
  | .variable place => (memory.stack.variableAt? place).isSome
  | .element list _ => hold.Covers memory (.list list)
  | .character string _ => hold.Covers memory (.string string)

namespace Destination.Held

theorem evolves (held : destination.Held hold memory) (evolves : memory.Evolves after) :
    destination.Held hold after := by
  match destination with
  | .variable place => exact evolves.places place held
  | .element list _ => exact Hold.Covers.evolves held evolves
  | .character string _ => exact Hold.Covers.evolves held evolves

theorem handOver (held : destination.Held hold memory) (sound : memory.Sound) :
    destination.Held hold.handOver memory := by
  match destination with
  | .variable place => exact held
  | .element list _ => exact Hold.Covers.handOver held sound
  | .character string _ => exact Hold.Covers.handOver held sound

theorem ofKept (held : destination.Held .kept memory) (sound : memory.Sound) (hold : Hold) :
    destination.Held hold memory := by
  match destination with
  | .variable place => exact held
  | .element list _ => exact Hold.Covers.ofKept held sound hold
  | .character string _ => exact Hold.Covers.ofKept held sound hold

theorem outlast (held : destination.Held hold memory) (follows : memory.Follows after) :
    destination.Held hold.outlast after := by
  match destination with
  | .variable place => exact follows.places place held
  | .element list _ => exact Hold.Covers.outlast held follows
  | .character string _ => exact Hold.Covers.outlast held follows

end Destination.Held

namespace Destination

open Eval (Keeps)

variable {κ : Type} {machine : Machine κ}

theorem keeps_read (steady : machine.Steady) (held : destination.Held hold machine.memory)
    (address : Address) :
    Keeps (destination.read hold address) machine fun value after =>
      machine.memory.Evolves after.memory ∧ after.memory.Live value := by
  have same : machine.memory.Evolves machine.memory := .refl steady.sound
  have heap := steady.sound.heap
  match destination with
  | .variable place =>
      obtain ⟨binding, there⟩ := Option.isSome_iff_exists.mp held
      have value : machine.memory.variableValue? place = some binding.value := by
        rw [Memory.variableValue?, there, Option.map_some]
      have live := steady.sound.bound place binding there
      have runs : ∀ view : Memory → Except MemoryError Value, view machine.memory = .ok binding.value →
          Memory.Runs (Memory.look view) machine.memory fun value after => after.Live value := by
        intro view seen
        refine .look steady.sound (by simp [seen]) fun found seen' => ?_
        obtain rfl : binding.value = found := by simpa [seen] using seen'
        exact live
      exact Keeps.onMemory steady (runs _ (by simp only [value]))
  | .element list index =>
      have ends : MemoryM.Ends (Memory.look (·.element list index)) machine.memory
          (fun value after => machine.memory.Evolves after ∧ after.Live value)
          fun error after => hold.cause error ≠ .memory .dangling ∧ after.heap.WellFormed := by
        refine .look (fun found seen => ⟨same, steady.sound.element seen⟩) fun error seen => ?_
        refine ⟨Hold.Covers.cause_ne held steady.sound fun live absurd => ?_, heap⟩
        exact Memory.element_ne live index (absurd ▸ seen)
      exact Keeps.onMemoryAs steady ends
  | .character string index =>
      have ends : MemoryM.Ends (Memory.look (·.byte string index)) machine.memory
          (fun _ after => machine.memory.Evolves after ∧ True)
          fun error after => hold.cause error ≠ .memory .dangling ∧ after.heap.WellFormed := by
        refine .look (fun found seen => ⟨same, trivial⟩) fun error seen => ?_
        refine ⟨Hold.Covers.cause_ne held steady.sound fun live absurd => ?_, heap⟩
        exact Memory.byte_ne live index (absurd ▸ seen)
      refine (Keeps.onMemoryAs steady ends).bind ?_
      rintro byte after follows ⟨evolves, -⟩
      exact .pure follows.steady ⟨evolves, trivial⟩

/-- A write in a string or list that is there, or that memory refuses. -/
theorem ends_write (sound : memory.Sound) {operation : MemoryM Unit} (covers : hold.Covers memory value)
    (runs : memory.Live value → Memory.Runs operation memory fun _ _ => True)
    (refused : ¬ memory.Live value → ∃ error, operation memory = .error error memory) :
    MemoryM.Ends operation memory (fun _ after => memory.Evolves after ∧ True)
      fun error after => hold.cause error ≠ .memory .dangling ∧ after.heap.WellFormed := by
  by_cases live : memory.Live value
  · refine MemoryM.Ends.mono (runs live) (fun _ _ ended => ended) ?_
    rintro error after ⟨other, heap⟩
    exact ⟨covers.cause_ne sound fun _ => other, heap⟩
  · obtain ⟨error, ran⟩ := refused live
    unfold MemoryM.Ends
    simp only [ran]
    exact ⟨covers.cause_ne sound fun there => absurd there live, sound.heap⟩

theorem keeps_write (steady : machine.Steady) (held : destination.Held hold machine.memory)
    (live : machine.memory.Live value) (address : Address) :
    Keeps (destination.write hold value address) machine fun _ after =>
      machine.memory.Evolves after.memory := by
  have sound := steady.sound
  match destination with
  | .variable place =>
      exact (Keeps.onMemory steady (sound.setVariable live held)).mono fun _ _ _ done => done.1
  | .element list index =>
      have ends := ends_write sound held (fun there => sound.setElement there index live)
        fun dead => Memory.setElement_of_not_live dead index value
      exact (Keeps.onMemoryAs steady ends).mono fun _ _ _ done => done.1
  | .character string index =>
      cases value with
      | number number =>
          have ends := ends_write sound held
            (fun there => sound.setByte there index (Memory.byteOfNumber number))
            fun dead => Memory.setByte_of_not_live dead index (Memory.byteOfNumber number)
          exact (Keeps.onMemoryAs steady ends).mono fun _ _ _ done => done.1
      | missing | string _ | list _ | function _ => exact .raise steady _

end Destination

/-- What holds while an expression is under way. -/
structure Expression.Valid (expression : Expression) (memory : Memory) : Prop where
  value : memory.Live expression.value
  destination : ∀ destination, expression.destination? = some destination →
    destination.Held expression.hold memory

/-- What holds when an expression was left. -/
structure Expression.Fresh (expression : Expression) (memory : Memory) : Prop where
  value : memory.Live expression.value
  destination : ∀ destination, expression.destination? = some destination →
    destination.Held expression.hold.handOver memory

/-- Nothing was evaluated yet. -/
structure Expression.Bare (expression : Expression) : Prop where
  value : expression.value = .missing
  destination : expression.destination? = none

namespace Expression

variable {expression : Expression}

theorem Bare.valid (bare : expression.Bare) (memory : Memory) : expression.Valid memory := by
  refine ⟨?_, fun destination some_destination => ?_⟩
  · rw [bare.value]
    trivial
  · simp [bare.destination] at some_destination

/-- A value without a destination. -/
theorem Valid.ofNone (live : memory.Live expression.value) (none : expression.destination? = none) :
    expression.Valid memory :=
  ⟨live, fun destination some_destination => by simp [none] at some_destination⟩

theorem bare_starting (start : Address) : (starting start).Bare :=
  ⟨rfl, rfl⟩

theorem Valid.evolves (valid : expression.Valid memory) (evolves : memory.Evolves after) :
    expression.Valid after :=
  ⟨evolves.keeps _ valid.value, fun destination some_destination =>
    (valid.destination destination some_destination).evolves evolves⟩

/-- Going on after something else was evaluated. -/
theorem Valid.outlast (valid : expression.Valid memory) (follows : memory.Follows after)
    (live : after.Live expression.value) (code : Address) :
    { expression with code, hold := expression.hold.outlast }.Valid after :=
  ⟨live, fun destination some_destination =>
    (valid.destination destination some_destination).outlast follows⟩

/-- Leaving an expression releases what it registered. -/
theorem Valid.release (valid : expression.Valid memory) (sound : memory.Sound) (roots : Roots) :
    expression.Fresh { memory with roots } := by
  refine ⟨valid.value, fun destination some_destination => ?_⟩
  have held := (valid.destination destination some_destination).handOver sound
  match destination with
  | .variable place => exact held
  | .element list _ | .character string _ =>
      cases hold : expression.hold <;> simp only [hold] at held <;> exact held

end Expression

/-- Evaluation one level further in keeps memory sound. -/
structure Inner.Sound {κ : Type} (inner : Inner κ) : Prop where
  expression : ∀ {machine : Machine κ}, machine.Ready → ∀ start ceiling isStatement,
    Eval.Keeps (inner.expression start ceiling isStatement) machine
      fun expression after => expression.Fresh after.memory
  code : ∀ {machine : Machine κ}, machine.Ready → ∀ address,
    Eval.Keeps (inner.code address) machine fun value after => after.memory.Live value
  body : ∀ {body : Address → Eval κ Value}, inner.body? = some body →
    ∀ {machine : Machine κ}, machine.Ready → ∀ address,
      Eval.Keeps (body address) machine fun value after => after.memory.Live value

theorem Inner.Sound.argument {κ : Type} {inner : Inner κ} (sound : inner.Sound) {machine : Machine κ}
    (ready : machine.Ready) (start : Address) :
    Eval.Keeps (inner.argument start) machine fun expression after => expression.Fresh after.memory :=
  sound.expression ready start _ _

end PocketScript
