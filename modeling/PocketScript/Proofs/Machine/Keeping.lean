import PocketScript.Machine.State
import PocketScript.Proofs.Memory.Survival

/-! # Evaluation that keeps memory sound

An evaluation that starts with sound memory goes on with sound memory, loses no
registration and no variable, and never ends in a fault because of a collected
object that something kept. `Keeps` says this of one evaluation; evaluations are
put together by `Keeps.bind`. Where an evaluation gives back what another one
opened, `KeepsFrom` speaks of both together.
-/

namespace PocketScript

/-- What an evaluation leads to: no registration and no variable is lost. Values
    that are not registered may have been collected. -/
structure Memory.Follows (memory after : Memory) : Prop where
  sound : after.Sound
  depth : after.stack.scopes.size = memory.stack.scopes.size
  places : ∀ place, (memory.stack.variableAt? place).isSome → (after.stack.variableAt? place).isSome
  roots : memory.roots.Extends after.roots

theorem Memory.Evolves.follows {memory after : Memory} (evolves : memory.Evolves after) :
    memory.Follows after :=
  ⟨evolves.sound, evolves.depth, evolves.places, evolves.roots⟩

namespace Machine

variable {κ : Type} {machine after last : Machine κ} {value : Value}

/-- There was no fault because of a collected object that something kept. -/
def Harmless (machine : Machine κ) : Prop :=
  ∀ address, machine.fault? ≠ some ⟨.memory .dangling, address⟩

/-- What operations start with. -/
structure Steady (machine : Machine κ) : Prop where
  harmless : machine.Harmless
  sound : machine.memory.Sound

/-- What evaluation that may collect starts with. -/
structure Ready (machine : Machine κ) : Prop extends machine.Steady where
  tracked : machine.memory.Tracked

/-- What evaluation leads to. -/
structure Follows (machine after : Machine κ) : Prop where
  harmless : after.Harmless
  memory : machine.memory.Follows after.memory

/-- What is left of a program that ended. -/
structure Ended (machine : Machine κ) : Prop where
  harmless : machine.Harmless
  heap : machine.memory.heap.WellFormed

theorem Steady.ended (steady : machine.Steady) : machine.Ended :=
  ⟨steady.harmless, steady.sound.heap⟩

namespace Follows

theorem refl (steady : machine.Steady) : machine.Follows machine :=
  ⟨steady.harmless, steady.sound, rfl, fun _ there => there, .refl _⟩

theorem trans (first : machine.Follows after) (second : after.Follows last) : machine.Follows last :=
  ⟨second.harmless, second.memory.sound, second.memory.depth.trans first.memory.depth,
    fun place there => second.memory.places place (first.memory.places place there),
    first.memory.roots.trans second.memory.roots⟩

theorem steady (follows : machine.Follows after) : after.Steady :=
  ⟨follows.harmless, follows.memory.sound⟩

theorem ready (follows : machine.Follows after) (before : machine.Ready) : after.Ready := by
  refine ⟨follows.steady, fun index inside => ?_⟩
  rw [follows.memory.depth] at inside
  exact follows.memory.roots.mem_scope (before.tracked index inside)

/-- Nothing else is counted as nesting is. -/
theorem enter (steady : machine.Steady) : machine.Follows machine.enter :=
  ⟨steady.harmless, (Follows.refl steady).memory⟩

/-- What is registered stays live. -/
theorem live (follows : machine.Follows after) (guards : machine.memory.roots.Guards value) :
    after.memory.Live value := by
  cases value with
  | missing | number _ | function _ => trivial
  | string cell => exact follows.memory.sound.registered _ (follows.memory.roots.registered (guards rfl))
  | list cell => exact follows.memory.sound.registered _ (follows.memory.roots.registered (guards rfl))

/-- One operation on memory. -/
theorem ofEvolves (harmless : after.Harmless) (evolves : machine.memory.Evolves after.memory) :
    machine.Follows after :=
  ⟨harmless, evolves.follows⟩

/-- Something else than memory changed. -/
theorem ofMemory_eq (steady : machine.Steady) (harmless : after.Harmless)
    (same : after.memory = machine.memory) : machine.Follows after := by
  refine .ofEvolves harmless ?_
  rw [same]
  exact .refl steady.sound

end Follows

end Machine

namespace Eval

variable {κ α β : Type} {evaluation : Eval κ α} {next : α → Eval κ β}
  {base machine after : Machine κ} {done : α → Machine κ → Prop} {done' : β → Machine κ → Prop}
  {value : Value} {address : Address}

/-- An evaluation leads to a machine that follows `base`, and to a result of
    which `done` holds, or to an answer that is live; or the program ends. -/
def KeepsFrom (base : Machine κ) (evaluation : Eval κ α) (machine : Machine κ)
    (done : α → Machine κ → Prop) : Prop :=
  match evaluation machine with
  | .ok result after => base.Follows after ∧ done result after
  | .error (.answer value) after => base.Follows after ∧ after.memory.Live value
  | .error _ after => after.Ended

/-- An evaluation leads to a machine that follows the one it started with. -/
def Keeps (evaluation : Eval κ α) (machine : Machine κ) (done : α → Machine κ → Prop) : Prop :=
  KeepsFrom machine evaluation machine done

theorem KeepsFrom.mono (keeps : KeepsFrom base evaluation machine done)
    {done' : α → Machine κ → Prop}
    (more : ∀ result after, base.Follows after → done result after → done' result after) :
    KeepsFrom base evaluation machine done' := by
  unfold KeepsFrom at keeps ⊢
  cases ran : evaluation machine with
  | ok result after =>
      simp only [ran] at keeps
      exact ⟨keeps.1, more result after keeps.1 keeps.2⟩
  | error interrupt after =>
      simp only [ran] at keeps
      cases interrupt with
      | answer value | quit | unfinished => exact keeps

theorem KeepsFrom.bind (first : KeepsFrom base evaluation machine done)
    (rest : ∀ result after, base.Follows after → done result after → KeepsFrom base (next result) after done') :
    KeepsFrom base (evaluation >>= next) machine done' := by
  unfold KeepsFrom at first ⊢
  simp only [Bind.bind, EStateM.bind]
  cases ran : evaluation machine with
  | ok result middle =>
      simp only [ran] at first
      exact rest result middle first.1 first.2
  | error interrupt middle =>
      simp only [ran] at first
      cases interrupt with
      | answer value | quit | unfinished => exact first

theorem KeepsFrom.bind_ran {result : α} (ran : evaluation machine = .ok result after)
    (rest : KeepsFrom base (next result) after done') : KeepsFrom base (evaluation >>= next) machine done' := by
  unfold KeepsFrom at rest ⊢
  simpa only [Bind.bind, EStateM.bind, ran] using rest

theorem KeepsFrom.bind_ended (ran : evaluation machine = .error .quit after) (ended : after.Ended) :
    KeepsFrom base (evaluation >>= next) machine done' := by
  unfold KeepsFrom
  simpa only [Bind.bind, EStateM.bind, ran] using ended

theorem Keeps.from (keeps : Keeps evaluation machine done) (follows : base.Follows machine) :
    KeepsFrom base evaluation machine done := by
  unfold Keeps KeepsFrom at keeps
  unfold KeepsFrom
  cases ran : evaluation machine with
  | ok result after =>
      simp only [ran] at keeps
      exact ⟨follows.trans keeps.1, keeps.2⟩
  | error interrupt after =>
      simp only [ran] at keeps
      cases interrupt with
      | answer value => exact ⟨follows.trans keeps.1, keeps.2⟩
      | quit | unfinished => exact keeps

/-- A change afterwards that gives back what was opened since. -/
theorem KeepsFrom.always {opened : Machine κ} {change : Machine κ → Machine κ}
    {done' : α → Machine κ → Prop} (keeps : KeepsFrom opened evaluation machine done)
    (heap : ∀ after, (change after).memory.heap = after.memory.heap)
    (fault : ∀ after, (change after).fault? = after.fault?)
    (closes : ∀ after, opened.Follows after → base.Follows (change after))
    (more : ∀ result after, opened.Follows after → done result after → done' result (change after)) :
    KeepsFrom base (always change evaluation) machine done' := by
  have ended : ∀ after : Machine κ, after.Ended → (change after).Ended := by
    intro after ended
    refine ⟨fun address => ?_, ?_⟩
    · rw [fault]
      exact ended.harmless address
    · rw [heap]
      exact ended.heap
  unfold KeepsFrom at keeps ⊢
  unfold Eval.always
  cases ran : evaluation machine with
  | ok result after =>
      simp only [ran] at keeps
      exact ⟨closes after keeps.1, more result after keeps.1 keeps.2⟩
  | error interrupt after =>
      simp only [ran] at keeps
      cases interrupt with
      | answer value =>
          refine ⟨closes after keeps.1, ?_⟩
          rw [Memory.Live, heap]
          exact keeps.2
      | quit | unfinished => exact ended after keeps

/-- Evaluation one level deeper. -/
theorem KeepsFrom.nested (keeps : KeepsFrom base evaluation machine.enter done)
    (more : ∀ result after, done result after → done result after.leave) :
    KeepsFrom base (nested evaluation) machine done :=
  .always keeps (fun _ => rfl) (fun _ => rfl) (fun _ follows => ⟨follows.harmless, follows.memory⟩)
    fun result after _ => more result after

namespace Keeps

theorem mono (keeps : Keeps evaluation machine done)
    {done' : α → Machine κ → Prop}
    (more : ∀ result after, machine.Follows after → done result after → done' result after) :
    Keeps evaluation machine done' :=
  KeepsFrom.mono keeps more

theorem bind (first : Keeps evaluation machine done)
    (rest : ∀ result after, machine.Follows after → done result after → Keeps (next result) after done') :
    Keeps (evaluation >>= next) machine done' :=
  KeepsFrom.bind first fun result after follows holds => (rest result after follows holds).from follows

theorem pure (steady : machine.Steady) {result : α} (holds : done result machine) :
    Keeps (Pure.pure result) machine done :=
  ⟨.refl steady, holds⟩

theorem quit (steady : machine.Steady) : Keeps (throw .quit : Eval κ α) machine done :=
  steady.ended

theorem unfinished (steady : machine.Steady) : Keeps (throw .unfinished : Eval κ α) machine done :=
  steady.ended

theorem answer (steady : machine.Steady) (live : machine.memory.Live value) :
    Keeps (throw (.answer value) : Eval κ α) machine done :=
  ⟨.refl steady, live⟩

theorem fail (steady : machine.Steady) {cause : FaultCause} (other : cause ≠ .memory .dangling) :
    Keeps (fail cause address : Eval κ α) machine done := by
  refine ⟨fun found same => other ?_, steady.sound.heap⟩
  simp only [Machine.noted_inattentive, Option.some.injEq, Fault.mk.injEq] at same
  exact same.1

theorem raise (steady : machine.Steady) (kind : FaultKind) :
    Keeps (raise kind address : Eval κ α) machine done :=
  .fail steady (by simp)

/-- Looking at the machine. -/
theorem get_bind {next : Machine κ → Eval κ β} (rest : Keeps (next machine) machine done') :
    Keeps (get >>= next) machine done' :=
  rest

theorem byteAt_bind {next : UInt8 → Eval κ β} (rest : Keeps (next (machine.store.byte address)) machine done') :
    Keeps (byteAt address >>= next) machine done' :=
  rest

/-- Changing something else than memory. -/
theorem modifyGet (steady : machine.Steady) {change : Machine κ → α × Machine κ}
    (same : (change machine).2.memory = machine.memory)
    (fault : (change machine).2.fault? = machine.fault?) :
    Keeps (modifyGet change) machine fun _ after => after.memory = machine.memory := by
  refine ⟨.ofMemory_eq steady (fun address => ?_) same, same⟩
  rw [fault]
  exact steady.harmless address

/-- Operating on memory. -/
theorem onMemoryAs (steady : machine.Steady) {operation : MemoryM α} {cause : MemoryError → FaultCause}
    {done : α → Memory → Prop}
    (ends : MemoryM.Ends operation machine.memory
      (fun result after => machine.memory.Evolves after ∧ done result after)
      fun error after => cause error ≠ .memory .dangling ∧ after.heap.WellFormed) :
    Keeps (onMemoryAs cause address operation) machine fun result after =>
      machine.memory.Evolves after.memory ∧ done result after.memory := by
  unfold Keeps KeepsFrom Eval.onMemoryAs
  unfold MemoryM.Ends at ends
  cases ran : operation machine.memory with
  | ok result memory =>
      simp only [ran] at ends
      exact ⟨.ofEvolves steady.harmless ends.1, ends⟩
  | error error memory =>
      simp only [ran] at ends
      refine ⟨fun found same => ends.1 ?_, ends.2⟩
      simp only [Machine.noted_inattentive, Option.some.injEq, Fault.mk.injEq] at same
      exact same.1

theorem onMemory (steady : machine.Steady) {operation : MemoryM α} {done : α → Memory → Prop}
    (runs : Memory.Runs operation machine.memory done) :
    Keeps (onMemory address operation) machine fun result after =>
      machine.memory.Evolves after.memory ∧ done result after.memory :=
  .onMemoryAs steady <| MemoryM.Ends.mono runs (fun _ _ ended => ended)
    fun _ _ refused => ⟨fun same => refused.1 (FaultCause.memory.inj same), refused.2⟩

/-- Looking at memory. -/
theorem viewMemory (steady : machine.Steady) {view : Memory → Except MemoryError α}
    (other : view machine.memory ≠ .error .dangling) :
    Keeps (viewMemory address view) machine fun result after =>
      machine.memory.Evolves after.memory ∧ view machine.memory = .ok result := by
  have looks : Memory.Runs (Memory.look view) machine.memory fun result _ => view machine.memory = .ok result :=
    .look steady.sound other fun _ seen => seen
  exact .onMemory steady looks

/-- Changing blocks. -/
theorem onStack (steady : machine.Steady) {operation : ScopeStack → α × ScopeStack}
    (same : machine.memory.stack.SameVariables (operation machine.memory.stack).2) :
    Keeps (onStack operation) machine fun _ after => machine.memory.Evolves after.memory := by
  have evolves : machine.memory.Evolves
      { machine.memory with stack := (operation machine.memory.stack).2 } :=
    .sameVariables steady.sound same
  exact ⟨.ofEvolves steady.harmless evolves, evolves⟩

/-- Registering live values. -/
theorem modifyRoots (steady : machine.Steady) {change : Roots → Roots}
    (since : machine.memory.roots.Extends (change machine.memory.roots))
    (live : ∀ value, (change machine.memory.roots).Registered value → machine.memory.Live value) :
    Keeps (modifyRoots change) machine fun _ after => machine.memory.Evolves after.memory ∧
      after.memory.roots = change machine.memory.roots := by
  have evolves : machine.memory.Evolves { machine.memory with roots := change machine.memory.roots } :=
    ⟨⟨steady.sound.heap, steady.sound.consistent, steady.sound.bound, live⟩, fun _ live => live, rfl,
      fun _ there => there, since⟩
  exact ⟨.ofEvolves steady.harmless evolves, evolves, rfl⟩

theorem track (steady : machine.Steady) (live : machine.memory.Live value) :
    Keeps (track value) machine fun _ after => machine.memory.Evolves after.memory ∧
      after.memory.roots.Guards value := by
  have registers : Keeps (Eval.modifyRoots fun roots => roots.track value) machine fun _ after =>
      machine.memory.Evolves after.memory ∧ after.memory.roots = machine.memory.roots.track value := by
    refine modifyRoots steady (Roots.extends_track _ value) fun other registered => ?_
    rcases Roots.registered_track registered with before | rfl
    · exact steady.sound.registered other before
    · exact live
  refine registers.mono ?_
  rintro _ after - ⟨evolves, roots⟩
  refine ⟨evolves, ?_⟩
  rw [roots]
  exact Roots.guards_track _ value

theorem trackIn (steady : machine.Steady) (live : machine.memory.Live value) {array : Nat}
    (collects : machine.memory.roots.Collects array) :
    Keeps (Eval.modifyRoots (·.trackIn array value)) machine fun _ after =>
      machine.memory.Evolves after.memory ∧ after.memory.roots.Registered value := by
  refine (modifyRoots steady (Roots.extends_trackIn _ array value) fun other registered => ?_).mono ?_
  · rcases Roots.registered_trackIn registered with before | rfl
    · exact steady.sound.registered other before
    · exact live
  · rintro _ after - ⟨evolves, roots⟩
    refine ⟨evolves, ?_⟩
    rw [roots]
    exact Roots.registered_trackIn_self collects value

/-- Registering a list of no values, or a scope. -/
theorem pushRoot (steady : machine.Steady) {root : Root} (none : root.registered = []) :
    Keeps (Eval.modifyRoots (Array.push · root)) machine fun _ after =>
      machine.memory.Evolves after.memory ∧ after.memory.roots = machine.memory.roots.push root := by
  refine modifyRoots steady (Roots.extends_push _ root) fun other registered => ?_
  rcases (Roots.registered_push root).mp registered with before | mem
  · exact steady.sound.registered other before
  · simp [none] at mem

theorem trackValues (steady : machine.Steady) :
    Keeps trackValues machine fun array after => machine.memory.Evolves after.memory ∧
      after.memory.roots.Collects array := by
  have none : (Root.values []).registered = [] := rfl
  obtain ⟨follows, evolves, roots⟩ := pushRoot steady none
  exact ⟨follows, evolves, Roots.collects_push _⟩

end Keeps

end Eval

/-- Dropping what was registered since. -/
theorem Machine.Follows.release {κ : Type} {machine after : Machine κ} (follows : machine.Follows after) :
    machine.Follows { after with
      memory := { after.memory with roots := Roots.release after.memory.roots machine.memory.roots.size } } := by
  obtain ⟨harmless, sound, depth, places, roots⟩ := follows
  refine ⟨harmless, ⟨sound.heap, sound.consistent, sound.bound, fun value registered => ?_⟩, depth, places,
    roots.release.1⟩
  exact sound.registered value (Roots.registered_release registered)

/-- A result that does not need what was registered meanwhile. -/
theorem Eval.Keeps.releasing {κ α : Type} {evaluation : Eval κ α} {machine : Machine κ}
    {done done' : α → Machine κ → Prop} (keeps : Keeps evaluation machine done)
    (more : ∀ result after, after.Steady → done result after →
      ∀ roots, done' result { after with memory := { after.memory with roots } }) :
    Keeps (Eval.releasing evaluation) machine done' :=
  KeepsFrom.always keeps (fun _ => rfl) (fun _ => rfl) (fun _ follows => follows.release)
    fun result after follows holds => more result after follows.steady holds _

end PocketScript
