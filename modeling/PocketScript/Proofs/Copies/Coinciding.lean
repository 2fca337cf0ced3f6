import PocketScript.Proofs.Copies.Leading
import PocketScript.Proofs.Copies.Stores

/-! # Evaluation on copies

The same evaluation on two machines, one of which has the original of a store and the
other one the copy, and nothing else between them. It coincides if it ends the same
way, with the same result, on machines of which that is true again, unless on the
original it ends at a character literal that the end of the code cuts off.
-/

namespace PocketScript

variable {κ α β : Type} {copies later : Copies} {own? : Option Address} {start address : Address} {value : Value}

/-- At an address there is a character literal that the end of the code cuts off: the
    zero stands where its character should be. -/
def Store.CutsOff (store : Store) (address : Address) : Prop :=
  store.byte address = 0x27 ∧
    (store.byte (address + 1) = 0 ∨ store.byte (address + 1) = 0x5c ∧ store.byte (address + 2) = 0)

/-- An answer leads to known code. -/
def Interrupt.LeadsTo (known : Address → Prop) : Interrupt → Prop
  | .answer value => value.LeadsTo known
  | _ => True

namespace Machine

/-- A machine with another store. -/
def withStore (machine : Machine κ) (store : Store) : Machine κ :=
  { machine with store }

/-- A machine has the original, and all that it names is known code. -/
structure WorksOn (copies : Copies) (machine : Machine κ) : Prop where
  store : machine.store = copies.original
  memory : machine.memory.LeadsTo (copies.Knows none)
  fault : ∀ fault, machine.fault? = some fault → copies.Knows none fault.address

/-- The program failed at a character literal that the end of the code cuts off. -/
def CutOff (machine : Machine κ) : Prop :=
  ∃ address, machine.fault? = some ⟨.program .missingApostrophe, address⟩ ∧ machine.store.CutsOff address

theorem WorksOn.withMemory {machine : Machine κ} (works : machine.WorksOn copies) {memory : Memory}
    (leads : memory.LeadsTo (copies.Knows none)) : { machine with memory }.WorksOn copies :=
  ⟨works.store, leads, works.fault⟩

end Machine

namespace Eval

/-- Evaluation ended the same way on both machines, and copies were reached. -/
inductive Coincident (reached : Copies → Prop) (done : Copies → α → Prop) :
    EStateM.Result Interrupt (Machine κ) α → EStateM.Result Interrupt (Machine κ) α → Prop where
  | ok {later : Copies} {result : α} {after : Machine κ} (here : reached later) (works : after.WorksOn later)
      (holds : done later result) : Coincident reached done (.ok result after) (.ok result (after.withStore later.copy))
  | error {later : Copies} {interrupt : Interrupt} {after : Machine κ} (here : reached later)
      (works : after.WorksOn later) (leads : interrupt.LeadsTo (later.Knows none)) :
      Coincident reached done (.error interrupt after) (.error interrupt (after.withStore later.copy))
  | cutOff {after : Machine κ} {second : EStateM.Result Interrupt (Machine κ) α} (cut : after.CutOff) :
      Coincident reached done (.error .quit after) second

/-- Evaluation coincides, and leaves the stores as they were. -/
def Still (copies : Copies) (evaluation : Eval κ α) (done : α → Prop) : Prop :=
  ∀ machine, machine.WorksOn copies →
    Coincident (· = copies) (fun _ => done) (evaluation machine) (evaluation (machine.withStore copies.copy))

/-- Evaluation coincides. -/
def Coincides (copies : Copies) (evaluation : Eval κ α) (done : Copies → α → Prop) : Prop :=
  ∀ machine, machine.WorksOn copies →
    Coincident (copies ≤ ·) done (evaluation machine) (evaluation (machine.withStore copies.copy))

theorem Coincident.mono {reached reached' : Copies → Prop} {done done' : Copies → α → Prop}
    {first second : EStateM.Result Interrupt (Machine κ) α} (coincident : Coincident reached done first second)
    (reaches : ∀ later, reached later → reached' later)
    (more : ∀ later result, reached later → done later result → done' later result) :
    Coincident reached' done' first second := by
  cases coincident with
  | ok here works holds => exact .ok (reaches _ here) works (more _ _ here holds)
  | error here works leads => exact .error (reaches _ here) works leads
  | cutOff cut => exact .cutOff cut

theorem Coincident.bind {reached reached' : Copies → Prop} {done : Copies → α → Prop} {done' : Copies → β → Prop}
    {evaluation : Eval κ α} {next : α → Eval κ β} {machine other : Machine κ}
    (coincident : Coincident reached done (evaluation machine) (evaluation other))
    (reaches : ∀ later, reached later → reached' later)
    (goes : ∀ later result after, reached later → after.WorksOn later → done later result →
      Coincident reached' done' (next result after) (next result (after.withStore later.copy))) :
    Coincident reached' done' ((evaluation >>= next) machine) ((evaluation >>= next) other) := by
  simp only [Bind.bind, EStateM.bind]
  generalize evaluation machine = first, evaluation other = second at coincident
  cases coincident with
  | ok here works holds => exact goes _ _ _ here works holds
  | error here works leads => exact .error (reaches _ here) works leads
  | cutOff cut => exact .cutOff cut

section Bind

variable {evaluation : Eval κ α} {next : α → Eval κ β} {done : α → Prop} {done' : β → Prop}

theorem Still.bind (one : Still copies evaluation done)
    (two : ∀ result, done result → Still copies (next result) done') :
    Still copies (evaluation >>= next) done' := by
  intro machine works
  refine (one machine works).bind (fun _ same => same) ?_
  rintro _ result after rfl works holds
  exact two result holds after works

/-- Evaluation that leaves the stores as they were, in front. -/
theorem Still.then {done' : Copies → β → Prop} (one : Still copies evaluation done)
    (two : ∀ result, done result → Coincides copies (next result) done') :
    Coincides copies (evaluation >>= next) done' := by
  intro machine works
  refine (one machine works).bind (fun _ same => le_of_eq same.symm) ?_
  rintro _ result after rfl works holds
  exact two result holds after works

theorem Coincides.bind {done : Copies → α → Prop} {done' : Copies → β → Prop} (one : Coincides copies evaluation done)
    (two : ∀ later, copies ≤ later → ∀ result, done later result → Coincides later (next result) done') :
    Coincides copies (evaluation >>= next) done' := by
  intro machine works
  refine (one machine works).bind (fun _ more => more) fun later result after more works holds => ?_
  exact (two later more result holds after works).mono (fun _ further => le_trans more further) fun _ _ _ holds => holds

theorem Still.coincides {done : Copies → α → Prop} (still : Still copies evaluation (done copies)) :
    Coincides copies evaluation done := by
  intro machine works
  refine (still machine works).mono (fun _ same => le_of_eq same.symm) ?_
  rintro _ result rfl holds
  exact holds

/-- What does not depend on the store is the same when the machine is looked at. -/
theorem Still.get_bind {next : Machine κ → Eval κ β}
    (same : ∀ machine : Machine κ, machine.WorksOn copies → next (machine.withStore copies.copy) = next machine)
    (rest : ∀ machine : Machine κ, machine.WorksOn copies → Still copies (next machine) done') :
    Still copies (get >>= next) done' := by
  intro machine works
  change Coincident _ _ (next machine machine) (next (machine.withStore copies.copy) (machine.withStore copies.copy))
  rw [same machine works]
  exact rest machine works machine works

theorem Coincides.get_bind {done : Copies → β → Prop} {next : Machine κ → Eval κ β}
    (same : ∀ machine : Machine κ, machine.WorksOn copies → next (machine.withStore copies.copy) = next machine)
    (rest : ∀ machine : Machine κ, machine.WorksOn copies → Coincides copies (next machine) done) :
    Coincides copies (get >>= next) done := by
  intro machine works
  change Coincident _ _ (next machine machine) (next (machine.withStore copies.copy) (machine.withStore copies.copy))
  rw [same machine works]
  exact rest machine works machine works

end Bind

section Steps

variable {done : α → Prop}

namespace Still

/-- Evaluation that always goes on. -/
theorem step {evaluation : Eval κ α} {result : Machine κ → α} {after : Machine κ → Machine κ}
    (ran : ∀ machine, evaluation machine = .ok (result machine) (after machine))
    (same : ∀ machine store, result (machine.withStore store) = result machine)
    (commutes : ∀ machine store, after (machine.withStore store) = (after machine).withStore store)
    (works : ∀ machine : Machine κ, machine.WorksOn copies → (after machine).WorksOn copies ∧ done (result machine)) :
    Still copies evaluation done := by
  intro machine here
  obtain ⟨works, holds⟩ := works machine here
  rw [ran, ran, same, commutes]
  exact .ok rfl works holds

theorem pure {result : α} (holds : done result) : Still copies (Pure.pure result : Eval κ α) done :=
  fun _ works => .ok rfl works holds

theorem throw {interrupt : Interrupt} (leads : interrupt.LeadsTo (copies.Knows none)) :
    Still copies (throw interrupt : Eval κ α) done :=
  fun _ works => .error rfl works leads

theorem unfinished : Still copies (MonadExcept.throw .unfinished : Eval κ α) done :=
  throw trivial

theorem fail (cause : FaultCause) (known : copies.Knows own? address) :
    Still copies (fail cause address : Eval κ α) done := by
  refine fun machine works => .error rfl ⟨works.store, works.memory, fun fault here => ?_⟩ trivial
  obtain rfl := Option.some.inj here
  exact known.anywhere

theorem raise (kind : FaultKind) (known : copies.Knows own? address) :
    Still copies (raise kind address : Eval κ α) done :=
  fail _ known

theorem byteAt_bind {next : UInt8 → Eval κ α} (known : copies.Knows own? address)
    (rest : Still copies (next (copies.original.byte address)) done) : Still copies (byteAt address >>= next) done := by
  intro machine works
  have coincident := rest machine works
  change Coincident _ _ (next (machine.store.byte address) machine)
    (next (copies.copy.byte address) (machine.withStore copies.copy))
  rw [works.store, known.byte_eq]
  exact coincident

theorem onMemoryAs {cause : MemoryError → FaultCause} {operation : MemoryM α} (known : copies.Knows own? address)
    (leads : MemoryM.Leads (copies.Knows none) operation done) :
    Still copies (onMemoryAs cause address operation : Eval κ α) done := by
  intro machine works
  have ends := leads machine.memory works.memory
  unfold MemoryM.Ends at ends
  unfold Eval.onMemoryAs
  simp only [Machine.withStore]
  cases ran : operation machine.memory with
  | ok result memory =>
      rw [ran] at ends
      exact .ok rfl (works.withMemory ends.1) ends.2
  | error error memory =>
      rw [ran] at ends
      exact fail (cause error) known { machine with memory } (works.withMemory ends)

theorem onMemory {operation : MemoryM α} (known : copies.Knows own? address)
    (leads : MemoryM.Leads (copies.Knows none) operation done) :
    Still copies (onMemory address operation : Eval κ α) done :=
  onMemoryAs known leads

theorem viewMemory {view : Memory → Except MemoryError α} (known : copies.Knows own? address)
    (found : ∀ memory result, memory.LeadsTo (copies.Knows none) → view memory = .ok result → done result) :
    Still copies (viewMemory address view : Eval κ α) done :=
  onMemory known (.look found)

theorem onStack {operation : ScopeStack → α × ScopeStack}
    (leads : ∀ stack : ScopeStack, stack.LeadsTo (copies.Knows none) →
      (operation stack).2.LeadsTo (copies.Knows none) ∧ done (operation stack).1) :
    Still copies (onStack operation : Eval κ α) done :=
  step (fun _ => rfl) (fun _ _ => rfl) (fun _ _ => rfl) fun machine works =>
    (leads machine.memory.stack works.memory.stack).imp_left fun stack => works.withMemory ⟨works.memory.heap, stack⟩

end Still

theorem Coincides.byteAt_bind {done : Copies → α → Prop} {next : UInt8 → Eval κ α} (known : copies.Knows own? address)
    (rest : Coincides copies (next (copies.original.byte address)) done) :
    Coincides copies (byteAt address >>= next) done := by
  intro machine works
  have coincident := rest machine works
  change Coincident _ _ (next (machine.store.byte address) machine)
    (next (copies.copy.byte address) (machine.withStore copies.copy))
  rw [works.store, known.byte_eq]
  exact coincident

/-- An operation on files that ends the same way on both stores. -/
theorem Coincides.onStore {operation : StoreM α} (known : copies.Knows own? address) (ends : copies.Ends operation) :
    Coincides copies (onStore address operation : Eval κ α) fun _ _ => True := by
  intro machine works
  obtain ⟨later, more, ⟨result, ran, ran'⟩ | ⟨error, ran, ran'⟩⟩ := ends
  · have here : later.original = later.original := rfl
    unfold Eval.onStore
    simp only [Machine.withStore, works.store, ran, ran']
    exact .ok more ⟨rfl, works.memory.mono fun _ => .mono more, fun fault there => (works.fault fault there).mono more⟩
      trivial
  · unfold Eval.onStore
    simp only [Machine.withStore, works.store, ran, ran']
    refine .error more ⟨rfl, works.memory.mono fun _ => .mono more, fun fault there => ?_⟩ trivial
    obtain rfl := Option.some.inj there
    exact known.anywhere.mono more

/-- What is changed afterwards is not the store. -/
theorem Coincides.always {evaluation : Eval κ α} {done : Copies → α → Prop} (change : Memory → Memory)
    (coincides : Coincides copies evaluation done)
    (leads : ∀ known memory, Memory.LeadsTo known memory → Memory.LeadsTo known (change memory)) :
    Coincides copies (always (fun machine => { machine with memory := change machine.memory }) evaluation) done := by
  intro machine works
  have coincident := coincides machine works
  unfold Eval.always
  generalize evaluation machine = first, evaluation (machine.withStore copies.copy) = second at coincident
  cases coincident with
  | ok here works holds => exact .ok here (works.withMemory (leads _ _ works.memory)) holds
  | error here works answer => exact .error here (works.withMemory (leads _ _ works.memory)) answer
  | @cutOff after second cut =>
      cases second with
      | ok | error => exact .cutOff cut

theorem Coincides.nested {evaluation : Eval κ α} {done : Copies → α → Prop}
    (coincides : Coincides copies evaluation done) : Coincides copies (nested evaluation) done := by
  intro machine works
  have entered : machine.enter.WorksOn copies := ⟨works.store, works.memory, works.fault⟩
  have coincident := coincides machine.enter entered
  change Coincident _ _ (Eval.always Machine.leave evaluation machine.enter)
    (Eval.always Machine.leave evaluation (machine.enter.withStore copies.copy))
  unfold Eval.always
  generalize evaluation machine.enter = first, evaluation (machine.enter.withStore copies.copy) = second at coincident
  cases coincident with
  | ok here works holds => exact .ok here ⟨works.store, works.memory, works.fault⟩ holds
  | error here works answer => exact .error here ⟨works.store, works.memory, works.fault⟩ answer
  | @cutOff after second cut =>
      cases second with
      | ok | error => exact .cutOff cut

theorem Coincides.releasing {evaluation : Eval κ α} {done : Copies → α → Prop}
    (coincides : Coincides copies evaluation done) : Coincides copies (releasing evaluation) done := by
  refine .get_bind (fun _ _ => rfl) fun machine _ => ?_
  exact .always (fun memory => { memory with roots := Roots.release memory.roots machine.memory.roots.size }) coincides
    fun _ _ leads => ⟨leads.heap, leads.stack⟩

end Steps

/-- Evaluation that reads no code coincides; its result does not matter. -/
def Quiet (copies : Copies) (evaluation : Eval κ α) : Prop :=
  Still copies evaluation fun _ => True

/-- Evaluation that reads no code coincides, and its result leads to known code. -/
def Leading (copies : Copies) (evaluation : Eval κ Value) : Prop :=
  Still copies evaluation (·.LeadsTo (copies.Knows none))

namespace Quiet

variable {evaluation : Eval κ α} {next : α → Eval κ β}

@[grind ←]
theorem bind (one : Quiet copies evaluation) (two : ∀ result, Quiet copies (next result)) :
    Quiet copies (evaluation >>= next) :=
  Still.bind one fun result _ => two result

@[grind ←]
theorem pure (result : α) : Quiet copies (Pure.pure result : Eval κ α) :=
  Still.pure trivial

@[grind ←]
theorem quit : Quiet copies (throw .quit : Eval κ α) :=
  Still.throw trivial

@[grind ←]
theorem raise (kind : FaultKind) (known : copies.Knows none address) : Quiet copies (raise kind address : Eval κ α) :=
  Still.raise kind known

@[grind ←]
theorem onMemoryAs (cause : MemoryError → FaultCause) {operation : MemoryM α} (known : copies.Knows none address)
    (leads : MemoryM.Leads (copies.Knows none) operation fun _ => True) :
    Quiet copies (onMemoryAs cause address operation : Eval κ α) :=
  Still.onMemoryAs known leads

@[grind ←]
theorem onMemory {operation : MemoryM α} (known : copies.Knows none address)
    (leads : MemoryM.Leads (copies.Knows none) operation fun _ => True) :
    Quiet copies (onMemory address operation : Eval κ α) :=
  Still.onMemory known leads

@[grind ←]
theorem viewMemory (view : Memory → Except MemoryError α) (known : copies.Knows none address) :
    Quiet copies (viewMemory address view : Eval κ α) :=
  Still.viewMemory known fun _ _ _ _ => trivial

@[grind ←]
theorem ask (request : κ → α × κ) : Quiet copies (ask request) :=
  Still.step (fun _ => rfl) (fun _ _ => rfl) (fun _ _ => rfl) fun _ works =>
    ⟨⟨works.store, works.memory, works.fault⟩, trivial⟩

@[grind ←]
theorem resume [Console κ] : Quiet copies (resume : Eval κ Unit) :=
  Still.step (fun _ => rfl) (fun _ _ => rfl) (fun _ _ => rfl) fun _ works =>
    ⟨⟨works.store, works.memory, works.fault⟩, trivial⟩

@[grind ←]
theorem modifyRoots (change : Roots → Roots) : Quiet copies (modifyRoots change : Eval κ Unit) :=
  Still.step (fun _ => rfl) (fun _ _ => rfl) (fun _ _ => rfl) fun _ works =>
    ⟨works.withMemory ⟨works.memory.heap, works.memory.stack⟩, trivial⟩

@[grind ←]
theorem track (value : Value) : Quiet copies (track value : Eval κ Unit) :=
  modifyRoots _

@[grind ←]
theorem trackValues : Quiet copies (trackValues : Eval κ Nat) :=
  Still.step (fun _ => rfl) (fun _ _ => rfl) (fun _ _ => rfl) fun _ works =>
    ⟨works.withMemory ⟨works.memory.heap, works.memory.stack⟩, trivial⟩

end Quiet

namespace Leading

variable {evaluation : Eval κ α} {next : α → Eval κ Value}

@[grind ←]
theorem bind (one : Quiet copies evaluation) (two : ∀ result, Leading copies (next result)) :
    Leading copies (evaluation >>= next) :=
  Still.bind one fun result _ => two result

@[grind ←]
theorem pure (leads : value.LeadsTo (copies.Knows none)) : Leading copies (Pure.pure value : Eval κ Value) :=
  Still.pure leads

@[grind ←]
theorem quit : Leading copies (throw .quit : Eval κ Value) :=
  Still.throw trivial

@[grind ←]
theorem raise (kind : FaultKind) (known : copies.Knows none address) :
    Leading copies (raise kind address : Eval κ Value) :=
  Still.raise kind known

@[grind ←]
theorem onMemory {operation : MemoryM Value} (known : copies.Knows none address)
    (leads : MemoryM.Leads (copies.Knows none) operation (·.LeadsTo (copies.Knows none))) :
    Leading copies (onMemory address operation : Eval κ Value) :=
  Still.onMemory known leads

end Leading

end Eval

end PocketScript
