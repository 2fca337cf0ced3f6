import PocketScript.Machine.State

/-! # Evaluation that goes on

What is known of a result if there is one, with nothing said of evaluation that
ends early.
-/

namespace PocketScript

variable {κ α β : Type}

namespace Eval

variable {evaluation : Eval κ α} {next : α → Eval κ β} {machine : Machine κ} {done : α → Machine κ → Prop}
  {done' : β → Machine κ → Prop} {address : Address}

/-- If an evaluation goes on, `done` holds of its result and the machine then. -/
def Gives (evaluation : Eval κ α) (machine : Machine κ) (done : α → Machine κ → Prop) : Prop :=
  ∀ result after, evaluation machine = .ok result after → done result after

namespace Gives

theorem mono (gives : Gives evaluation machine done) {done' : α → Machine κ → Prop}
    (more : ∀ result after, done result after → done' result after) : Gives evaluation machine done' :=
  fun result after ran => more result after (gives result after ran)

theorem any : Gives evaluation machine fun _ _ => True :=
  fun _ _ _ => trivial

theorem bind (first : Gives evaluation machine done)
    (rest : ∀ result after, done result after → Gives (next result) after done') :
    Gives (evaluation >>= next) machine done' := by
  intro result last ran
  simp only [Bind.bind, EStateM.bind] at ran
  cases first_ran : evaluation machine with
  | ok middle after =>
      rw [first_ran] at ran
      exact rest middle after (first middle after first_ran) result last ran
  | error interrupt after => simp [first_ran] at ran

theorem pure {result : α} (holds : done result machine) : Gives (Pure.pure result) machine done := by
  rintro _ _ ⟨⟩
  exact holds

theorem raise (kind : FaultKind) : Gives (raise kind address : Eval κ α) machine done := by
  rintro _ _ ⟨⟩

theorem throw (interrupt : Interrupt) : Gives (throw interrupt : Eval κ α) machine done := by
  rintro _ _ ⟨⟩

theorem get_bind {next : Machine κ → Eval κ β} (rest : Gives (next machine) machine done') :
    Gives (get >>= next) machine done' :=
  rest

theorem byteAt_bind {next : UInt8 → Eval κ β} (rest : Gives (next (machine.store.byte address)) machine done') :
    Gives (byteAt address >>= next) machine done' :=
  rest

theorem always {change : Machine κ → Machine κ}
    (gives : Gives evaluation machine fun result after => done result (change after)) :
    Gives (always change evaluation) machine done := by
  intro result last ran
  unfold Eval.always at ran
  cases evaluated : evaluation machine with
  | ok result' after =>
      simp only [evaluated, EStateM.Result.ok.injEq] at ran
      obtain ⟨rfl, rfl⟩ := ran
      exact gives _ after evaluated
  | error interrupt after => simp [evaluated] at ran

/-- Changing the scopes. -/
theorem onStack {operation : ScopeStack → α × ScopeStack}
    (holds : done (operation machine.memory.stack).1
      { machine with memory := { machine.memory with stack := (operation machine.memory.stack).2 } }) :
    Gives (Eval.onStack operation) machine done := by
  rintro _ _ ⟨⟩
  exact holds

/-- Operating on memory, where only the result is of interest. -/
theorem onMemory {operation : MemoryM α} {holds : α → Prop}
    (yields : ∀ memory result after, operation memory = .ok result after → holds result) :
    Gives (Eval.onMemory address operation) machine fun result _ => holds result := by
  intro result after ran
  unfold Eval.onMemory Eval.onMemoryAs at ran
  cases operated : operation machine.memory with
  | ok result' memory =>
      simp only [operated, EStateM.Result.ok.injEq] at ran
      exact ran.1 ▸ yields _ _ _ operated
  | error error memory => simp [operated, Eval.fail] at ran

/-- Changing the scopes where room may be missing. -/
theorem onMemoryStack {operation : ScopeStack → Nat → Except MemoryError (α × ScopeStack)}
    (holds : ∀ result stack, operation machine.memory.stack machine.memory.heap.boundary = .ok (result, stack) →
      done result { machine with memory := { machine.memory with stack } }) :
    Gives (Eval.onMemory address (Memory.onStack operation)) machine done := by
  intro result after ran
  unfold Eval.onMemory onMemoryAs Memory.onStack at ran
  cases changed : operation machine.memory.stack machine.memory.heap.boundary with
  | ok changes =>
      simp only [changed, EStateM.Result.ok.injEq] at ran
      obtain ⟨rfl, rfl⟩ := ran
      exact holds _ _ changed
  | error error => simp [changed, fail] at ran

end Gives

end Eval

end PocketScript
