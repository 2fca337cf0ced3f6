import PocketScript.Proofs.Machine.Evaluations

/-! # Evaluation that yields

An evaluation yields if it goes on with a result, or if the program ends there
because memory or nesting was used up. `Yields` says of one evaluation what its
result and the machine are then.
-/

namespace PocketScript

/-- The program ended because memory or nesting was used up. -/
def Machine.GaveUp {κ : Type} (machine : Machine κ) : Prop :=
  ∃ fault, machine.fault? = some fault ∧
    (fault.kind = .stackHeapCollision ∨ fault.kind = .expressionTooComplex)

namespace Eval

variable {κ α β : Type} {evaluation : Eval κ α} {next : α → Eval κ β} {machine after : Machine κ}
  {done : α → Machine κ → Prop} {done' : β → Machine κ → Prop} {address : Address}

/-- An evaluation leads to a result and a machine of which `done` holds, or the
    program gives up. -/
def Yields (evaluation : Eval κ α) (machine : Machine κ) (done : α → Machine κ → Prop) : Prop :=
  match evaluation machine with
  | .ok result after => done result after
  | .error .quit after => after.GaveUp
  | .error _ _ => False

namespace Yields

theorem mono (yields : Yields evaluation machine done) {done' : α → Machine κ → Prop}
    (more : ∀ result after, done result after → done' result after) : Yields evaluation machine done' := by
  unfold Yields at yields ⊢
  cases ran : evaluation machine with
  | ok result after =>
      simp only [ran] at yields
      exact more result after yields
  | error interrupt after =>
      simp only [ran] at yields
      cases interrupt with
      | answer value | quit | unfinished => exact yields

theorem bind (first : Yields evaluation machine done)
    (rest : ∀ result after, done result after → Yields (next result) after done') :
    Yields (evaluation >>= next) machine done' := by
  unfold Yields at first ⊢
  simp only [Bind.bind, EStateM.bind]
  cases ran : evaluation machine with
  | ok result middle =>
      simp only [ran] at first
      exact rest result middle first
  | error interrupt middle =>
      simp only [ran] at first
      cases interrupt with
      | answer value | quit | unfinished => exact first

theorem pure {result : α} (holds : done result machine) : Yields (Pure.pure result) machine done :=
  holds

theorem get_bind {next : Machine κ → Eval κ β} (rest : Yields (next machine) machine done') :
    Yields (get >>= next) machine done' :=
  rest

theorem byteAt_bind {next : UInt8 → Eval κ β}
    (rest : Yields (next (machine.store.byte address)) machine done') :
    Yields (byteAt address >>= next) machine done' :=
  rest

/-- A result that is known. -/
theorem of_ran {result : α} (ran : evaluation machine = .ok result after) (holds : done result after) :
    Yields evaluation machine done := by
  unfold Yields
  simpa only [ran] using holds

theorem bind_ran {result : α} (ran : evaluation machine = .ok result after)
    (rest : Yields (next result) after done') : Yields (evaluation >>= next) machine done' := by
  unfold Yields at rest ⊢
  simpa only [Bind.bind, EStateM.bind, ran] using rest

theorem raise (kind : FaultKind) (used : kind = .stackHeapCollision ∨ kind = .expressionTooComplex) :
    Yields (raise kind address : Eval κ α) machine done :=
  ⟨⟨.program kind, address⟩, rfl, used⟩

/-- Changing the scopes where only room may be missing. -/
theorem onStack {operation : ScopeStack → Nat → Except MemoryError (α × ScopeStack)}
    (ends : (∃ result stack, operation machine.memory.stack machine.memory.heap.boundary = .ok (result, stack) ∧
        done result { machine with memory := { machine.memory with stack } }) ∨
      operation machine.memory.stack machine.memory.heap.boundary = .error .collision) :
    Yields (Eval.onMemory address (Memory.onStack operation)) machine done := by
  unfold Yields Eval.onMemory onMemoryAs Memory.onStack
  rcases ends with ⟨result, stack, ran, holds⟩ | ran
  · simpa only [ran] using holds
  · simp only [ran]
    exact ⟨⟨.memory .collision, address⟩, rfl, .inl rfl⟩

/-- What is known of the same evaluation otherwise. -/
theorem keeps (yields : Yields evaluation machine done) {done' : α → Machine κ → Prop}
    (keeps : Keeps evaluation machine done') :
    Yields evaluation machine fun result after =>
      done result after ∧ machine.Follows after ∧ done' result after := by
  unfold Yields at yields ⊢
  unfold Keeps KeepsFrom at keeps
  cases ran : evaluation machine with
  | ok result after =>
      simp only [ran] at yields keeps
      exact ⟨yields, keeps⟩
  | error interrupt after =>
      simp only [ran] at yields
      cases interrupt with
      | answer value | quit | unfinished => exact yields

/-- Changing the machine afterwards. -/
theorem always {change : Machine κ → Machine κ} (fault : ∀ after, (change after).fault? = after.fault?)
    (yields : Yields evaluation machine fun result after => done result (change after)) :
    Yields (always change evaluation) machine done := by
  unfold Yields at yields ⊢
  unfold Eval.always
  cases ran : evaluation machine with
  | ok result after =>
      simp only [ran] at yields
      exact yields
  | error interrupt after =>
      simp only [ran] at yields
      cases interrupt with
      | answer value | unfinished => exact yields
      | quit =>
          obtain ⟨found, failed, used⟩ := yields
          exact ⟨found, (fault after).trans failed, used⟩

theorem releasing (yields : Yields evaluation machine done)
    (more : ∀ result after, done result after →
      ∀ roots, done result { after with memory := { after.memory with roots } }) :
    Yields (releasing evaluation) machine done :=
  always (fun _ => rfl) (yields.mono fun result after holds => more result after holds _)

end Yields

end Eval

end PocketScript
