import PocketScript.Proofs.Metering.Expressions

/-! # Statements are measured

Only the condition of a loop opens a loop, and only the end of one and the next round go
back in the code, which they cannot do where no loop is open.
-/

namespace PocketScript

variable {κ : Type} {cost : Nat} {metered : Inner (Metered κ)} {inner : Inner κ} {machine : Machine (Metered κ)}
  {expression : Expression}

namespace Machine

open Eval (Measured Passes Calmly Gives)

theorem passes_setAction {action : BranchAction} (still : action ≠ .loop) :
    Passes (modify fun machine : Machine (Metered κ) =>
        { machine with memory := { machine.memory with stack := machine.memory.stack.setAction action } })
      (modify fun machine : Machine κ =>
        { machine with memory := { machine.memory with stack := machine.memory.stack.setAction action } }) :=
  .modify (fun _ => rfl) fun _ loopless => ScopeStack.Loopless.setAction loopless still

theorem passes_onStack_setAction {action : BranchAction} (still : action ≠ .loop) :
    Passes (Eval.onStack fun stack => ((), stack.setAction action) : Eval (Metered κ) Unit)
      (Eval.onStack fun stack => ((), stack.setAction action) : Eval κ Unit) :=
  .onStack fun _ loopless => loopless.setAction still

theorem measured_tryArm (measured : Inner.Measured cost metered inner) (settled : machine.Settled) :
    Measured cost (tryArm metered expression) (tryArm inner expression) machine
      (Calmly fun result => expression.start < result.code) := by
  unfold tryArm
  refine .seq (.passing (passes_setAction (by decide)) settled) fun _ running kept => ?_
  refine Measured.bind_free (?_ : Measured _ _ _ running (Calmly fun condition =>
    expression.start < condition.code)) fun condition after read => ?_
  · refine .always (fun memory => { memory with stack := memory.stack.setAction .ignoreSoft })
      (fun _ loopless => ScopeStack.Loopless.setAction loopless (by decide))
      (measured.argument (fun none => (kept none).2) _) ?_
    exact fun _ _ calm => ⟨ScopeStack.Loopless.setAction calm.1 (by decide), calm.2.le⟩
  · cases condition.value with
    | number number =>
        dsimp only
        split
        · refine .seq (.passing (passes_setAction (by decide)) fun none => (read none).2.1) fun _ last kept => ?_
          exact .pure fun none => ⟨(kept none).2, (read (kept none).1).2.2⟩
        · exact .pure fun none => (read none).2
    | missing | string _ | list _ | function _ => exact .raise _ _

/-- The rest of a line is skipped. -/
theorem measured_toLineEnd {store : Store} {start : Address}
    (advances : machine.console.looped = false → machine.memory.Loopless ∧
      (start < expression.code ∨ expression.code = start ∧ machine.store = store)) :
    Measured 0 (do return { expression with code := (← get).store.lineEnd expression.code })
      (do return { expression with code := (← get).store.lineEnd expression.code }) machine
      (Calmly (·.Advances store start)) := by
  refine .get_bind (.pure fun none => ⟨(advances none).1, ?_⟩)
  have further := machine.store.le_lineEnd expression.code
  rcases (advances none).2 with behind | ⟨here, same⟩
  · have behind := Nat.lt_of_lt_of_le behind further
    exact ⟨Nat.le_of_lt behind, fun _ => behind⟩
  · rw [here] at further ⊢
    exact ⟨further, fun inside => Store.lt_lineEnd (same ▸ inside)⟩

theorem measured_skip (measured : Inner.Measured cost metered inner) (settled : machine.Settled) (start : Address) :
    Measured cost (skip metered (.starting start)) (skip inner (.starting start)) machine
      (Calmly (·.Advances machine.store start)) := by
  have rest {after : Machine (Metered κ)} (kept : after.console.looped = false → after.memory.Loopless ∧
      after.store = machine.store) :
      Measured 0 (do return { Expression.starting start with code := (← get).store.lineEnd start })
        (do return { Expression.starting start with code := (← get).store.lineEnd start }) after
        (Calmly (·.Advances machine.store start)) :=
    measured_toLineEnd fun none => ⟨(kept none).1, .inr ⟨rfl, (kept none).2⟩⟩
  have skipped := (rest fun none => ⟨settled none, rfl⟩).le (Nat.zero_le cost)
  unfold skip
  refine .get_bind (.byteAt_bind ?_)
  generalize Symbol.builtin? _ = found
  cases found with
  | none => exact skipped
  | some builtin =>
      cases builtin with
      | control function =>
          cases function with
          | whenTrue | loop | define =>
              refine Measured.free (.seq (.gives (.passing (.onMemory _ (Memory.loopless_pushBranch (by decide) _))
                settled) (gives_onMemory_rest _ _)) fun _ opened kept => ?_)
              exact rest fun none => ⟨(kept none).2.1, (kept none).2.2.1⟩
          | otherwiseWhen =>
              dsimp only
              rw [memory_bare]
              split
              · exact (measured_tryArm measured settled).bind_free fun result after read =>
                  measured_toLineEnd fun none => ⟨(read none).2.1, .inl (read none).2.2⟩
              · exact skipped
          | otherwise =>
              dsimp only
              rw [memory_bare]
              split
              · have stays : Gives (Eval.onStack fun stack => ((), stack.setAction .run)) machine fun _ after =>
                    after.store = machine.store :=
                  .onStack rfl
                refine Measured.free (.seq (.gives (.passing (passes_onStack_setAction (by decide)) settled) stays) ?_)
                exact fun _ after kept => rest fun none => (kept none).2
              · exact skipped
          | close =>
              have pops : Measured 0 (Eval.onStack ScopeStack.popBranch) (Eval.onStack ScopeStack.popBranch) machine
                  fun _ after => after.memory.Loopless ∧ after.store = machine.store :=
                .gives (.passing (.onStack fun _ loopless => loopless.popBranch) settled) (.onStack rfl)
              refine Measured.free (.seq pops fun popped after kept => ?_)
              cases popped with
              | true => exact rest fun none => (kept none).2
              | false =>
                  exact .seq (.raise _ _ : Measured _ _ _ _ fun _ _ => False) fun _ _ no =>
                    measured_toLineEnd fun none => (no none).2.elim
          | leave | answer | quit | leaveLoop | nextRound => exact skipped
      | math _ | value _ | console _ | file _ => exact skipped

/-- No loop is open, or a statement without a value opened one as the innermost block. -/
def Opening (result : Expression) (after : Machine (Metered κ)) : Prop :=
  after.memory.Loopless ∨ after.memory.stack.action = .loop ∧ result.value = .missing

theorem Opening.noticeable {result : Expression} {after : Machine (Metered κ)} (opening : Opening result after) :
    after.Noticeable :=
  opening.imp_right And.left

theorem gives_pushBranch_action (start address : Address) (action : BranchAction) :
    Gives (Eval.onMemory start (Memory.pushBranch action address)) machine fun _ after =>
      after.memory.stack.action = action := by
  refine .onMemoryStack fun _ stack changed => ?_
  rw [ScopeStack.action_eq, ScopeStack.blocks_pushBranch (ScopeStack.pushed_of_map changed)]
  rfl

theorem measured_pushBranch (start address : Address) (action : BranchAction) (settled : machine.Settled) :
    Measured 0 (Eval.onMemory start (Memory.pushBranch action address))
      (Eval.onMemory start (Memory.pushBranch action address)) machine fun _ after =>
        after.Noticeable := by
  by_cases loop : action = .loop
  · subst loop
    exact ((Measured.onMemory _ _).gives (gives_pushBranch_action _ _ _)).imp fun _ _ _ opened => .inr opened.2
  · exact (Measured.passing (.onMemory _ (Memory.loopless_pushBranch loop _)) settled).imp fun _ _ _ loopless =>
      .inl loopless

theorem measured_openBlock (start address : Address) (condition : Value) (action : Bool → BranchAction)
    (settled : machine.Settled) :
    Measured 0 (openBlock start condition action address) (openBlock start condition action address) machine
      fun _ after => after.Noticeable := by
  unfold openBlock
  cases condition with
  | number number => exact measured_pushBranch _ _ _ settled
  | missing | string _ | list _ | function _ => exact .raise _ _

/-- Without a loop, the end of a block does not go back. -/
theorem measured_closeBlock (settled : machine.Settled) :
    Measured 0 (closeBlock expression) (closeBlock expression) machine (Calmly (· = expression)) := by
  unfold closeBlock
  refine .get_bind ?_
  refine .seq (.passing (.onStack fun _ loopless => loopless.popBranch) settled) fun popped after kept => ?_
  cases popped with
  | true =>
      have goesOn : Measured 0 (pure expression) (pure expression) after (Calmly (· = expression)) :=
        .pure fun none => ⟨(kept none).2, rfl⟩
      rw [memory_bare]
      cases top : machine.memory.stack.branch? with
      | none => exact goesOn
      | some branch =>
          obtain ⟨action, address⟩ := branch
          cases action with
          | run | ignoreSoft | ignoreHard => exact goesOn
          | loop =>
              refine .pure fun none => absurd ?_ (settled (kept none).1).action
              rw [ScopeStack.action, top]
  | false =>
      refine .get_bind ?_
      rw [memory_bare]
      cases after.memory.stack.isGlobal with
      | true => exact .raise _ _
      | false => exact .answer fun none => (kept none).2

theorem measured_control (function : Control) (argument : Value) (settled : machine.Settled)
    (missing : expression.value = .missing) :
    Measured 0 (control function argument expression) (control function argument expression) machine
      fun result after => Opening result after ∧ result.code = expression.code := by
  have calm {evaluation' : Eval (Metered κ) Expression} {evaluation : Eval κ Expression}
      (measured : Measured 0 evaluation' evaluation machine (Calmly (· = expression))) :
      Measured 0 evaluation' evaluation machine fun result after =>
        Opening result after ∧ result.code = expression.code :=
    measured.imp fun _ result _ calm => ⟨.inl calm.1, congrArg _ calm.2⟩
  unfold control
  dsimp only
  cases function with
  | leave | answer => exact .answer settled
  | quit => exact .quit
  | whenTrue | loop =>
      refine .seq (measured_openBlock _ _ _ _ settled) fun _ after opened => .pure fun none => ⟨?_, rfl⟩
      exact (opened none).2.imp_right fun loop => ⟨loop, missing⟩
  | otherwiseWhen | otherwise =>
      refine .seq (.passing (passes_onStack_setAction (by decide)) settled) fun _ after kept => ?_
      exact .pure fun none => ⟨.inl (kept none).2, rfl⟩
  | leaveLoop =>
      refine .seq (.passing (.onStack fun _ loopless => loopless.breakLoop) settled) fun found after kept => ?_
      cases found with
      | true => exact .pure fun none => ⟨.inl (kept none).2, rfl⟩
      | false => exact .raise _ _
  | nextRound =>
      have finds : Gives (Eval.onStack ScopeStack.continueLoop) machine fun found _ =>
          found = machine.memory.stack.continueLoop.1 :=
        .onStack rfl
      refine .seq (.gives (.passing (.onStack fun _ loopless => loopless.continueLoop.2) settled) finds) ?_
      intro found after kept
      cases found with
      | none => exact .raise _ _
      | some address =>
          refine .pure fun none => ?_
          obtain ⟨before, -, found⟩ := kept none
          cases found.trans (settled before).continueLoop.1
  | close => exact calm (measured_closeBlock settled)
  | define => exact calm (.passing_gives (passes_define _) settled gives_define_same)

theorem measured_readFunctionArguments (measured : Inner.Measured cost metered inner) (start : Address) (array : Nat)
    (isDefinition : Bool) (count : Nat) (address : Address) (settled : machine.Settled) :
    Measured (count * cost) (readFunctionArguments metered start array isDefinition count address)
      (readFunctionArguments inner start array isDefinition count address) machine
      (Calmly fun read => address ≤ read.2) := by
  induction count generalizing machine address with
  | zero => exact (Measured.pure fun none => ⟨settled none, Nat.le_refl _⟩).free
  | succ count ih =>
      unfold readFunctionArguments
      rw [Nat.succ_mul, Nat.add_comm]
      refine (measured.argument settled _).bind fun argument after read => ?_
      split
      · exact (Measured.raise _ _).free
      refine .seq (.passing (.modifyRoots _) fun none => (read none).2.1) fun _ tracked kept => ?_
      have behind (none : tracked.console.looped = false) : address ≤ argument.code := (read (kept none).1).2.2.le
      split
      · exact (Measured.pure fun none => ⟨(kept none).2, behind none⟩).free
      refine .byteAt_bind ?_
      split
      · exact (Measured.raise _ _).free
      refine (ih _ fun none => (kept none).2).bind_free fun rest last calm => .pure fun none => ?_
      obtain ⟨before, loopless, further⟩ := calm none
      exact ⟨loopless, Nat.le_trans (behind before) (Nat.le_of_succ_le further)⟩

/-- Only one of the functions on files runs code. -/
theorem passes_applyFile (function : FileFunction) (other : function ≠ .run) (arguments : List Value)
    (start : Address) :
    Passes (applyFile metered function arguments start) (applyFile inner function arguments start) := by
  unfold applyFile
  refine .bind (passes_bytesOf _ _) fun name => .get_bind fun machine => ?_
  rw [store_bare]
  cases machine.store.find? name with
  | none => cases function <;> grind
  | some slot =>
      cases function with
      | read =>
          refine .bind (passes_indexOf _ _) fun index => .bind (passes_indexOf _ _) fun amount => ?_
          refine .get_bind fun machine => ?_
          rw [store_bare]
          cases machine.store.readData slot index amount with
          | error error => exact .fail _ _
          | ok data => grind
      | run => exact absurd rfl other
      | «exists» | create | delete | rename | size | write => grind

theorem measured_applyFile (measured : Inner.Measured cost metered inner) (function : FileFunction)
    (arguments : List Value) (start : Address) (settled : machine.Settled) :
    Measured (Store.capacity * cost) (applyFile metered function arguments start)
      (applyFile inner function arguments start) machine fun _ after => after.memory.Loopless := by
  by_cases run : function = .run
  · subst run
    unfold applyFile
    refine .seq (.passing (passes_bytesOf _ _) settled) fun name after kept => .get_bind ?_
    rw [store_bare]
    cases after.store.find? name with
    | none => exact (Measured.raise _ _).free
    | some slot =>
        refine (measured.code (fun none => (kept none).2) _).bind_free fun _ last kept => ?_
        exact .pure fun none => (kept none).2
  · exact (Measured.passing (passes_applyFile function run arguments start) settled).free

/-- No function has more arguments than there are bytes in the store. -/
theorem arity_le (builtin : Builtin) (store : Store) (start : Address) :
    builtin.arity?.getD (store.parameterCount start + 1) ≤ Store.capacity := by
  have few : ∀ count ∈ builtin.arity?, count ≤ 3 := by
    cases builtin with
    | control function | math function | value function | console function | file function =>
        cases function <;> simp [Builtin.arity?]
  cases known : builtin.arity? with
  | none => exact store.parameterCount_lt start
  | some count => exact Nat.le_trans (few count known) (by decide)

theorem measured_applyBuiltin [Console κ] (measured : Inner.Measured cost metered inner) (builtin : Builtin)
    (isStatement : Bool) (settled : machine.Settled) (missing : expression.value = .missing) :
    Measured (2 * Store.capacity * cost) (applyBuiltin metered builtin expression isStatement)
      (applyBuiltin inner builtin expression isStatement) machine
      fun result after => Opening result after ∧ expression.start < result.code := by
  unfold applyBuiltin
  refine .get_bind (.seq (.passing .trackValues settled) fun array tracked kept => ?_)
  rw [store_bare]
  have fewer := arity_le builtin machine.store expression.start
  generalize builtin.arity?.getD _ = count at fewer ⊢
  have total : count * cost + Store.capacity * cost ≤ 2 * Store.capacity * cost := by
    rw [← Nat.add_mul]
    exact Nat.mul_le_mul_right _ (by omega)
  refine Measured.le (.bind (measured_readFunctionArguments measured _ _ _ _ _ fun none => (kept none).2) ?_) total
  intro arguments after read
  have settled : after.Settled := fun none => (read none).2.1
  have behind (none : after.console.looped = false) : expression.start < arguments.2 := (read none).2.2
  have computes {evaluation' : Eval (Metered κ) Value} {evaluation : Eval κ Value}
      (computed : Measured (Store.capacity * cost) evaluation' evaluation after fun _ last => last.memory.Loopless) :
      Measured (Store.capacity * cost) (do return { expression with code := arguments.2, value := (← evaluation') })
        (do return { expression with code := arguments.2, value := (← evaluation) }) after
        fun result last => Opening result last ∧ expression.start < result.code :=
    computed.bind_free fun value last kept => .pure fun none => ⟨.inl (kept none).2, behind (kept none).1⟩
  cases builtin with
  | control function =>
      cases isStatement with
      | false => exact (Measured.raise _ _).free
      | true =>
          have missing : ({ expression with code := arguments.2 } : Expression).value = .missing := missing
          refine Measured.free ((measured_control function _ settled missing).imp fun none result _ done => ?_)
          exact ⟨done.1, Nat.lt_of_lt_of_eq (behind none) done.2.symm⟩
  | math function => exact computes (Measured.passing (passes_applyMath _ _ _) settled).free
  | value function => exact computes (Measured.passing (passes_applyValue _ _ _) settled).free
  | console function => exact computes (Measured.passing (passes_applyConsole _ _ _) settled).free
  | file function => exact computes (measured_applyFile measured _ _ _ settled)

end Machine

end PocketScript
