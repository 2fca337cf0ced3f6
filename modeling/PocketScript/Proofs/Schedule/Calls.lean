import PocketScript.Proofs.Schedule.Expressions

/-! # Calls and blocks of two runs

Function calls and the blocks of a program, on two machines that are alike but
for handles, if what is evaluated one level further in tallies. How many roots
are registered differs from run to run; which scopes and blocks are open does
not.
-/

namespace PocketScript

open Eval (Calm Tally StaysSpent)

variable {κ α : Type} {pairing next : Pairing} {value value' : Value} {address start : Address}
  {expression expression' : Expression} {inner : Inner κ}

namespace Eval

section

variable {evaluation evaluation' : Eval κ α}

theorem Lost.always {machine : Machine κ} {change : Machine κ → Machine κ} (lost : Lost (evaluation machine))
    (heap : ∀ machine, (change machine).memory.heap = machine.memory.heap)
    (fault? : ∀ machine, (change machine).fault? = machine.fault?) : Lost (Eval.always change evaluation machine) := by
  unfold Eval.always
  rcases lost with ruined | spent
  · generalize evaluation machine = result at ruined
    cases ruined with
    | failed here ruinous => exact .inl (.failed ((fault? _).trans here) ruinous)
  · refine .inr ?_
    cases ran : evaluation machine with
    | ok result after | error interrupt after =>
        rw [ran] at spent
        exact (heap after).symm ▸ spent

/-- Changes afterwards that leave the heap and the record of a fault. -/
theorem Tally.change {done : Pairing → α → α → Prop} (tally : Tally pairing evaluation evaluation' done)
    {change change' : Machine κ → Machine κ}
    (heap : ∀ machine, (change machine).memory.heap = machine.memory.heap ∧ (change machine).fault? = machine.fault?)
    (heap' : ∀ machine, (change' machine).memory.heap = machine.memory.heap ∧ (change' machine).fault? = machine.fault?)
    (keeps : ∀ next machine other, Machine.Mirrors next machine other → (change machine).Mirrors next (change' other))
    (looks : ∀ machine other, Machine.Alike machine other → (change machine).Alike (change' other)) :
    Tally pairing (Eval.always change evaluation) (Eval.always change' evaluation') done := by
  intro machine other mirrors
  rcases tally machine other mirrors with lost | lost | matched
  · exact .inl (lost.always (fun machine => (heap machine).1) fun machine => (heap machine).2)
  · exact .inr (.inl (lost.always (fun machine => (heap' machine).1) fun machine => (heap' machine).2))
  · refine .inr (.inr ?_)
    unfold Eval.always
    generalize evaluation machine = first, evaluation' other = second at matched ⊢
    cases matched with
    | ok grown mirrors holds => exact .ok grown (keeps _ _ _ mirrors) holds
    | answer grown mirrors alike => exact .answer grown (keeps _ _ _ mirrors) alike
    | quit alike => exact .quit (looks _ _ alike)
    | unfinished alike => exact .unfinished (looks _ _ alike)

/-- Both evaluations are nested one level deeper. -/
theorem Tally.nested {done : Pairing → α → α → Prop} (tally : Tally pairing evaluation evaluation' done) :
    Tally pairing (Eval.nested evaluation) (Eval.nested evaluation') done := by
  have counted : Tally pairing (Eval.always Machine.leave evaluation) (Eval.always Machine.leave evaluation') done :=
    tally.change (fun _ => ⟨rfl, rfl⟩) (fun _ => ⟨rfl, rfl⟩)
      (fun _ _ _ mirrors => ⟨⟨mirrors.store, mirrors.console, mirrors.draws, mirrors.fault?⟩, mirrors.maxDepth, mirrors.memory⟩)
      fun _ _ alike => ⟨alike.store, alike.console, alike.draws, alike.fault?⟩
  exact fun machine other mirrors => counted machine.enter other.enter
    ⟨⟨mirrors.store, mirrors.console, mirrors.draws, mirrors.fault?⟩, mirrors.maxDepth, mirrors.memory⟩

/-- Changes of scopes and roots afterwards. -/
theorem Tally.always {done : Pairing → α → α → Prop} (tally : Tally pairing evaluation evaluation' done)
    (edit edit' : Memory → Memory)
    (heap : ∀ memory, (edit memory).heap = memory.heap) (heap' : ∀ memory, (edit' memory).heap = memory.heap)
    (stack : ∀ next memory other, Memory.Mirrors next memory other →
      (edit memory).stack.Mirrors next (edit' other).stack) :
    Tally pairing (Eval.always (fun machine => { machine with memory := edit machine.memory }) evaluation)
      (Eval.always (fun machine => { machine with memory := edit' machine.memory }) evaluation') done := by
  refine tally.change (fun _ => ⟨heap _, rfl⟩) (fun _ => ⟨heap' _, rfl⟩) (fun next machine other mirrors => ?_)
    fun _ _ alike => ⟨alike.store, alike.console, alike.draws, alike.fault?⟩
  exact mirrors.withMemory (mirrors.memory.ofHeap (heap _) (heap' _) (stack _ _ _ mirrors.memory))

/-- Roots are released afterwards, from wherever on they were registered. -/
theorem Tally.release {done : Pairing → α → α → Prop} (tally : Tally pairing evaluation evaluation' done)
    (mark mark' : Nat) :
    Tally pairing
      (Eval.always (fun machine =>
        { machine with memory := { machine.memory with roots := Roots.release machine.memory.roots mark } }) evaluation)
      (Eval.always (fun machine =>
        { machine with memory := { machine.memory with roots := Roots.release machine.memory.roots mark' } })
        evaluation') done :=
  tally.always (fun memory => { memory with roots := Roots.release memory.roots mark })
    (fun memory => { memory with roots := Roots.release memory.roots mark' })
    (fun _ => rfl) (fun _ => rfl) fun _ _ _ mirrors => mirrors.stack

theorem Tally.releasing {done : Pairing → α → α → Prop} (tally : Tally pairing evaluation evaluation' done) :
    Tally pairing (Eval.releasing evaluation) (Eval.releasing evaluation') done :=
  Tally.get_bind fun _ _ _ => tally.release _ _

/-- The same change of the scopes. -/
theorem Calm.modifyStack {change : ScopeStack → ScopeStack}
    (alike : ∀ stack other : ScopeStack, stack.Mirrors pairing other → (change stack).Mirrors pairing (change other)) :
    Calm pairing (modify fun machine : Machine κ =>
        { machine with memory := { machine.memory with stack := change machine.memory.stack } })
      (modify fun machine : Machine κ =>
        { machine with memory := { machine.memory with stack := change machine.memory.stack } }) fun _ _ => True :=
  .steps fun _ _ mirrors =>
    ⟨_, _, _, _, rfl, rfl, mirrors.withMemory (mirrors.memory.withStack (alike _ _ mirrors.memory.stack)), trivial⟩

end

end Eval

namespace Machine

theorem tally_readArguments (tallies : Inner.Tallies inner) (start : Address) (array array' count : Nat)
    (address : Address) :
    Tally pairing (readArguments inner start array count address) (readArguments inner start array' count address)
      fun next result result' => List.Forall₂ (Value.Mirrors next) result.1 result'.1 ∧ result.2 = result'.2 := by
  have stays := staysSpent_readArguments tallies.stays
  induction count generalizing pairing address with
  | zero => exact .pure ⟨.nil, rfl⟩
  | succ count ih =>
      refine (tallies.argument pairing _).bind (by grind) (by grind) fun next argument argument' grown arguments => ?_
      obtain ⟨start', code', arguments, -, -⟩ := arguments
      refine Tally.unless_missing arguments _ _ ?_
      refine (Calm.modifyRoots _ _).bind_tally fun _ _ _ => ?_
      refine (Calm.byteAt code').bind_eq_tally fun byte => ?_
      refine (ih _).bind (by grind) (by grind) fun next' rest rest' grown' results => ?_
      exact .pure ⟨.cons (arguments.mono grown') results.1, results.2⟩

theorem calm_bindParameters (start : Address) {arguments arguments' : List Value}
    (alike : List.Forall₂ (Value.Mirrors pairing) arguments arguments') (address : Address) :
    Calm pairing (bindParameters start arguments address : Eval κ Address) (bindParameters start arguments' address)
      Eq := by
  induction alike generalizing address with
  | nil => exact .pure rfl
  | cons argument rest ih =>
      refine .get_bind fun machine other mirrors => ?_
      rw [mirrors.store]
      dsimp only
      split
      · exact .raise _ _
      · refine (Calm.createVariable start _ argument).bind_eq fun place => ?_
        exact ih _

theorem tally_runBody {body : Address → Eval κ Value}
    (tallies : ∀ pairing address, Tally pairing (body address) (body address) Value.Mirrors) (header : Address)
    {arguments arguments' : List Value} (alike : List.Forall₂ (Value.Mirrors pairing) arguments arguments')
    (start : Address) :
    Tally pairing (runBody body header arguments start) (runBody body header arguments' start) Value.Mirrors := by
  have pushes : Calm pairing (Eval.onMemory start Memory.pushScope : Eval κ Nat)
      (Eval.onMemory start Memory.pushScope) fun _ _ => True :=
    .onMemoryAs Eval.isOfMemory start fun _ _ mirrors => mirrors.pushScope
  refine pushes.bind_tally fun scope scope' _ => ?_
  refine Tally.always ?_ (fun memory => { memory with stack := memory.stack.popScope })
    (fun memory => { memory with stack := memory.stack.popScope }) (fun _ => rfl) (fun _ => rfl)
    fun _ _ _ mirrors => mirrors.stack.popScope
  refine (Calm.pushBranch start .run 0).bind_tally fun _ _ _ => ?_
  refine (Calm.modifyRoots _ _).bind_tally fun _ _ _ => ?_
  refine Tally.get_bind fun machine other mirrors => ?_
  rw [mirrors.store]
  refine (calm_bindParameters start alike _).bind_eq_tally fun code => ?_
  exact tallies pairing code

theorem tally_applyCall (tallies : Inner.Tallies inner) (alike : expression.Mirrors pairing expression') :
    Tally pairing (applyCall inner expression) (applyCall inner expression') Expression.Mirrors := by
  obtain ⟨start, code, values, destinations, hold⟩ := alike
  cases values with
  | missing | number _ | string _ | list _ => exact .raise _ _
  | function header =>
      refine Tally.get_bind fun machine other mirrors => ?_
      refine Tally.get_bind fun machine' other' mirrors' => ?_
      rw [mirrors.store]
      refine Calm.trackValues.bind_tally fun array array' _ => ?_
      cases bodies : inner.body? with
      | none =>
          refine (tally_readArguments tallies start array array' _ _).bind (by grind) (by grind) fun _ _ _ _ _ => ?_
          exact .raise _ _
      | some body =>
          have runs := staysSpent_runBody (tallies.stays.body body bodies) header
          refine (tally_readArguments tallies start array array' _ _).bind
            (fun _ => .bind (.always (runs _ _).nested fun _ => rfl) (by grind))
            (fun _ => .bind (.always (runs _ _).nested fun _ => rfl) (by grind)) ?_
          rintro next ⟨arguments, code⟩ ⟨arguments', _⟩ grown ⟨alike, rfl⟩
          refine ((tally_runBody (tallies.body body bodies) header alike start).nested.release _ _).bind (by grind) (by grind)
            fun next' value value' grown' values => ?_
          refine (Calm.track _ _).bind_tally fun _ _ _ => ?_
          exact .pure (.parts _ _ values (Destination.rel_mono destinations (le_trans grown grown')) _)

theorem calm_setAction (action : BranchAction) :
    Calm pairing (modify fun machine : Machine κ =>
        { machine with memory := { machine.memory with stack := machine.memory.stack.setAction action } })
      (modify fun machine : Machine κ =>
        { machine with memory := { machine.memory with stack := machine.memory.stack.setAction action } })
      fun _ _ => True :=
  .modifyStack fun _ _ mirrors => mirrors.modifyBranches _

theorem tally_tryArm (tallies : Inner.Tallies inner) (alike : expression.Mirrors pairing expression') :
    Tally pairing (tryArm inner expression) (tryArm inner expression') Expression.Mirrors := by
  have changes := @StaysSpent.modify κ
  obtain ⟨start, code, values, destinations, hold⟩ := alike
  refine (calm_setAction .run).bind_tally fun _ _ _ => ?_
  refine ((tallies.argument pairing (start + 1)).always
    (fun memory => { memory with stack := memory.stack.setAction .ignoreSoft })
    (fun memory => { memory with stack := memory.stack.setAction .ignoreSoft }) (fun _ => rfl) (fun _ => rfl)
    fun _ _ _ mirrors => mirrors.stack.modifyBranches _).bind (by grind) (by grind)
    fun next condition condition' grown conditions => ?_
  obtain ⟨start', code', conditions, -, -⟩ := conditions
  cases conditions with
  | missing | string _ | list _ | function _ => exact .raise _ _
  | number number =>
      have kept : Expression.Mirrors next ⟨start, code', _, _, hold⟩ ⟨start, code', _, _, hold⟩ :=
        .parts start code' (values.mono grown) (Destination.rel_mono destinations grown) hold
      dsimp only
      split
      · exact (calm_setAction .run).bind_tally fun _ _ _ => .pure kept
      · exact .pure kept

theorem calm_popBranch (pairing : Pairing) :
    Calm pairing (Eval.onStack ScopeStack.popBranch : Eval κ Bool) (Eval.onStack ScopeStack.popBranch) Eq :=
  .onStack fun _ _ mirrors => mirrors.popBranch

/-- Going to the end of a line. -/
theorem tally_toLineEnd (alike : expression.Mirrors pairing expression') :
    Tally pairing (do return { expression with code := (← get).store.lineEnd expression.code } : Eval κ Expression)
      (do return { expression' with code := (← get).store.lineEnd expression'.code }) Expression.Mirrors := by
  obtain ⟨start, code, values, destinations, hold⟩ := alike
  refine Tally.get_bind fun machine other mirrors => ?_
  rw [mirrors.store]
  exact .pure (.parts _ _ values destinations _)

theorem tally_skip (tallies : Inner.Tallies inner) (alike : expression.Mirrors pairing expression') :
    Tally pairing (skip inner expression) (skip inner expression') Expression.Mirrors := by
  have arm := tally_tryArm tallies alike
  obtain ⟨start, code, values, destinations, hold⟩ := alike
  have ends := tally_toLineEnd (κ := κ) (.parts start code values destinations hold)
  unfold skip
  refine Tally.get_bind fun machine other mirrors => ?_
  rw [mirrors.memory.stack.action_eq]
  refine (Calm.byteAt start).bind_eq_tally fun byte => ?_
  dsimp only
  split
  · exact (Calm.pushBranch start .ignoreHard 0).bind_tally fun _ _ _ => ends
  · exact (Calm.pushBranch start .ignoreHard 0).bind_tally fun _ _ _ => ends
  · exact (Calm.pushBranch start .ignoreHard 0).bind_tally fun _ _ _ => ends
  · split
    · exact arm.bind (by grind) (by grind) fun next _ _ _ arms => tally_toLineEnd arms
    · exact ends
  · split
    · refine Calm.bind_tally (Calm.onStack fun _ _ mirrors => ⟨rfl, mirrors.modifyBranches _⟩) fun _ _ _ => ends
    · exact ends
  · refine (calm_popBranch pairing).bind_eq_tally fun closed => ?_
    split
    · exact ends
    · exact .raise _ _
  · exact ends

/-- Blocks are opened alike. -/
theorem calm_openBlock (start : Address) {condition condition' : Value} (alike : condition.Mirrors pairing condition')
    (action : Bool → BranchAction) (address : Address) :
    Calm pairing (openBlock start condition action address : Eval κ Unit) (openBlock start condition' action address)
      fun _ _ => True := by
  cases alike with
  | missing | string _ | list _ | function _ => exact .raise _ _
  | number number => exact .pushBranch _ _ _

theorem calm_closeBlock (alike : expression.Mirrors pairing expression') :
    Calm pairing (closeBlock expression : Eval κ Expression) (closeBlock expression')
      (Expression.Mirrors pairing) := by
  obtain ⟨start, code, values, destinations, hold⟩ := alike
  refine .get_bind fun machine other mirrors => ?_
  rw [mirrors.memory.stack.branch?_eq]
  refine (calm_popBranch pairing).bind_eq fun closed => ?_
  dsimp only
  split
  · split
    · exact .pure (.parts _ _ values destinations _)
    · exact .pure (.parts _ _ values destinations _)
  · refine .get_bind fun machine other mirrors => ?_
    rw [mirrors.memory.stack.isGlobal_eq]
    split
    · exact .raise _ _
    · exact .answer .missing

theorem tally_define (alike : expression.Mirrors pairing expression') :
    Tally pairing (define expression : Eval κ Expression) (define expression') Expression.Mirrors := by
  obtain @⟨start, code, value, value', values, destination?, destination?', destinations, hold⟩ := alike
  refine (calm_readName (start + 1)).bind_eq_tally fun named => ?_
  refine Tally.get_bind fun machine other mirrors => ?_
  rw [mirrors.memory.stack.find?_eq]
  have binds : ∀ place : VariableRef, Tally pairing
      (do
        (Destination.variable place).write .kept (.function start) start
        Eval.onMemory start (Memory.pushBranch .ignoreHard 0)
        return ⟨start, code, value, destination?, hold⟩ : Eval κ Expression)
      (do
        (Destination.variable place).write .kept (.function start) start
        Eval.onMemory start (Memory.pushBranch .ignoreHard 0)
        return ⟨start, code, value', destination?', hold⟩) Expression.Mirrors := by
    intro place
    refine ((Destination.Mirrors.named place).tally_write .kept (.function start) start).bind (by grind) (by grind)
      fun next _ _ grown _ => ?_
    refine (Calm.pushBranch start .ignoreHard 0).bind_tally fun _ _ _ => ?_
    exact .pure (.parts _ _ (values.mono grown) (Destination.rel_mono destinations grown) _)
  dsimp only
  split
  · exact binds _
  · refine (Calm.createVariable start named.1 .missing).bind_eq_tally fun place => ?_
    exact binds place

/-- Control functions that are given arguments alike. -/
theorem tally_control (function : Control) {argument argument' : Value} (arguments : argument.Mirrors pairing argument')
    (alike : expression.Mirrors pairing expression') :
    Tally pairing (control function argument expression : Eval κ Expression) (control function argument' expression')
      Expression.Mirrors := by
  have closes := calm_closeBlock (κ := κ) alike
  have defines := tally_define (κ := κ) alike
  obtain @⟨start, code, value, value', values, destination?, destination?', destinations, hold⟩ := alike
  have ends : Tally pairing (pure ⟨start, code, value, destination?, hold⟩ : Eval κ Expression)
    (pure ⟨start, code, value', destination?', hold⟩) Expression.Mirrors := .pure (.parts _ _ values destinations _)
  cases function with
  | leave => exact (Calm.answer .missing).tally
  | answer => exact (Calm.answer arguments).tally
  | quit => exact Calm.quit.tally
  | whenTrue | loop => exact (calm_openBlock start arguments _ _).bind_tally fun _ _ _ => ends
  | otherwiseWhen | otherwise =>
      exact Calm.bind_tally (Calm.onStack fun _ _ mirrors => ⟨rfl, mirrors.modifyBranches _⟩) fun _ _ _ => ends
  | leaveLoop =>
      refine Calm.bind_eq_tally (Calm.onStack fun _ _ mirrors => mirrors.breakLoop) fun found => ?_
      dsimp only
      split
      · exact ends
      · exact .raise _ _
  | nextRound =>
      refine Calm.bind_eq_tally (Calm.onStack fun _ _ mirrors => mirrors.continueLoop) fun address? => ?_
      dsimp only
      split
      · exact .pure (.parts _ _ values destinations _)
      · exact .raise _ _
  | close => exact closes.tally
  | define => exact defines

end Machine

end PocketScript
