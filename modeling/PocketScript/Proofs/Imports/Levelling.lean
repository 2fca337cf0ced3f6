import PocketScript.Proofs.Flow.Statements
import PocketScript.Proofs.Imports.Blocks

/-! # Imports that leave blocks as they were

Code that is imported runs in the scope of the statement that imports it, so it can
open and close blocks there. Evaluation is levelled if the blocks are put back after
each import. What a levelled statement does to the open blocks is then up to its own
control function.
-/

namespace PocketScript

variable {κ α β : Type}

namespace Eval

/-- If an evaluation goes on, `done` holds of its result and the machine then; if it
    answers, `left` holds of the machine. -/
structure Proceeds (evaluation : Eval κ α) (machine : Machine κ) (done : α → Machine κ → Prop)
    (left : Machine κ → Prop) : Prop where
  gives : Gives evaluation machine done
  answers : ∀ value after, evaluation machine = .error (.answer value) after → left after

namespace Proceeds

variable {evaluation : Eval κ α} {next : α → Eval κ β} {machine : Machine κ} {done done' : α → Machine κ → Prop}
  {left left' : Machine κ → Prop} {address : Address}

theorem mono (proceeds : Proceeds evaluation machine done left)
    (more : ∀ result after, done result after → done' result after) (further : ∀ after, left after → left' after) :
    Proceeds evaluation machine done' left' :=
  ⟨proceeds.gives.mono more, fun value after ran => further after (proceeds.answers value after ran)⟩

theorem congr {other : Eval κ α} (same : evaluation machine = other machine)
    (proceeds : Proceeds other machine done left) : Proceeds evaluation machine done left :=
  ⟨fun result after ran => proceeds.gives result after (same.symm.trans ran),
    fun value after ran => proceeds.answers value after (same.symm.trans ran)⟩

theorem bind {done' : β → Machine κ → Prop} (first : Proceeds evaluation machine done left)
    (rest : ∀ result after, done result after → Proceeds (next result) after done' left) :
    Proceeds (evaluation >>= next) machine done' left := by
  refine ⟨first.gives.bind fun result after holds => (rest result after holds).gives, fun value last ran => ?_⟩
  simp only [Bind.bind, EStateM.bind] at ran
  cases first_ran : evaluation machine with
  | ok result after =>
      rw [first_ran] at ran
      exact (rest result after (first.gives result after first_ran)).answers value last ran
  | error interrupt after =>
      rw [first_ran] at ran
      have same : evaluation machine = .error (.answer value) last := first_ran.trans (by cases ran; rfl)
      exact first.answers value last same

theorem pure {result : α} (holds : done result machine) : Proceeds (Pure.pure result) machine done left :=
  ⟨.pure holds, fun _ _ ran => by cases ran⟩

theorem raise (kind : FaultKind) : Proceeds (raise kind address : Eval κ α) machine done left :=
  ⟨.raise kind, fun _ _ ran => by cases ran⟩

theorem quit : Proceeds (throw .quit : Eval κ α) machine done left :=
  ⟨.throw _, fun _ _ ran => by cases ran⟩

theorem unfinished : Proceeds (throw .unfinished : Eval κ α) machine done left :=
  ⟨.throw _, fun _ _ ran => by cases ran⟩

theorem answer {value : Value} (holds : left machine) :
    Proceeds (throw (.answer value) : Eval κ α) machine done left := by
  refine ⟨.throw _, fun _ after ran => ?_⟩
  cases ran
  exact holds

theorem get_bind {next : Machine κ → Eval κ β} {done' : β → Machine κ → Prop}
    (rest : Proceeds (next machine) machine done' left) : Proceeds (get >>= next) machine done' left :=
  ⟨rest.gives, rest.answers⟩

theorem byteAt_bind {next : UInt8 → Eval κ β} {done' : β → Machine κ → Prop}
    (rest : Proceeds (next (machine.store.byte address)) machine done' left) :
    Proceeds (byteAt address >>= next) machine done' left :=
  ⟨rest.gives, rest.answers⟩

theorem always {change : Machine κ → Machine κ} (proceeds : Proceeds evaluation machine
    (fun result after => done result (change after)) fun after => left (change after)) :
    Proceeds (always change evaluation) machine done left := by
  refine ⟨.always proceeds.gives, fun value last ran => ?_⟩
  unfold Eval.always at ran
  cases evaluated : evaluation machine with
  | ok result after => simp [evaluated] at ran
  | error interrupt after =>
      simp only [evaluated, EStateM.Result.error.injEq] at ran
      obtain ⟨rfl, rfl⟩ := ran
      exact proceeds.answers value after evaluated

theorem modify {change : Machine κ → Machine κ} {done : Unit → Machine κ → Prop} (holds : done () (change machine)) :
    Proceeds (modify change) machine done left :=
  ⟨fun _ _ ran => by cases ran; exact holds, fun _ _ ran => by cases ran⟩

theorem onStack {operation : ScopeStack → α × ScopeStack}
    (holds : done (operation machine.memory.stack).1
      { machine with memory := { machine.memory with stack := (operation machine.memory.stack).2 } }) :
    Proceeds (onStack operation) machine done left :=
  ⟨.onStack holds, fun _ _ ran => by cases ran⟩

theorem onMemoryStack {operation : ScopeStack → Nat → Except MemoryError (α × ScopeStack)}
    (holds : ∀ result stack, operation machine.memory.stack machine.memory.heap.boundary = .ok (result, stack) →
      done result { machine with memory := { machine.memory with stack } }) :
    Proceeds (onMemory address (Memory.onStack operation)) machine done left := by
  refine ⟨.onMemoryStack holds, fun value after ran => ?_⟩
  unfold Eval.onMemory onMemoryAs Memory.onStack at ran
  cases changed : operation machine.memory.stack machine.memory.heap.boundary with
  | ok changes => simp [changed] at ran
  | error error => simp [changed, fail] at ran

/-- What leaves a frame alone proceeds in it. -/
theorem of_leaves {frame : MemoryFrame} (leaves : Leaves frame evaluation) (holds : frame.Holds machine.memory) :
    Proceeds evaluation machine (fun _ after => frame.Holds after.memory) fun after => frame.Holds after.memory := by
  have kept := leaves machine holds
  refine ⟨fun result after ran => ?_, fun value after ran => ?_⟩
  · rw [ran] at kept
    exact kept
  · rw [ran] at kept
    exact kept

theorem of_respects {frame : MemoryFrame} {holds : α → Prop} (respects : Respects frame evaluation holds)
    (here : frame.Holds machine.memory) : Proceeds evaluation machine
      (fun result after => frame.Holds after.memory ∧ holds result) fun after => frame.Holds after.memory := by
  refine ⟨fun result after ran => ?_, (of_leaves respects.leaves here).answers⟩
  have ends := respects machine here
  rw [ran] at ends
  exact ends

theorem releasing (proceeds : Proceeds evaluation machine
      (fun result after => done result { after with memory := { after.memory with
        roots := Roots.release after.memory.roots machine.memory.roots.size } })
      fun after => left { after with memory := { after.memory with
        roots := Roots.release after.memory.roots machine.memory.roots.size } }) :
    Proceeds (releasing evaluation) machine done left :=
  .get_bind (.always proceeds)

end Proceeds

end Eval

namespace Machine

variable {inner : Inner κ} {frame : MemoryFrame} {expression : Expression} {machine : Machine κ} {address : Address}

/-- A machine with other blocks in the innermost scope. -/
def putBack (blocks : List Branch) (machine : Machine κ) : Machine κ :=
  { machine with memory := { machine.memory with stack := machine.memory.stack.modifyBranches fun _ => blocks } }

/-- Run code, and put the blocks back afterwards. -/
def levelling (code : Address → Eval κ Value) (address : Address) : Eval κ Value := do
  let blocks := (← get).memory.stack.blocks
  Eval.always (putBack blocks) (code address)

theorem leaves_levelling {code : Address → Eval κ Value}
    (leaves : ∀ frame : MemoryFrame, ∀ address, frame.Loose → Eval.Leaves frame (code address)) (address : Address) :
    Eval.Leaves frame (levelling code address) := by
  intro machine holds
  let loose : MemoryFrame := { frame with blocks? := none }
  have kept : loose.Holds (Eval.last (code address machine)).memory :=
    leaves loose address rfl machine ⟨holds.stack, holds.roots, nofun⟩
  have opened := leaves (.ofMemory machine.memory none) address rfl machine (.ofLoose _)
  show frame.Holds (Eval.last (Eval.always _ (code address) machine)).memory
  rw [Eval.last_always]
  generalize Eval.last (code address machine) = after at kept opened ⊢
  have framed := ScopeStack.Framed.modifyBranches after.memory.stack fun _ => machine.memory.stack.blocks
  refine ⟨kept.stack.trans framed, kept.roots, fun blocks fixed => ?_⟩
  obtain ⟨here, runs⟩ := holds.blocks blocks fixed
  have same : (putBack machine.memory.stack.blocks after).memory.stack.blocks = machine.memory.stack.blocks :=
    opened.stack.blocks_putBack
  rw [ScopeStack.action_eq] at runs ⊢
  rw [same]
  exact ⟨here, runs⟩

variable [Console κ]

/-- What can be evaluated one level further in, with imports levelled. -/
def levelled (expression : Address → Nat → Bool → Eval κ Expression) (steps levels : Nat) : Inner κ :=
  { expression, code := levelling (innerOf steps levels).code, body? := (innerOf steps levels).body? }

/-- An expression, where imports leave the blocks as they were. Inside of calls they
    need not. -/
def evaluateLevelled (steps : Nat) : (levels : Nat) → (start : Address) → (ceiling : Nat) → (isStatement : Bool) →
    Eval κ Expression
  | 0, start, _, _ => Eval.raise .expressionTooComplex start
  | levels + 1, start, ceiling, isStatement =>
    Eval.releasing (Machine.frame (levelled (evaluateLevelled steps levels) steps levels) start ceiling isStatement)

theorem framed_levelled {evaluation : Address → Nat → Bool → Eval κ Expression} {steps levels : Nat}
    (respects : ∀ frame : MemoryFrame, ∀ start ceiling isStatement, frame.Loose ∨ isStatement = false →
      Eval.Respects frame (evaluation start ceiling isStatement) (·.Within frame)) :
    Inner.Framed True (levelled evaluation steps levels) := by
  have inside : Inner.Framed False (innerOf (κ := κ) steps levels) :=
    framed_innerOf fun lower _ frame start ceiling isStatement loose =>
      respects_evaluate steps lower loose start ceiling isStatement
  refine ⟨fun frame start ceiling isStatement may => respects frame start ceiling isStatement (may.imp_right And.right),
    fun frame address _ => leaves_levelling (fun frame address loose => inside.code frame address (.inl loose)) address,
    inside.body⟩

theorem respects_evaluateLevelled (steps levels : Nat) (start : Address) (ceiling : Nat) {isStatement : Bool}
    (may : frame.Loose ∨ isStatement = false) :
    Eval.Respects frame (evaluateLevelled (κ := κ) steps levels start ceiling isStatement) (·.Within frame) := by
  induction levels generalizing frame start ceiling isStatement with
  | zero => exact .raise _ _
  | succ levels ih =>
      have inside : Inner.Framed True (levelled (evaluateLevelled (κ := κ) steps levels) steps levels) :=
        framed_levelled fun frame start ceiling isStatement may => ih start ceiling may
      refine respects_releasing fun frame' same => respects_frame inside start ceiling ?_
      exact may.imp same.trans fun no => ⟨trivial, no⟩

theorem framed_evaluateLevelled (steps levels : Nat) :
    Inner.Framed True (levelled (evaluateLevelled (κ := κ) steps levels) steps levels) :=
  framed_levelled fun _ start ceiling _ may => respects_evaluateLevelled steps levels start ceiling may

section Statements

open Eval (Proceeds Leaves Respects)

omit [Console κ]

variable {after : Machine κ} {depth : Nat} {value : Value}

/-- The frame of an evaluation in code that runs, with its blocks fixed. -/
def fixedFrame (machine : Machine κ) : MemoryFrame :=
  .ofMemory machine.memory (some machine.memory.stack.blocks)

theorem holds_fixedFrame (running : machine.memory.stack.action.isIgnored = false) :
    machine.fixedFrame.Holds machine.memory :=
  .ofMemory fun _ same => ⟨Option.some.inj same, running⟩

theorem blocks_of_fixedFrame (holds : machine.fixedFrame.Holds after.memory) :
    after.memory.stack.blocks = machine.memory.stack.blocks :=
  (holds.blocks _ rfl).1

theorem running_of_fixedFrame (holds : machine.fixedFrame.Holds after.memory) :
    after.memory.stack.action.isIgnored = false :=
  (holds.blocks _ rfl).2

theorem persist_of_fixedFrame (holds : machine.fixedFrame.Holds after.memory) : machine.BlocksStay after :=
  Branch.persist_of_eq (blocks_of_fixedFrame holds)

theorem persist_setAction {action : BranchAction} (still : action ≠ .loop) {blocks : List Branch}
    (persist : Branch.Persist blocks machine.memory.stack.blocks) :
    Branch.Persist blocks (machine.memory.stack.setAction action).blocks := by
  rw [ScopeStack.blocks_setAction]
  exact persist.trans (Branch.persist_modifyHead _ still)

theorem isIgnored_setAction (stack : ScopeStack) : (stack.setAction .run).action.isIgnored = false := by
  rw [ScopeStack.action_eq, ScopeStack.blocks_setAction]
  cases stack.blocks <;> rfl

theorem proceeds_tryArm (framed : Inner.Framed True inner) (expression : Expression) :
    Proceeds (tryArm inner expression) machine
      (fun result after => result.value = expression.value ∧ machine.BlocksStay after)
      machine.BlocksStay := by
  unfold tryArm
  refine Proceeds.bind (?_ : Proceeds _ machine (fun _ running => machine.BlocksStay running ∧
      running.memory.stack.action.isIgnored = false) _) ?_
  · exact .modify ⟨persist_setAction (by decide) (Branch.persist_refl _), isIgnored_setAction _⟩
  rintro _ running ⟨persist, runs⟩
  refine Proceeds.bind (?_ : Proceeds _ running (fun _ after => machine.BlocksStay after) _) ?_
  · have argument := Proceeds.of_leaves (framed.argument (.inr trivial) (expression.start + 1)).leaves
      (holds_fixedFrame runs)
    have back (after : Machine κ) (kept : running.fixedFrame.Holds after.memory) : Branch.Persist
        machine.memory.stack.blocks (after.memory.stack.setAction .ignoreSoft).blocks :=
      persist_setAction (by decide) (persist.trans (persist_of_fixedFrame kept))
    exact .always (argument.mono (fun _ => back) back)
  · intro condition after persist
    dsimp only
    split
    · exact .raise _
    · split
      · refine Proceeds.bind (?_ : Proceeds _ after (fun _ last =>
          machine.BlocksStay last) _) fun _ last persist => .pure ⟨rfl, persist⟩
        exact .modify (persist_setAction (by decide) persist)
      · exact .pure ⟨rfl, persist⟩
    · exact .raise _

/-- Opening a block that is no loop, or one that goes back to the statement. -/
theorem proceeds_pushBranch {action : BranchAction} {header start : Address} {left : Machine κ → Prop}
    (inside : depth ≤ machine.memory.stack.blocks.length) (loop : action = .loop → header = address) :
    Proceeds (Eval.onMemory start (Memory.pushBranch action header)) machine
      (fun _ => machine.BlocksMove depth address) left := by
  refine .onMemoryStack fun _ stack changed => ?_
  have now := ScopeStack.blocks_pushBranch (ScopeStack.pushed_of_map changed)
  exact .of_blocks now (.opens inside (Branch.persist_refl _) _ loop)

/-- Closing a block inside of the outer ones. -/
theorem moves_popBranch (below : depth < machine.memory.stack.blocks.length)
    (popped : machine.memory.stack.popBranch.1 = true) : Moves depth address machine.memory.stack.blocks
      machine.memory.stack.popBranch.2.blocks := by
  obtain ⟨branch, next, outer, before, now⟩ := ScopeStack.blocks_popBranch popped
  rw [before] at below ⊢
  rw [now]
  exact .closes [branch] (Nat.le_of_lt_succ below) (Branch.persist_refl _)

/-- A statement that is skipped. Only the end of a block closes one. -/
theorem proceeds_skip (framed : Inner.Framed True inner) (inside : depth ≤ machine.memory.stack.blocks.length) :
    Proceeds (skip inner (.starting address)) machine
      (fun result after => result.value = .missing ∧
        ((Symbol.builtin? (machine.store.byte address) = some (.control .close) →
          depth < machine.memory.stack.blocks.length) → machine.BlocksMove depth address after))
      machine.BlocksStay := by
  have moves {after : Machine κ} (persist : machine.BlocksStay after) : machine.BlocksMove depth address after :=
    .of_persist inside persist
  have stays := moves (Branch.persist_refl machine.memory.stack.blocks)
  have sets : Proceeds (Eval.onStack fun stack => ((), stack.setAction .run)) machine (fun _ => machine.BlocksStay)
      machine.BlocksStay :=
    .onStack (persist_setAction (by decide) (Branch.persist_refl _))
  have opens : Proceeds (Eval.onMemory address (Memory.pushBranch .ignoreHard 0)) machine
      (fun _ => machine.BlocksMove depth address) machine.BlocksStay :=
    proceeds_pushBranch inside fun loop => absurd loop (by decide)
  unfold skip
  refine .get_bind (.byteAt_bind ?_)
  extract_lets goesOn
  have rest {expression : Expression} {after : Machine κ} (missing : expression.value = .missing)
      (blocks : (Symbol.builtin? (machine.store.byte address) = some (.control .close) →
          depth < machine.memory.stack.blocks.length) → machine.BlocksMove depth address after) :
      Proceeds (goesOn expression) after (fun result after => result.value = .missing ∧
        ((Symbol.builtin? (machine.store.byte address) = some (.control .close) →
          depth < machine.memory.stack.blocks.length) → machine.BlocksMove depth address after))
        machine.BlocksStay :=
    .get_bind (.pure ⟨missing, blocks⟩)
  split
  · exact opens.bind fun _ _ opened => rest rfl fun _ => opened
  · exact opens.bind fun _ _ opened => rest rfl fun _ => opened
  · exact opens.bind fun _ _ opened => rest rfl fun _ => opened
  · split
    · exact (proceeds_tryArm framed _).bind fun result _ tried => rest tried.1 fun _ => moves tried.2
    · exact rest rfl fun _ => stays
  · split
    · exact sets.bind fun _ _ persist => rest rfl fun _ => moves persist
    · exact rest rfl fun _ => stays
  · next closes =>
    refine Proceeds.bind (?_ : Proceeds _ machine (fun popped after => popped = true →
      depth < machine.memory.stack.blocks.length → machine.BlocksMove depth address after) _) ?_
    · exact .onStack fun popped below => moves_popBranch below popped
    · intro popped after holds
      split
      · next popped => exact rest rfl fun below => holds popped (below closes)
      · exact Proceeds.bind (.raise _ : Proceeds _ after (fun _ _ => False) _) fun _ _ no => no.elim
  · exact rest rfl fun _ => stays

/-- A control function goes on behind its arguments, having moved blocks. -/
def Moved (depth : Nat) (machine : Machine κ) (expression result : Expression) (after : Machine κ) : Prop :=
  result.value = expression.value ∧ result.destination? = expression.destination? ∧
    machine.BlocksMove depth expression.start after

theorem proceeds_openBlock (inside : depth ≤ machine.memory.stack.blocks.length) (condition : Value)
    (action : Bool → BranchAction) {left : Machine κ → Prop} : Proceeds (openBlock address condition action address)
      machine (fun _ after => machine.BlocksMove depth address after) left := by
  unfold openBlock
  split
  · exact proceeds_pushBranch inside fun loop => if_pos loop
  · exact .raise _

theorem proceeds_closeBlock (below : depth < machine.memory.stack.blocks.length) (expression : Expression) :
    Proceeds (closeBlock expression) machine (Moved depth machine expression) machine.BlocksStay := by
  unfold closeBlock
  refine .get_bind (Proceeds.bind (?_ : Proceeds _ machine (fun popped after =>
    if popped then machine.BlocksMove depth expression.start after
    else after.memory.stack.blocks = machine.memory.stack.blocks) _) fun popped after holds => ?_)
  · refine .onStack ?_
    split
    · next popped => exact moves_popBranch below popped
    · next stays => exact ScopeStack.blocks_popBranch_of_false (Bool.eq_false_of_not_eq_true stays)
  · split
    · next popped =>
      rw [if_pos popped] at holds
      split
      · exact .pure ⟨rfl, rfl, holds⟩
      · exact .pure ⟨rfl, rfl, holds⟩
    · next stays =>
      rw [if_neg stays] at holds
      refine .get_bind ?_
      split
      · exact .raise _
      · exact .answer (Branch.persist_of_eq holds)

/-- Some loop is open inside of the outer `depth` blocks. -/
def LoopInside (depth : Nat) (blocks : List Branch) : Prop :=
  ∃ branch ∈ blocks.take (blocks.length - depth), branch.action = .loop

/-- The next round of a loop that is open inside closes blocks inside only. -/
theorem LoopInside.moves {blocks : List Branch} {header : Address} (inside : LoopInside depth blocks)
    (found : (Scope.continueLoop blocks).2 = some header) :
    Moves depth address blocks (Scope.continueLoop blocks).1 ∧
      ∃ loop ∈ blocks.take (blocks.length - depth), loop.action = .loop ∧ loop.address = header := by
  obtain ⟨skipped, loop, outer, split, none, here, same, after⟩ := Branch.continueLoop_spec found
  obtain ⟨branch, mem, is_loop⟩ := inside
  have within : skipped.length < blocks.length - depth := by
    refine Nat.lt_of_not_le fun beyond => ?_
    rw [split, List.take_append_of_le_length (split ▸ beyond)] at mem
    exact none branch (List.mem_of_mem_take mem) is_loop
  refine ⟨?_, loop, ?_, here, same⟩
  · rw [split, List.length_append, List.length_cons] at within
    obtain rest | ⟨rfl, rest⟩ := after
    · have closed : Moves depth address ((skipped ++ [loop]) ++ outer) outer :=
        .closes _ (by omega) (Branch.persist_refl outer)
      rw [rest, split]
      simpa using closed
    · rw [rest, split]
      exact .closes skipped (by simp at within ⊢; omega) (Branch.persist_refl _)
  · rw [split, List.take_append, List.mem_append]
    refine .inr ?_
    rw [show (skipped ++ loop :: outer).length - depth - skipped.length =
      ((skipped ++ loop :: outer).length - depth - skipped.length - 1) + 1 by rw [split] at within; omega]
    exact List.mem_cons_self

/-- A statement does not reach the outer `depth` blocks: the end of a block closes one
    that is open inside, and the next round is one of a loop inside. -/
structure StaysInside (depth : Nat) (machine : Machine κ) (address : Address) : Prop where
  close : Symbol.builtin? (machine.store.byte address) = some (.control .close) →
    depth < machine.memory.stack.blocks.length
  nextRound : Symbol.builtin? (machine.store.byte address) = some (.control .nextRound) →
    machine.memory.stack.action.isIgnored = false → LoopInside depth machine.memory.stack.blocks

theorem proceeds_define (running : machine.memory.stack.action.isIgnored = false)
    (inside : depth ≤ machine.memory.stack.blocks.length) (expression : Expression) :
    Proceeds (define expression) machine (Moved depth machine expression) machine.BlocksStay := by
  have framed {α : Type} {evaluation : Eval κ α} {holds : α → Prop} {before : Machine κ}
      (respects : Respects machine.fixedFrame evaluation holds) (here : machine.fixedFrame.Holds before.memory) :
      Proceeds evaluation before (fun result after => machine.fixedFrame.Holds after.memory ∧ holds result)
        machine.BlocksStay :=
    (Proceeds.of_respects respects here).mono (fun _ _ kept => kept) fun _ => persist_of_fixedFrame
  have writes {before : Machine κ} (here : machine.fixedFrame.Holds before.memory) {place : VariableRef}
      (visible : machine.fixedFrame.Visible place) : Proceeds (do
        (Destination.variable place).write .kept (.function expression.start) expression.start
        Eval.onMemory expression.start (Memory.pushBranch .ignoreHard 0)
        return expression) before (Moved depth machine expression) machine.BlocksStay := by
    refine (framed (.of_leaves (Destination.leaves_writeVariable visible _ _ _)) here).bind ?_
    rintro _ bound ⟨kept, -⟩
    have same := blocks_of_fixedFrame kept
    have opens : Proceeds (Eval.onMemory expression.start (Memory.pushBranch .ignoreHard 0)) bound
        (fun _ => bound.BlocksMove depth expression.start) machine.BlocksStay :=
      proceeds_pushBranch (inside.trans_eq (congrArg _ same.symm)) fun loop => absurd loop (by decide)
    exact opens.bind fun _ _ opened => .pure ⟨rfl, rfl, .of_same same opened⟩
  unfold define
  refine (framed (.of_leaves (leaves_readName _)) (holds_fixedFrame running)).bind ?_
  rintro name named ⟨kept, -⟩
  refine .get_bind ?_
  dsimp only
  split
  · next place found =>
    have visible := ScopeStack.Framed.visible_of_find? found
    rw [kept.stack.depth] at visible
    exact writes kept visible
  · refine (framed (.onMemoryAs (Memory.holds_createVariable _ _)) kept).bind ?_
    rintro place created ⟨kept, visible⟩
    exact writes kept visible

theorem proceeds_control (function : Control) (argument : Value) (expression : Expression)
    (running : machine.memory.stack.action.isIgnored = false) (inside : depth ≤ machine.memory.stack.blocks.length)
    (close : function = .close → depth < machine.memory.stack.blocks.length)
    (nextRound : function = .nextRound → LoopInside depth machine.memory.stack.blocks) :
    Proceeds (control function argument expression) machine (Moved depth machine expression) machine.BlocksStay := by
  have persist := Branch.persist_refl machine.memory.stack.blocks
  cases function with
  | leave | answer => exact .answer persist
  | quit => exact .quit
  | whenTrue | loop => exact (proceeds_openBlock inside _ _).bind fun _ _ opened => .pure ⟨rfl, rfl, opened⟩
  | otherwiseWhen | otherwise =>
      refine Proceeds.bind (?_ : Proceeds _ machine (fun _ => machine.BlocksStay) _) fun _ after persist =>
        .pure ⟨rfl, rfl, .of_persist inside persist⟩
      exact .onStack (persist_setAction (by decide) persist)
  | leaveLoop =>
      refine Proceeds.bind (?_ : Proceeds _ machine (fun _ => machine.BlocksStay) _) fun found after persist => ?_
      · exact .onStack (.of_blocks (ScopeStack.blocks_breakLoop _) (Branch.persist_breakLoop _))
      · split
        · exact .pure ⟨rfl, rfl, .of_persist inside persist⟩
        · exact .raise _
  | nextRound =>
      refine Proceeds.bind (?_ : Proceeds _ machine (fun found after => ∀ header, found = some header →
        machine.BlocksMove depth expression.start after) _) fun found after holds => ?_
      · refine .onStack fun header found => ?_
        obtain ⟨result, blocks⟩ := machine.memory.stack.continueLoop_eq
        exact .of_blocks blocks ((nextRound rfl).moves (result.symm.trans found)).1
      · split
        · exact .pure ⟨rfl, rfl, holds _ rfl⟩
        · exact .raise _
  | close => exact proceeds_closeBlock (close rfl) expression
  | define => exact proceeds_define running inside expression

/-- While statements are skipped, nothing binds to an expression without a value:
    operands have no value either. -/
theorem proceeds_readRest_skipped (skips : ∀ (machine : Machine κ) start ceiling,
      machine.memory.stack.action.isIgnored = true → Proceeds (inner.expression start ceiling false) machine
        (fun right _ => right.value = .missing) machine.BlocksStay)
    (ignored : machine.memory.stack.action.isIgnored = true) (ceiling steps : Nat)
    (missing : expression.value = .missing) :
    Proceeds (readRest inner ceiling steps expression) machine (fun _ => machine.BlocksStay) machine.BlocksStay := by
  cases steps with
  | zero => exact .unfinished
  | succ steps =>
      unfold readRest
      refine Proceeds.bind (?_ : Proceeds _ machine (fun _ tracked =>
        tracked.memory.stack = machine.memory.stack) _) ?_
      · exact .modify rfl
      intro _ tracked same
      have refused {evaluation : Eval κ Expression} {next : Expression → Eval κ Expression}
          (refuses : Proceeds evaluation tracked (fun _ _ => False) machine.BlocksStay) :
          Proceeds (evaluation >>= next) tracked (fun _ => machine.BlocksStay) machine.BlocksStay :=
        refuses.bind fun _ _ no => no.elim
      refine .byteAt_bind ?_
      split
      · refine refused ?_
        unfold applyStep
        rw [missing]
        exact .raise _
      split
      · refine refused ?_
        unfold applyIndex
        rw [missing]
        exact .raise _
      split
      · refine refused ?_
        unfold applyCall
        rw [missing]
        exact .raise _
      split
      · next operator _ =>
        split
        · refine refused ?_
          unfold applyBinary
          refine Proceeds.bind (?_ : Proceeds _ tracked (fun _ before =>
            before.memory.stack = machine.memory.stack) _) ?_
          · exact .modify same
          intro _ before same
          have operand := (skips before (expression.code + 1) operator.precedence (by rw [same]; exact ignored)).mono
            (fun _ _ missing => missing) fun _ => BlocksStay.of_same (congrArg ScopeStack.blocks same)
          refine operand.bind fun right after none => Proceeds.bind (?_ : Proceeds _ after (fun _ _ => True) _) ?_
          · exact .modify trivial
          · intro _ last _
            rw [none]
            exact .raise _
        · exact .pure (.of_blocks (congrArg ScopeStack.blocks same) (Branch.persist_refl _))
      · exact .pure (.of_blocks (congrArg ScopeStack.blocks same) (Branch.persist_refl _))

/-- What follows a control function does not move blocks. -/
theorem proceeds_readRest (framed : Inner.Framed True inner)
    (skips : ∀ (machine : Machine κ) start ceiling, machine.memory.stack.action.isIgnored = true →
      Proceeds (inner.expression start ceiling false) machine
        (fun right _ => right.value = .missing) machine.BlocksStay)
    (ceiling steps : Nat) (missing : expression.value = .missing) (nowhere : expression.destination? = none) :
    Proceeds (readRest inner ceiling steps expression) machine (fun _ => machine.BlocksStay) machine.BlocksStay := by
  cases running : machine.memory.stack.action.isIgnored with
  | false =>
      have rest : Respects machine.fixedFrame (readRest inner ceiling steps expression) (·.Within machine.fixedFrame) :=
        respects_readRest framed (.inr trivial) ceiling steps (Expression.within_of_none nowhere)
      exact (Proceeds.of_respects rest (holds_fixedFrame running)).mono (fun _ _ kept => persist_of_fixedFrame kept.1)
        fun _ => persist_of_fixedFrame
  | true => exact proceeds_readRest_skipped skips running ceiling steps missing

end Statements

theorem proceeds_applyControl (framed : Inner.Framed True inner) (function : Control) {depth : Nat}
    (running : machine.memory.stack.action.isIgnored = false) (inside : depth ≤ machine.memory.stack.blocks.length)
    (here : Symbol.builtin? (machine.store.byte address) = some (.control function))
    (stays : StaysInside depth machine address) :
    Eval.Proceeds (applyBuiltin inner (.control function) (.starting address) true) machine
      (Moved depth machine (.starting address)) machine.BlocksStay := by
  have left (after : Machine κ) (kept : machine.fixedFrame.Holds after.memory) := persist_of_fixedFrame kept
  unfold applyBuiltin
  refine .get_bind (Eval.Proceeds.bind ((Eval.Proceeds.of_respects Eval.respects_trackValues
    (holds_fixedFrame running)).mono (fun _ _ kept => kept) left) ?_)
  rintro array tracked ⟨kept, above⟩
  refine Eval.Proceeds.bind ((Eval.Proceeds.of_leaves (leaves_readFunctionArguments framed (.inr trivial) _ above _ _ _)
    kept).mono (fun _ _ kept => kept) left) ?_
  intro arguments after kept
  have same := blocks_of_fixedFrame kept
  have controls := proceeds_control function (arguments.1.headD .missing)
    { Expression.starting address with code := arguments.2 }
    (running_of_fixedFrame kept) (same ▸ inside) (fun close => same ▸ stays.close (close ▸ here))
    (fun nextRound => same ▸ stays.nextRound (nextRound ▸ here) running)
  exact controls.mono (fun _ _ moved => ⟨moved.1, moved.2.1, .of_same same moved.2.2⟩) fun _ => .of_same same

/-- While statements are skipped, no expression has a value. -/
theorem proceeds_evaluateLevelled_skipped (steps levels : Nat) (start : Address) (ceiling : Nat) (isStatement : Bool)
    (ignored : machine.memory.stack.action.isIgnored = true) :
    Eval.Proceeds (evaluateLevelled steps levels start ceiling isStatement) machine
      (fun right _ => right.value = .missing) machine.BlocksStay := by
  cases levels with
  | zero => exact .raise _
  | succ levels =>
      refine .releasing (.get_bind ?_)
      rw [if_pos ignored]
      exact (proceeds_skip (framed_evaluateLevelled steps levels) (Nat.zero_le _)).mono
        (fun _ _ skipped => skipped.1) fun _ persist => persist

theorem readPrimary_of_no_control (inner : Inner κ) (expression : Expression)
    (other : ∀ function, Symbol.builtin? (machine.store.byte expression.start) ≠ some (.control function)) :
    readPrimary inner expression true machine = readPrimary inner expression false machine := by
  unfold readPrimary
  simp only [Bind.bind, EStateM.bind, Eval.byteAt, get, getThe, MonadStateOf.get, EStateM.get, pure, EStateM.pure]
  cases found : Symbol.builtin? (machine.store.byte expression.start) with
  | none => cases UnaryOperator.ofByte? (machine.store.byte expression.start) <;> rfl
  | some builtin =>
      cases builtin with
      | control function => exact absurd found (other function)
      | math function | value function | console function | file function => rfl

theorem byte_of_builtin? {byte : UInt8} {builtin : Builtin} (found : Symbol.builtin? byte = some builtin) :
    byte = builtin.byte := by
  have all : ∀ byte, (Symbol.builtin? byte).all (·.byte == byte) = true := forall_byte (by decide +kernel)
  have here := all byte
  rw [found] at here
  exact (eq_of_beq here).symm

/-- A levelled statement moves blocks, and leaves the outer ones open if it does not
    reach them. -/
theorem proceeds_statement (steps levels ceiling : Nat) {depth : Nat}
    (inside : depth ≤ machine.memory.stack.blocks.length) (stays : StaysInside depth machine address) :
    Eval.Proceeds (evaluateLevelled steps levels address ceiling true) machine
      (fun _ => machine.BlocksMove depth address) (machine.BlocksMove depth address) := by
  cases levels with
  | zero => exact .raise _
  | succ levels =>
      have framed := framed_evaluateLevelled (κ := κ) steps levels
      have skips (machine : Machine κ) (start : Address) (ceiling : Nat)
          (ignored : machine.memory.stack.action.isIgnored = true) : Eval.Proceeds
            ((levelled (evaluateLevelled steps levels) steps levels).expression start ceiling false) machine
            (fun right _ => right.value = .missing) machine.BlocksStay :=
        proceeds_evaluateLevelled_skipped steps levels start ceiling false ignored
      unfold evaluateLevelled
      generalize levelled (κ := κ) (evaluateLevelled steps levels) steps levels = inner at framed skips ⊢
      refine .releasing (.get_bind ?_)
      cases running : machine.memory.stack.action.isIgnored with
      | true =>
          rw [if_pos rfl]
          exact (proceeds_skip framed inside).mono (fun _ _ skipped => skipped.2 stays.close)
            fun _ persist => .of_persist inside persist
      | false =>
          rw [if_neg Bool.false_ne_true]
          by_cases control : ∃ function, Symbol.builtin? (machine.store.byte address) = some (.control function)
          · obtain ⟨function, here⟩ := control
            have primary := (proceeds_applyControl framed function running inside here stays).mono
              (fun _ _ moved => moved) fun after persist =>
                (.of_persist inside persist : machine.BlocksMove depth address after)
            refine (primary.congr (readPrimary_builtin (byte_of_builtin? here))).bind ?_
            rintro primary moved ⟨missing, nowhere, moves⟩
            exact (proceeds_readRest framed skips ceiling _ missing nowhere).mono
              (fun _ _ => moves.persist) fun _ => moves.persist
          · have plain : Eval.Respects machine.fixedFrame (do
                let primary ← readPrimary inner (.starting address) false
                readRest inner ceiling (Store.capacity + 1) primary) (·.Within machine.fixedFrame) :=
              .bind (respects_readPrimary framed (.inr ⟨trivial, rfl⟩) rfl) fun _ =>
                respects_readRest framed (.inr trivial) _ _
            have moves (after : Machine κ) (kept : machine.fixedFrame.Holds after.memory) :
                machine.BlocksMove depth address after :=
              .of_persist inside (persist_of_fixedFrame kept)
            refine .congr ?_ ((Eval.Proceeds.of_respects plain (holds_fixedFrame running)).mono (fun _ after kept =>
              moves after kept.1) moves)
            have same : readPrimary inner (.starting address) true machine =
                readPrimary inner (.starting address) false machine :=
              readPrimary_of_no_control _ _ (not_exists.mp control)
            simp only [Bind.bind, EStateM.bind, same]

end Machine

end PocketScript
