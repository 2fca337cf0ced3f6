import PocketScript.Proofs.Renaming.Statements
import PocketScript.Proofs.Schedule.Runs

/-! # Runs do not show in later runs

A machine that ran programs before runs a program like a new machine does, if files,
console and draws are the same. All that is left of earlier runs is in which slots,
and under which generations, its objects will be, and nothing depends on that.
-/

namespace PocketScript

open Eval

variable {κ : Type} [Console κ] {names : Renaming} {inner : Inner κ}

namespace Machine

theorem carries_readPrimary (inside : Inner.Carries names inner) (expression : Expression) (isStatement : Bool) :
    Eval.Carries names names.expression (readPrimary inner expression isStatement)
      (readPrimary inner (names.expression expression) isStatement) := by
  unfold readPrimary
  refine (carries_byteAt expression.start).bind fun byte => ?_
  simp only [id_eq]
  split
  · exact carries_readNumberLiteral expression
  split
  · exact carries_readVariable expression
  split
  · exact carries_readCharacterLiteral expression
  split
  · exact carries_readStringLiteral expression
  split
  · exact carries_readListLiteral inside expression
  split
  · exact carries_readParenthesis inside expression
  split
  · exact carries_applyBuiltin inside _ expression isStatement
  · exact carries_applyUnary inside _ expression
  · exact carries_raise _ expression.start

omit [Console κ] in
theorem carries_readRest (inside : Inner.Carries names inner) (ceiling steps : Nat) (expression : Expression) :
    Eval.Carries names names.expression (readRest inner ceiling steps expression)
      (readRest inner ceiling steps (names.expression expression)) := by
  induction steps generalizing expression with
  | zero => exact .throw rfl
  | succ steps ih =>
      unfold readRest
      refine (carries_track expression.value).bind fun _ => (carries_byteAt expression.code).bind fun byte => ?_
      simp only [id_eq]
      split
      · exact (carries_applyStep _ expression).bind ih
      split
      · exact (carries_applyIndex inside expression).bind ih
      split
      · exact (carries_applyCall inside expression).bind ih
      split
      · split
        · exact (carries_applyBinary inside _ expression).bind ih
        · exact .pure rfl
      · exact .pure rfl

theorem carries_frame (inside : Inner.Carries names inner) (start : Address) (ceiling : Nat) (isStatement : Bool) :
    Eval.Carries names names.expression (frame inner start ceiling isStatement)
      (frame inner start ceiling isStatement) := by
  refine .get_bind fun machine other renamed => ?_
  rw [renamed.memory.stack, Renaming.action_stack]
  split
  · exact carries_skip inside (.starting start)
  · exact (carries_readPrimary inside (.starting start) isStatement).bind (carries_readRest inside ceiling _)

omit [Console κ] in
theorem carries_collect : Eval.Carries (κ := κ) names id collect collect :=
  .modify fun _ _ renamed => ⟨⟨renamed.store, renamed.console, renamed.draws, renamed.fault?⟩,
    renamed.memory.collect, renamed.configuration, rfl, renamed.region⟩

theorem carries_betweenStatements : Eval.Carries (κ := κ) names id betweenStatements betweenStatements := by
  have counts : Eval.Carries (κ := κ) names id
      (modify fun machine => { machine with recentStatements := machine.recentStatements + 1 })
      (modify fun machine => { machine with recentStatements := machine.recentStatements + 1 }) :=
    .modify fun _ _ renamed => ⟨⟨renamed.store, renamed.console, renamed.draws, renamed.fault?⟩, renamed.memory,
      renamed.configuration, congrArg (· + 1) renamed.recentStatements, renamed.region⟩
  have asks : Eval.Carries (κ := κ) names id
      (do if ← Eval.ask Console.escapes then throw .quit) (do if ← Eval.ask Console.escapes then throw .quit) := by
    refine (carries_ask _).bind fun escapes => ?_
    simp only [id_eq]
    split
    · exact .throw rfl
    · exact .pure rfl
  refine counts.bind fun _ => .get_bind fun machine other renamed => ?_
  rw [renamed.configuration, renamed.recentStatements, renamed.memory.heap.recentAllocations]
  split
  · exact carries_collect.bind fun _ => asks
  · exact asks

omit [Console κ] in
theorem carries_orAnswer {statement : Eval κ Expression} {next next' : Expression → Eval κ Value}
    (carries : Eval.Carries names names.expression statement statement)
    (rest : ∀ expression, Eval.Carries names names.value (next expression) (next' (names.expression expression))) :
    Eval.Carries names names.value (orAnswer statement next) (orAnswer statement next') := by
  intro machine other renamed
  have here := carries machine other renamed
  unfold orAnswer
  generalize statement machine = ran, statement other = ran' at here
  cases here with
  | ok same renamed =>
      subst same
      exact rest _ _ _ renamed
  | @error interrupt _ _ _ same renamed =>
      subst same
      cases interrupt with
      | answer value => exact .ok rfl renamed
      | quit | unfinished => exact .error rfl renamed

theorem carries_runCode {statement : Address → Eval κ Expression}
    (carries : ∀ address, Eval.Carries names names.expression (statement address) (statement address)) (steps : Nat)
    (address : Address) :
    Eval.Carries names names.value (runCode statement steps address) (runCode statement steps address) := by
  induction steps generalizing address with
  | zero => exact .throw rfl
  | succ steps ih =>
      refine (carries_byteAt address).bind fun byte => ?_
      simp only [id_eq]
      split
      · exact ih _
      split
      · exact .pure rfl
      · exact carries_orAnswer (carries address) fun expression =>
          carries_betweenStatements.bind fun _ => ih expression.code

theorem carries_evaluate (steps levels : Nat) (start : Address) (ceiling : Nat) (isStatement : Bool) :
    Eval.Carries (κ := κ) names names.expression (evaluate steps levels start ceiling isStatement)
      (evaluate steps levels start ceiling isStatement) := by
  induction levels using Nat.strongRecOn generalizing start ceiling isStatement with
  | ind levels ih =>
      cases levels with
      | zero => exact carries_raise _ start
      | succ levels =>
          have runs : ∀ lower ≤ levels, ∀ address, Eval.Carries (κ := κ) names names.value
              (runCode (fun address => evaluate steps lower address Inner.statementCeiling true) steps address)
              (runCode (fun address => evaluate steps lower address Inner.statementCeiling true) steps address) :=
            fun lower fewer => carries_runCode (fun address => ih lower (Nat.lt_succ_of_le fewer) address _ _) steps
          have inside : Inner.Carries names (innerOf (κ := κ) steps levels) := by
            refine ⟨ih levels (Nat.lt_succ_self _), runs levels (Nat.le_refl _), fun body some_body => ?_⟩
            obtain ⟨lower, less, rfl⟩ := runCode_of_body? some_body
            exact runs lower (Nat.le_of_lt less)
          rw [evaluate_succ]
          exact carries_releasing (carries_frame inside start ceiling isStatement)

theorem carries_runGlobal (steps : Nat) (slot : Address) :
    Eval.Carries (κ := κ) names names.value (runGlobal steps slot) (runGlobal steps slot) := by
  refine (carries_onMemory _ Memory.carries_pushScope).bind fun scope => ?_
  refine (carries_onMemory _ (Memory.carries_pushBranch .run 0)).bind fun _ => ?_
  refine (carries_modifyRoots fun roots => ?_).bind fun _ => .get_bind fun machine other renamed => ?_
  · simp [Renaming.roots, Renaming.root]
  · rw [renamed.configuration]
    exact carries_runCode (fun address => carries_evaluate steps _ address _ _) steps _

/-- Memory as runs leave it: sound, and as large as it is configured. -/
structure Intact (machine : Machine κ) : Prop where
  heap : machine.memory.heap.WellFormed
  limit : machine.memory.heap.limit = machine.configuration.regionSize

/-- A machine that never ran anything, with the files, the console and the draws of
    another one. -/
def renewed (machine : Machine κ) : Machine κ :=
  { start machine.store machine.console machine.configuration with draws := machine.draws }

variable {machine other : Machine κ}

theorem exists_renamed_prepared (intact : machine.Intact) :
    ∃ names, Renamed names machine.renewed.prepared machine.prepared := by
  obtain ⟨names, region, alike⟩ := Heap.exists_renamed_reset intact.heap
  rw [intact.limit] at region alike
  have stack : machine.prepared.memory.stack = names.stack machine.renewed.prepared.memory.stack := by
    simp [prepared, renewed, Memory.reset, ScopeStack.empty, Renaming.stack]
  have roots : machine.prepared.memory.roots = names.roots machine.renewed.prepared.memory.roots := by
    simp [prepared, renewed, Memory.reset, Renaming.roots]
  exact ⟨names, ⟨rfl, rfl, rfl, rfl⟩, ⟨alike, stack, roots⟩, rfl, rfl, region.symm⟩

omit [Console κ] in
theorem Renamed.intact (renamed : Renamed names machine other) : other.Intact := by
  refine ⟨renamed.memory.heap.wellFormed', ?_⟩
  rw [renamed.memory.heap.limit, renamed.memory.heap.bounded, renamed.configuration, renamed.region]

theorem Intact.finish (intact : machine.Intact) (outcome : Outcome) : (machine.finish outcome).2.Intact := by
  unfold Machine.finish
  dsimp only
  split
  · exact ⟨intact.heap.reset, (Heap.limit_reset _).trans intact.limit⟩
  · exact ⟨intact.heap.reset, (Heap.limit_reset _).trans intact.limit⟩

/-- A run ends the same way on both machines, and leaves memory intact. -/
theorem same_ending_of_coupled {result result' : EStateM.Result Interrupt (Machine κ) Value}
    (coupled : Coupled (Renamed names) names.interrupt names.value result result') :
    SameRun (ending result) (ending result') ∧ (ending result').2.Intact := by
  have ends {machine other : Machine κ} (renamed : Renamed names machine other) (outcome : Outcome) :
      SameRun (machine.finish outcome) (other.finish outcome) ∧ (other.finish outcome).2.Intact :=
    ⟨renamed.toAlike.finish outcome, renamed.intact.finish outcome⟩
  cases coupled with
  | ok same renamed => exact ends renamed .finished
  | @error interrupt _ _ _ same renamed =>
      subst same
      cases interrupt with
      | answer value => exact ends renamed .finished
      | quit => exact ends renamed .quit
      | unfinished => exact ends renamed .unfinished

/-- A run on a machine that was used, and on a new one. -/
theorem runSlot_renewed (intact : machine.Intact) (steps : Nat) (slot : Address) :
    SameRun (machine.renewed.runSlot steps slot) (machine.runSlot steps slot) ∧
      (machine.runSlot steps slot).2.Intact := by
  obtain ⟨names, renamed⟩ := exists_renamed_prepared intact
  exact same_ending_of_coupled (carries_runGlobal steps slot _ _ renamed)

/-- What can be done with a machine: run a program, or give it other files, another
    console or other draws. -/
inductive Use (κ : Type) where
  | run (steps : Nat) (slot : Address)
  | exchange (store : Store) (console : κ) (draws : RandomSource)

/-- A machine after it was used. -/
def used (machine : Machine κ) : Use κ → Machine κ
  | .run steps slot => (machine.runSlot steps slot).2
  | .exchange store console draws => { machine with store, console, draws }

theorem Intact.used (intact : machine.Intact) (uses : List (Use κ)) : (uses.foldl Machine.used machine).Intact := by
  induction uses generalizing machine with
  | nil => exact intact
  | cons use rest ih =>
      refine ih ?_
      cases use with
      | run steps slot => exact (runSlot_renewed intact steps slot).2
      | exchange store console draws => exact ⟨intact.heap, intact.limit⟩

/-- Runs do not leak into each other. However a machine was used, a run on it ends, asks
    the console and writes files as it would on a new machine. The console may be a
    journal, which keeps every request in order. -/
theorem runSlot_as_if_new (store : Store) (console : κ) (configuration : Configuration) (uses : List (Use κ))
    (steps : Nat) (slot : Address) :
    let machine := uses.foldl used (start store console configuration)
    let run := machine.runSlot steps slot
    let run' := machine.renewed.runSlot steps slot
    run.1 = run'.1 ∧ run.2.console = run'.2.console ∧ run.2.store = run'.2.store ∧ run.2.draws = run'.2.draws := by
  intro machine run run'
  have fresh : (start store console configuration).Intact := ⟨.empty _, rfl⟩
  obtain ⟨⟨outcome, alike⟩, -⟩ := runSlot_renewed (fresh.used uses) steps slot
  exact ⟨outcome, alike.console, alike.store, alike.draws⟩

end Machine

end PocketScript
