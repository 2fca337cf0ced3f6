import PocketScript.Console.Script
import PocketScript.Proofs.Machine.Runs
import PocketScript.Proofs.Metering.Evaluations

/-! # Only loops run forever

A run that opens no loop ends: it cannot run out of statements if there are more of them
than bytes in the store. Until a loop is opened it begins no more expressions and
statements than a bound that depends on the size of the store and on the levels of
nesting alone, whatever the store holds.
-/

namespace PocketScript

variable {κ : Type} [Console κ] {machine : Machine (Metered κ)} {steps : Nat}

namespace Machine

open Eval (Measured Gives)

/-- How many expressions and statements a run begins at most that opens no loop. -/
def runBound (levels : Nat) : Nat :=
  Store.capacity * expressionBound levels

theorem measured_runGlobal (enough : Store.capacity < steps) (slot : Address) (settled : machine.Settled) :
    Measured (runBound machine.configuration.maxDepth) (runGlobalMetered steps slot) (runGlobal steps slot) machine
      fun _ after => after.memory.Loopless := by
  have still : (BranchAction.run : BranchAction) ≠ .loop := by decide
  unfold runGlobalMetered runGlobal
  refine .seq (.gives (.passing (.onMemory _ Memory.loopless_pushScope) settled)
    (gives_onMemory_rest _ _)) fun scope opened one => ?_
  refine .seq (.gives (.passing (.onMemory _ (Memory.loopless_pushBranch still _)) fun none => (one none).2.1)
    (gives_onMemory_rest _ _)) fun _ entered two => ?_
  have registers : Gives (Eval.modifyRoots (·.push (.scope scope))) entered fun _ after =>
      after.configuration = entered.configuration := by
    rintro _ _ ⟨⟩
    rfl
  refine .seq (.gives (.passing (.modifyRoots _) fun none => (two none).2.1) registers) fun _ rooted three => ?_
  refine .get_bind ?_
  have room : Store.capacity - Store.dataAddress slot ≤ Store.capacity := Nat.sub_le _ _
  refine (measured_runCode (fun settled address => measured_evaluate enough _ settled.watched _ _ _) steps
    (Store.dataAddress slot) (fun none => (three none).2.1) fun _ => Nat.lt_of_le_of_lt room enough).mono ?_
      fun _ _ _ done => done
  intro none
  obtain ⟨none, -, same⟩ := three none
  obtain ⟨none, -, -, same'⟩ := two none
  obtain ⟨-, -, -, same''⟩ := one none
  rw [same, same', same'']
  exact Nat.mul_le_mul_right _ room

/-- A fault is reported past the meter. -/
theorem finish_metered (machine : Machine (Metered κ)) (outcome : Outcome) :
    ((machine.finish outcome).1, (machine.finish outcome).2.bare) = machine.bare.finish outcome ∧
      (machine.finish outcome).2.console.begun = machine.console.begun ∧
      (machine.finish outcome).2.console.looped = machine.console.looped := by
  unfold finish
  dsimp only [bare]
  cases machine.fault? with
  | none => exact ⟨rfl, rfl, rfl⟩
  | some fault => exact ⟨rfl, rfl, rfl⟩

theorem finish_ne_unfinished (machine : Machine κ) {outcome : Outcome} (other : outcome ≠ .unfinished) :
    (machine.finish outcome).1 ≠ .unfinished := by
  unfold finish
  dsimp only
  split
  · exact nofun
  · exact other

/-- The run of code that is measured ends as it does without a meter. -/
theorem ending_metered {count : Nat} {metered : Eval (Metered κ) Value} {evaluation : Eval κ Value}
    {done : Value → Machine (Metered κ) → Prop} (measured : Measured count metered evaluation machine done) :
    ((ending (metered machine)).1, (ending (metered machine)).2.bare) = ending (evaluation machine.bare) ∧
      machine.Spends count (ending (metered machine)).2 ∧
      ((ending (metered machine)).2.console.looped = true ∨ (ending (evaluation machine.bare)).1 ≠ .unfinished) := by
  have finishes {after : Machine (Metered κ)} (spends : machine.Spends count after) {outcome : Outcome}
      (ends : after.console.looped = true ∨ outcome ≠ .unfinished) :
      ((after.finish outcome).1, (after.finish outcome).2.bare) = after.bare.finish outcome ∧
        machine.Spends count (after.finish outcome).2 ∧
        ((after.finish outcome).2.console.looped = true ∨ (after.bare.finish outcome).1 ≠ .unfinished) := by
    obtain ⟨same, meter⟩ := finish_metered after outcome
    refine ⟨same, spends.trans (.of_same meter), ends.imp (fun looped => ?_) (finish_ne_unfinished _)⟩
    exact meter.2.trans looped
  unfold Measured at measured
  cases ran : metered machine with
  | ok value after =>
      simp only [ran] at measured
      rw [measured.1]
      exact finishes measured.2.1 (.inr nofun)
  | error interrupt after =>
      simp only [ran] at measured
      cases interrupt with
      | answer value =>
          rw [measured.1]
          exact finishes measured.2.1 (.inr nofun)
      | quit =>
          rw [measured.1]
          exact finishes measured.2 (.inr nofun)
      | unfinished =>
          rw [measured.1]
          exact finishes measured.2.1 (.inl measured.2.2)

/-- Only loops run forever. Whatever the store holds, a run with more statements at its
    disposal than the store has bytes either opens a loop or is not cut short, and up to
    there it begins no more expressions and statements than the bound. The meter that shows
    this does not change the run. -/
theorem only_loops_run_forever (machine : Machine κ) (slot : Address) (enough : Store.capacity < steps) :
    let run := machine.runMetered steps slot
    (run.1, run.2.bare) = machine.runSlot steps slot ∧
      run.2.console.begun ≤ runBound machine.configuration.maxDepth ∧
      (run.2.console.looped = true ∨ (machine.runSlot steps slot).1 ≠ .unfinished) := by
  intro run
  have settled : (machine.withMeter ⟨machine.console, 0, false⟩).prepared.Settled :=
    fun _ _ mem => absurd mem (Array.not_mem_empty _)
  obtain ⟨same, spends, ends⟩ := ending_metered (measured_runGlobal enough slot settled)
  exact ⟨same, Nat.le_trans spends.begun (Nat.le_of_eq (Nat.zero_add _)), ends⟩

/-- The first slot with a file under the name `LIB` that imports itself. -/
def slotOfImportsItself : List UInt8 :=
  [1, 76, 73, 66] ++ List.replicate 13 0 ++ [6, 0, 197, 34, 76, 73, 66, 34, 0]

/-- Nothing but the levels of nesting ends a file that imports itself, and no loop is
    opened meanwhile. -/
theorem only_loops_run_forever_importsItself :
    let machine := start (Store.ofImage slotOfImportsItself.toArray) (Script.ofAnswers [])
      { Configuration.standard with seed? := some 1, maxDepth := 6 }
    let steps := Store.capacity + 1
    let run := machine.runMetered steps 0
    (run.1 = .failed ⟨.program .expressionTooComplex, 20⟩ ∧ run.2.console.looped = false ∧
      run.2.console.begun = 12) ∧
    Store.capacity < steps ∧ (run.1, run.2.bare) = machine.runSlot steps 0 ∧
      run.2.console.begun ≤ runBound machine.configuration.maxDepth ∧
      (run.2.console.looped = true ∨ (machine.runSlot steps 0).1 ≠ .unfinished) := by
  intro machine steps
  have fails : let run := machine.runMetered steps 0
      run.1 = .failed ⟨.program .expressionTooComplex, 20⟩ ∧ run.2.console.looped = false ∧
        run.2.console.begun = 12 := by
    unfold machine
    rw [ofImage_toArray _ (by decide +kernel)]
    decide +kernel
  have enough : Store.capacity < steps := Nat.lt_succ_self _
  exact ⟨fails, enough, only_loops_run_forever machine 0 enough⟩

end Machine

end PocketScript
