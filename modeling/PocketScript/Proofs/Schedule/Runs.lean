import PocketScript.Proofs.Heeding.Runs
import PocketScript.Proofs.Schedule.Evaluations

/-! # When collections are made does not show

Two runs of a program that differ in when they collect, and in how many bytes
memory has, ask the same of the console, leave the same bytes in the store and end
the same way. One of them must not end for want of bytes, nor by an access through
a destination that nothing keeps any more, which only a collection makes fail: with
notice taken of what keeps destinations, such a run is told from others.
-/

namespace PocketScript

open Eval (Calm Tally Lost Matched Ruined)

namespace Machine

variable {κ : Type} [Console κ] {machine other before before' : Machine κ} {pairing : Pairing}

theorem tally_runGlobal (steps : Nat) (slot : Address) (pairing : Pairing) :
    Tally pairing (runGlobal (κ := κ) steps slot) (runGlobal steps slot) Value.Mirrors := by
  have pushes : Calm pairing (Eval.onMemory (Store.dataAddress slot) Memory.pushScope : Eval κ Nat)
      (Eval.onMemory (Store.dataAddress slot) Memory.pushScope) fun _ _ => True :=
    .onMemoryAs Eval.isOfMemory _ fun _ _ mirrors => mirrors.pushScope
  refine pushes.bind_tally fun scope scope' _ => ?_
  refine (Calm.pushBranch _ .run 0).bind_tally fun _ _ _ => ?_
  refine (Calm.modifyRoots _ _).bind_tally fun _ _ _ => ?_
  refine Tally.get_bind fun machine other mirrors => ?_
  rw [mirrors.maxDepth]
  exact tally_runCode (fun _ => staysSpent_evaluate steps _ _ _ _)
    (fun pairing _ => tally_evaluate steps _ pairing _ _ _) steps pairing _

/-- A run that other collections can end differently: memory lacks bytes, an
    access through a destination that nothing keeps finds its string or list gone,
    or so many objects were allocated that handles come again, so that such an
    access may even find another string or list. -/
def Precarious {κ : Type} (run : Outcome × Machine κ) : Prop :=
  (∃ fault, run.1 = .failed fault ∧ (fault.kind = .stackHeapCollision ∨ fault.cause = .loose .dangling)) ∨
    run.2.memory.heap.Spent

theorem finish_of_fault {fault : Fault} (failed : machine.fault? = some fault) (outcome : Outcome) :
    (machine.finish outcome).1 = .failed fault := by
  unfold finish
  dsimp only
  rw [failed]

theorem allocations_finish (machine : Machine κ) (outcome : Outcome) :
    (machine.finish outcome).2.memory.heap.allocations = machine.memory.heap.allocations := by
  unfold finish
  dsimp only
  split
  · exact Heap.allocations_reset _
  · exact Heap.allocations_reset _

/-- A run whose code is lost can be ended differently: what is kept is never
    gone. -/
theorem precarious_ending {result : EStateM.Result Interrupt (Machine κ) Value} (lost : Lost result)
    (ended : (Eval.last result).Ended) : Precarious (ending result) := by
  rcases lost with ruined | spent
  · cases ruined with
    | @failed after fault here ruinous =>
        refine .inl ⟨fault, finish_of_fault here .quit, ?_⟩
        obtain ⟨cause, address⟩ := fault
        obtain ⟨error, rfl | rfl, rfl | rfl⟩ := ruinous
        · exact .inl rfl
        · exact .inl rfl
        · exact absurd here (ended.harmless address)
        · exact .inr rfl
  · refine .inr ?_
    have same : (ending result).2.memory.heap.allocations = (Eval.last result).memory.heap.allocations := by
      cases result with
      | ok value after => exact allocations_finish after _
      | error interrupt after =>
          cases interrupt with
          | answer value | quit | unfinished => exact allocations_finish after _
    exact Nat.le_trans spent (Nat.le_of_eq same.symm)

/-- With notice taken, a run is precarious as well. -/
theorem Precarious.heeded {machine : Machine κ} (wellFormed : machine.memory.heap.WellFormed) {steps : Nat}
    {slot : Address} (precarious : Precarious (machine.runSlot steps slot)) :
    Precarious (machine.heeded.runSlot steps slot) := by
  have excuses := excuses_runSlot steps machine slot
  rcases precarious with ⟨fault, failed, lacking | gone⟩ | spent
  · obtain ⟨fault', failed', same⟩ := excuses.outcome.of_failed failed
    exact .inl ⟨fault', failed', .inl (same.kind_eq.trans lacking)⟩
  · obtain ⟨cause, address⟩ := fault
    cases gone
    exact .inl ⟨_, (dangles_iff wellFormed steps slot address).1 (.inr failed), .inr rfl⟩
  · exact .inr (excuses.machine.memory_eq ▸ spent)

/-- The same outcome, on machines that are the same outside of memory. -/
def SameRun (run run' : Outcome × Machine κ) : Prop :=
  run'.1 = run.1 ∧ run.2.Alike run'.2

theorem Alike.finish (alike : machine.Alike other) (outcome : Outcome) :
    SameRun (machine.finish outcome) (other.finish outcome) := by
  unfold Machine.finish
  dsimp only
  rw [alike.fault?]
  cases machine.fault? with
  | none => exact ⟨rfl, alike.store, alike.console, alike.draws, rfl⟩
  | some fault =>
      refine ⟨rfl, alike.store, ?_, alike.draws, rfl⟩
      simp only [report, alike.store, alike.console]

theorem same_ending {result result' : EStateM.Result Interrupt (Machine κ) Value} {reached : Pairing → Prop}
    {done : Pairing → Value → Value → Prop} (matched : Matched reached done result result') :
    SameRun (ending result) (ending result') := by
  cases matched with
  | ok _ mirrors _ => exact mirrors.toAlike.finish .finished
  | answer _ mirrors _ => exact mirrors.toAlike.finish .finished
  | quit alike => exact alike.finish .quit
  | unfinished alike => exact alike.finish .unfinished

omit [Console κ] in
/-- Two machines that never ran anything are alike, whatever their limits on memory. -/
theorem mirrors_start (store : Store) (console : κ) (configuration : Configuration)
    (regionSize collectAfterAllocations collectAfterStatements : Nat) :
    (start store console configuration).Mirrors (fun _ _ => False) (start store console
      { configuration with regionSize, collectAfterAllocations, collectAfterStatements }) :=
  ⟨⟨rfl, rfl, rfl, rfl⟩, rfl, Memory.tidy_empty _, Memory.tidy_empty _, fun _ _ => False.elim,
    fun _ _ _ _ => False.elim, fun _ _ _ _ => False.elim, fun _ => .none⟩

/-- A run starts with memory that is empty. -/
theorem runSlot_start (store : Store) (console : κ) (configuration : Configuration) (steps : Nat) (slot : Address) :
    (start store console configuration).runSlot steps slot =
      ending (runGlobal steps slot (start store (Console.resume console) configuration)) := by
  rw [runSlot]
  rfl

theorem ended_start (store : Store) (console : κ) (configuration : Configuration) (steps : Nat) (slot : Address) :
    (Eval.last (runGlobal steps slot (start store console configuration))).Ended := by
  have wellFormed : (start store console configuration).memory.heap.WellFormed := .empty _
  have ready : (start store console configuration).Ready := ready_reset wellFormed console
  have ended := ended_runGlobal steps slot ready
  cases ran : runGlobal steps slot (start store console configuration) with
  | ok value after | error interrupt after =>
      rw [ran] at ended
      exact ended

/-- When collections are made does not show, nor how large memory is: two runs of
    a program end the same way, have asked the same of the console and leave the
    same bytes in the store, unless one of them, with notice taken, is precarious. -/
theorem runSlot_whenever_collected (store : Store) (console : κ) (configuration : Configuration)
    (regionSize collectAfterAllocations collectAfterStatements steps : Nat) (slot : Address) :
    let machine := start store console configuration
    let machine' := start store console
      { configuration with regionSize, collectAfterAllocations, collectAfterStatements }
    let run := machine.runSlot steps slot
    let run' := machine'.runSlot steps slot
    Precarious (machine.heeded.runSlot steps slot) ∨ Precarious (machine'.heeded.runSlot steps slot) ∨
      run'.1 = run.1 ∧ run'.2.console = run.2.console ∧ run'.2.store = run.2.store := by
  intro machine machine' run run'
  have alike := mirrors_start store (Console.resume console) configuration regionSize collectAfterAllocations
    collectAfterStatements
  rcases tally_runGlobal steps slot _ _ _ alike with lost | lost | matched
  · have precarious : Precarious run := by
      rw [show run = _ from runSlot_start ..]
      exact precarious_ending lost (ended_start ..)
    exact .inl (precarious.heeded (.empty _))
  · have precarious : Precarious run' := by
      rw [show run' = _ from runSlot_start ..]
      exact precarious_ending lost (ended_start ..)
    exact .inr (.inl (precarious.heeded (.empty _)))
  · refine .inr (.inr ?_)
    rw [show run = _ from runSlot_start .., show run' = _ from runSlot_start ..]
    obtain ⟨outcome, same⟩ := same_ending matched
    exact ⟨outcome, same.console, same.store⟩

/-- A program that counts up what only a parenthesis had registered:

        func:F
        A="a"
        B="b"
        ret:0
        end;
        ([F][0]);++
        print:7

    The element that is selected holds the function, so a call follows. If a
    collection is made while the function runs, the list is gone. -/
def stepsAfterCall : List UInt8 :=
  [159, 70, 10, 65, 61, 34, 97, 34, 10, 66, 61, 34, 98, 34, 10, 160, 48, 10, 155, 10, 40, 91, 70, 93, 91, 48, 93, 41,
    59, 133, 10, 186, 55]

/-- The first slot with that program under the name `MAIN`. -/
def slotOfStepsAfterCall : List UInt8 :=
  [1, 77, 65, 73, 78] ++ List.replicate 12 0 ++ [33, 0] ++ stepsAfterCall ++ [0]

/-- A run with the standard limits collects during the call, and one that collects
    more rarely does not. -/
theorem runSlot_stepsAfterCall :
    ((start (Store.ofImage slotOfStepsAfterCall.toArray) (Script.ofAnswers [])
        { Configuration.standard with seed? := some 1 }).runSlot 20 0).1 = .failed ⟨.loose .dangling, 39⟩ ∧
      ((start (Store.ofImage slotOfStepsAfterCall.toArray) (Script.ofAnswers [])
        { Configuration.standard with seed? := some 1, collectAfterAllocations := 100 }).runSlot 20 0).1 =
          .finished := by
  rw [ofImage_toArray slotOfStepsAfterCall (by decide +kernel)]
  constructor
  · decide +kernel
  · decide +kernel

end Machine

end PocketScript
