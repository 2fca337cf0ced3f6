import PocketScript.Console.Script
import PocketScript.Proofs.Heeding.Evaluations
import PocketScript.Proofs.Machine.Runs

/-! # Runs with notice taken

A run goes the same way with notice taken of what keeps destinations, and if it ends
with a fault, it is the same fault. So what is known with notice taken tells which of
the refused accesses of a plain run were to be expected: those to a string or list
that nothing kept any more.
-/

namespace PocketScript

/-- The same end, but with notice taken it may be known that a destination was kept. -/
inductive Outcome.Excuses : (heeded plain : Outcome) → Prop where
  | same (outcome : Outcome) : Excuses outcome outcome
  | failed {fault fault' : Fault} (excuses : fault.Excuses fault') : Excuses (.failed fault) (.failed fault')

theorem Outcome.Excuses.of_failed {heeded plain : Outcome} {fault : Fault} (excuses : heeded.Excuses plain)
    (failed : plain = .failed fault) : ∃ fault', heeded = .failed fault' ∧ fault'.Excuses fault := by
  cases excuses with
  | same => exact ⟨fault, failed, .same _, rfl⟩
  | failed excuses =>
      cases failed
      exact ⟨_, rfl, excuses⟩

namespace Machine

variable {κ : Type} [Console κ]

/-- The same run, one with notice taken and the other without. -/
structure Excuses (heeded : Outcome × Machine (Heeded κ)) (plain : Outcome × Machine κ) : Prop where
  outcome : heeded.1.Excuses plain.1
  machine : Eval.Unheeds heeded.2 plain.2

theorem excuses_finish {machine : Machine (Heeded κ)} {other : Machine κ} (unheeds : Eval.Unheeds machine other)
    (outcome : Outcome) : Excuses (machine.finish outcome) (other.finish outcome) := by
  obtain ⟨faults⟩ := unheeds
  unfold finish
  dsimp only [unheeded]
  generalize machine.fault? = fault? at faults
  cases faults with
  | none => exact ⟨.same _, ⟨.none⟩⟩
  | some excuses =>
      refine ⟨.failed excuses, ?_⟩
      simp only [report, excuses.kind_eq, excuses.address]
      exact ⟨.some excuses⟩

theorem excuses_ending {result : EStateM.Result Interrupt (Machine (Heeded κ)) Value}
    {result' : EStateM.Result Interrupt (Machine κ) Value} (ended : Eval.EndsAlike id result result') :
    Excuses (ending result) (ending result') := by
  cases ended with
  | ok value unheeds => exact excuses_finish unheeds _
  | error interrupt unheeds =>
      cases interrupt with
      | answer value | quit | unfinished => exact excuses_finish unheeds _

theorem erases_runGlobal (steps : Nat) (slot : Address) :
    Eval.Erases (κ := κ) id (runGlobal steps slot) (runGlobal steps slot) := by
  unfold runGlobal
  refine .bind_same (.onMemory _ _) fun scope => .bind_same (.onMemory _ _) fun _ => ?_
  refine .bind_same (.modifyRoots _) fun _ => .get_bind fun machine _ => ?_
  exact erases_runCode (fun _ => erases_evaluate _ _ _ _ _) _ _

/-- A run with notice taken is the plain run, but for what a refusal is put down to. -/
theorem excuses_runSlot (steps : Nat) (machine : Machine κ) (slot : Address) :
    Excuses (machine.heeded.runSlot steps slot) (machine.runSlot steps slot) :=
  excuses_ending (erases_runGlobal steps slot machine.heeded.prepared none .none)

/-- Memory refuses an access to something that was collected just where, with notice
    taken, the access is through a destination that nothing keeps any more. -/
theorem dangles_iff {machine : Machine κ} (wellFormed : machine.memory.heap.WellFormed) (steps : Nat)
    (slot address : Address) :
    (machine.runSlot steps slot).1 = .failed ⟨.memory .dangling, address⟩ ∨
        (machine.runSlot steps slot).1 = .failed ⟨.loose .dangling, address⟩ ↔
      (machine.heeded.runSlot steps slot).1 = .failed ⟨.loose .dangling, address⟩ := by
  have heeded_wellFormed : machine.heeded.memory.heap.WellFormed := wellFormed
  have kept := (harmless_runSlot steps slot heeded_wellFormed).1 address
  have excuses := (excuses_runSlot steps machine slot).outcome
  revert kept excuses
  generalize (machine.heeded.runSlot steps slot).1 = heeded, (machine.runSlot steps slot).1 = plain
  intro kept excuses
  cases excuses with
  | same => exact or_iff_right kept
  | @failed fault fault' excuses =>
      obtain ⟨cause, at_heeded⟩ := fault
      obtain ⟨cause', at_plain⟩ := fault'
      obtain ⟨excuses, rfl⟩ := excuses
      cases excuses with
      | same => exact or_iff_right kept
      | kept error => simpa using kept

/-- No use after collection: whatever ran before, memory refuses an access to a
    string, a list or a variable of a run because it was collected just where, with
    notice taken, the access is through a destination that nothing keeps any more. -/
theorem runSlot_keeps_what_is_held (store : Store) (console : κ) (configuration : Configuration)
    (runs : List (Nat × Address)) (steps : Nat) (slot address : Address) :
    let machine := (start store console configuration).afterRuns runs
    let run := machine.runSlot steps slot
    run.1 = .failed ⟨.memory .dangling, address⟩ ∨ run.1 = .failed ⟨.loose .dangling, address⟩ ↔
      (machine.heeded.runSlot steps slot).1 = .failed ⟨.loose .dangling, address⟩ := by
  have empty : (start store console configuration).memory.heap.WellFormed := .empty _
  exact dangles_iff (wellFormed_afterRuns runs empty) steps slot address

/-- A program that writes into a string that only a parenthesis had registered:

        func:F
        A="a"
        B="b"
        ret:5
        end;
        ("abc"[0])=F;
        print:7

    While `F` runs, enough objects are allocated for a collection. -/
def writesAfterCall : List UInt8 :=
  [159, 70, 10, 65, 61, 34, 97, 34, 10, 66, 61, 34, 98, 34, 10, 160, 53, 10, 155, 10, 40, 34, 97, 98, 99, 34,
    91, 48, 93, 41, 61, 70, 59, 10, 186, 55]

/-- The first slot with that program under the name `MAIN`. -/
def slotOfWritesAfterCall : List UInt8 :=
  [1, 77, 65, 73, 78] ++ List.replicate 12 0 ++ [36, 0] ++ writesAfterCall ++ [0]

/-- The string that is assigned to is gone when the call returns. -/
theorem runSlot_writesAfterCall :
    ((start (Store.ofImage slotOfWritesAfterCall.toArray) (Script.ofAnswers [])
        { Configuration.standard with seed? := some 1 }).runSlot 20 0).1 =
      .failed ⟨.loose .dangling, 39⟩ := by
  rw [ofImage_toArray slotOfWritesAfterCall (by decide +kernel)]
  decide +kernel

end Machine

end PocketScript
