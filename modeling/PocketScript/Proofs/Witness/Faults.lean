import PocketScript.Machine.Run
import PocketScript.Proofs.Witness.Evaluations

/-! # The first fault ends a program

A run that is watched is the run that is not, and what was kept of it is all that it
did to the console and to the store. It asks the console to go on, and if there is a
fault, then only one: after it the message of that fault is shown and its program
line, and nothing else is done. The run fails with it. Faults of earlier runs play
no part.
-/

namespace PocketScript

namespace Machine

variable {κ : Type} [Console κ] {levels : Nat}

section

variable [Witness κ]

/-- The program in a slot, with a given number of levels left. -/
def runGlobalWith (levels steps : Nat) (slot : Address) : Eval κ Value := do
  let address := Store.dataAddress slot
  let scope ← Eval.onMemory address Memory.pushScope
  Eval.onMemory address (Memory.pushBranch .run 0)
  Eval.modifyRoots (·.push (.scope scope))
  runCode (fun address => evaluate steps levels address Inner.statementCeiling true) steps address

/-- Before the first statement, no limit is changed. -/
theorem runGlobal_eq_runGlobalWith (steps : Nat) (slot : Address) (machine : Machine κ) :
    runGlobal steps slot machine = runGlobalWith machine.configuration.maxDepth steps slot machine := by
  simp only [runGlobal, runGlobalWith, Bind.bind, EStateM.bind, Eval.onMemory, Eval.onMemoryAs]
  cases Memory.pushScope machine.memory with
  | error error memory => rfl
  | ok scope memory =>
      dsimp only
      cases Memory.pushBranch .run 0 memory with
      | error error memory => rfl
      | ok result memory => rfl

end

theorem attests_runGlobalWith (levels steps : Nat) (slot : Address) :
    Eval.Attests (κ := κ) levels (runGlobalWith levels steps slot) (runGlobalWith levels steps slot) :=
  .bind (.onMemory _ _) fun _ => .bind (.onMemory _ _) fun _ => .bind (.modifyRoots _) fun _ =>
    attests_runCode (fun _ => attests_evaluate _ _ _ _ _) _ _

/-- What was kept while the code of a program ran is an account of it. -/
theorem account_runGlobal (steps : Nat) (slot : Address) (machine : Machine (Witnessed κ)) :
    (∃ events, Account machine.configuration.maxDepth machine events (runGlobal steps slot machine)) ∧
      ∀ depth, runGlobal steps slot (machine.unwitnessed depth) =
        Eval.unwitnessed depth (runGlobal steps slot machine) := by
  simp only [runGlobal_eq_runGlobalWith]
  exact attests_runGlobalWith machine.configuration.maxDepth steps slot machine

/-- What was kept since there was that machine leads from it to another one. -/
structure Tells (machine : Machine κ) (watched : Machine (Witnessed κ)) : Prop where
  console : watched.console.console = watched.console.events.foldl Event.onConsole machine.console
  store : watched.store = watched.console.events.foldl Event.onStore machine.store

variable {machine : Machine κ} {before after : Machine (Witnessed κ)} {events : List Event}

theorem Tells.account {result : EStateM.Result Interrupt (Machine (Witnessed κ)) Value}
    (tells : machine.Tells before) (account : Account levels before events result) :
    machine.Tells (Eval.last result) where
  console := by rw [account.console, account.kept, List.foldl_append, tells.console]
  store := by rw [account.store, account.kept, List.foldl_append, tells.store]

/-- A question that is asked in between. -/
theorem Tells.ask (tells : machine.Tells after) (question : Question) :
    machine.Tells { after with console := (after.console.ask question).2 } where
  console := by
    rw [Witnessed.ask, List.foldl_append, ← tells.console]
    rfl
  store := by
    rw [Witnessed.ask, List.foldl_append, ← tells.store]
    rfl

theorem Tells.report (tells : machine.Tells after) (fault : Fault) : machine.Tells (after.report fault) :=
  (tells.ask (.print fault.kind.message)).ask (.print (after.store.sourceLine fault.address))

theorem Tells.ending {result : EStateM.Result Interrupt (Machine (Witnessed κ)) Value}
    (tells : machine.Tells (Eval.last result)) : machine.Tells (ending result).2 := by
  have finishes {after : Machine (Witnessed κ)} (tells : machine.Tells after) (outcome : Outcome) :
      machine.Tells (after.finish outcome).2 := by
    have empty : machine.Tells { after with memory := after.memory.reset } := ⟨tells.console, tells.store⟩
    unfold finish
    dsimp only
    split
    · exact empty.report _
    · exact empty
  cases result with
  | ok value after => exact finishes tells _
  | error interrupt after =>
      cases interrupt with
      | answer value | quit | unfinished => exact finishes tells _

theorem ending_unwitnessed (depth : Nat) (result : EStateM.Result Interrupt (Machine (Witnessed κ)) Value) :
    ending (Eval.unwitnessed depth result) = ((ending result).1, (ending result).2.unwitnessed depth) := by
  have finishes (after : Machine (Witnessed κ)) (outcome : Outcome) :
      (after.unwitnessed depth).finish outcome =
        ((after.finish outcome).1, (after.finish outcome).2.unwitnessed depth) := by
    unfold finish
    simp only [unwitnessed]
    cases after.fault? with
    | none => rfl
    | some fault => rfl
  cases result with
  | ok value after => exact finishes after _
  | error interrupt after =>
      cases interrupt with
      | answer value | quit | unfinished => exact finishes after _

end Machine

/-- What is kept of a run of a program, given how the run ends. -/
inductive RunsWith {κ : Type} : List Event → Outcome × Machine κ → Prop where
  | faultless {run : Outcome × Machine κ} (events : List Event) (faultless : Faultless events)
      (ends : run.1 = .finished ∨ run.1 = .quit ∨ run.1 = .unfinished) (clear : run.2.fault? = none) :
      RunsWith (.asked .resume :: events) run
  /-- There was no fault before this one, and all that is done after it is to report it. -/
  | failed {run : Outcome × Machine κ} (events : List Event) (fault : Fault) (faultless : Faultless events)
      (ends : run.1 = .failed fault) (recorded : run.2.fault? = some fault) :
      RunsWith (.asked .resume :: events ++ [.noted (.failed none fault), .asked (.print fault.kind.message),
        .asked (.print (run.2.store.sourceLine fault.address))]) run

theorem RunsWith.unwitnessed {κ : Type} {events : List Event} {run : Outcome × Machine (Witnessed κ)}
    (runs : RunsWith events run) (depth : Nat) : RunsWith events (run.1, run.2.unwitnessed depth) := by
  obtain ⟨outcome, after⟩ := run
  cases runs with
  | faultless events faultless ends clear => exact .faultless events faultless ends clear
  | failed events fault faultless ends recorded =>
      exact @RunsWith.failed _ (outcome, after.unwitnessed depth) events fault faultless ends recorded

namespace Machine

variable {κ : Type} [Console κ] {levels : Nat} {before after : Machine (Witnessed κ)} {events : List Event}

theorem runsWith_finish_of_none (kept : after.console.events = .asked .resume :: events) (faultless : Faultless events)
    (clear : after.fault? = none) {outcome : Outcome}
    (ends : outcome = .finished ∨ outcome = .quit ∨ outcome = .unfinished) :
    RunsWith (after.finish outcome).2.console.events (after.finish outcome) := by
  unfold finish
  dsimp only
  rw [clear]
  exact kept ▸ .faultless events faultless ends rfl

theorem runsWith_finish_of_some {fault : Fault}
    (kept : after.console.events = .asked .resume :: events ++ [.noted (.failed none fault)]) (faultless : Faultless events)
    (recorded : after.fault? = some fault) (outcome : Outcome) :
    RunsWith (after.finish outcome).2.console.events (after.finish outcome) := by
  have reported : (after.finish outcome).2.console.events =
      .asked .resume :: events ++ [.noted (.failed none fault), .asked (.print fault.kind.message),
        .asked (.print (after.store.sourceLine fault.address))] := by
    unfold finish
    dsimp only
    rw [recorded]
    show (after.console.events ++ [_]) ++ [_] = _
    rw [kept]
    simp
  rw [reported]
  have same : (after.finish outcome).2.store = after.store ∧ (after.finish outcome).2.fault? = some fault ∧
      (after.finish outcome).1 = .failed fault := by
    unfold finish
    dsimp only
    rw [recorded]
    exact ⟨rfl, rfl, rfl⟩
  exact same.1 ▸ .failed events fault faultless same.2.2 same.2.1

theorem runsWith_ending {result : EStateM.Result Interrupt (Machine (Witnessed κ)) Value}
    (account : Account levels before events result) (resumed : before.console.events = [.asked .resume])
    (clear : before.fault? = none) : RunsWith (ending result).2.console.events (ending result) := by
  have kept := account.kept
  rw [resumed] at kept
  cases account.faults with
  | failed earlier fault last none recorded =>
      rw [last, clear, ← List.append_assoc] at kept
      exact runsWith_finish_of_some kept none recorded .quit
  | faultless none same =>
      rw [clear] at same
      cases result with
      | ok value after => exact runsWith_finish_of_none kept none same (.inl rfl)
      | error interrupt after =>
          cases interrupt with
          | answer value => exact runsWith_finish_of_none kept none same (.inl rfl)
          | quit => exact runsWith_finish_of_none kept none same (.inr (.inl rfl))
          | unfinished => exact runsWith_finish_of_none kept none same (.inr (.inr rfl))

/-- The first fault ends the program. A run that is watched ends as it does otherwise,
    and what was kept of it, in order, is all that it did to the console and to the
    store: at most one fault, and behind it nothing but the message of that fault and
    its program line. With a fault the run fails with it, and otherwise the run does
    not fail. It holds for every number of `steps`, and a run is never out of them
    behind a fault, so no statement is run after one. -/
theorem runSlot_first_fault (machine : Machine κ) (steps : Nat) (slot : Address) :
    let watched := machine.witnessed.runSlot steps slot
    let events := watched.2.console.events
    let run := machine.runSlot steps slot
    run = (watched.1, watched.2.unwitnessed 0) ∧
      run.2.console = events.foldl Event.onConsole machine.console ∧
      run.2.store = events.foldl Event.onStore machine.store ∧
      RunsWith events run := by
  intro watched events run
  obtain ⟨⟨code, account⟩, same⟩ := account_runGlobal steps slot machine.witnessed.prepared
  have erased : run = (watched.1, watched.2.unwitnessed 0) :=
    (congrArg ending (same 0)).trans (ending_unwitnessed 0 _)
  have resumed : machine.Tells machine.witnessed.prepared := ⟨rfl, rfl⟩
  have tells : machine.Tells watched.2 := (resumed.account account).ending
  have runs : RunsWith events watched := runsWith_ending account rfl rfl
  rw [erased]
  exact ⟨rfl, tells.console, tells.store, runs.unwitnessed 0⟩

end Machine

end PocketScript
