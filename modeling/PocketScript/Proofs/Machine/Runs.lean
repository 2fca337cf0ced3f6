import PocketScript.Machine.Run
import PocketScript.Proofs.Machine.Evaluations

/-! # Runs

A run starts with memory that is empty, hence sound, and registers its global
scope before the first statement. So it never ends because of a collected object,
unless nothing kept the string or list that was accessed.
-/

namespace PocketScript

/-- Memory with nothing in it is sound. -/
theorem Memory.sound_reset {memory : Memory} (wellFormed : memory.heap.WellFormed) : memory.reset.Sound := by
  have none : ∀ handle, memory.reset.heap.contents handle = none := by
    intro handle
    simp [Heap.contents, Memory.reset]
  refine ⟨wellFormed.reset, ⟨none _, ?_, ?_, ?_⟩, ?_, ?_⟩
  · intro cell object at_cell
    simp [none] at at_cell
  · intro cell other object at_cell
    simp [none] at at_cell
  · intro object values at_object
    simp [none] at at_object
  · intro place binding here
    simp [ScopeStack.variableAt?, Memory.reset, ScopeStack.empty] at here
  · rintro value ⟨root, mem, -⟩
    simp [Memory.reset] at mem

namespace Machine

open Eval (Keeps KeepsFrom)

variable {κ : Type} [Console κ] {machine : Machine κ}

theorem keeps_runGlobal [Heeding κ] (steps : Nat) (slot : Address) (ready : machine.Ready) :
    ∃ base, KeepsFrom base (runGlobal steps slot) machine fun value after => after.memory.Live value := by
  obtain ⟨after, ran, ended⟩ | ⟨opened, ran, opens⟩ := ready.toSteady.pushScope (Store.dataAddress slot)
  · exact ⟨machine, .bind_ended ran ended⟩
  · refine ⟨opened, .bind_ran ran ?_⟩
    refine opens.enter ready.tracked _ fun entered _ entered_ready _ => .get_bind ?_
    exact keeps_runCode (fun ready address => keeps_evaluate steps _ ready _ _ _) steps entered_ready _

/-- What is left after a run. -/
theorem ended_runGlobal [Heeding κ] (steps : Nat) (slot : Address) (ready : machine.Ready) :
    match runGlobal steps slot machine with
    | .ok _ after | .error _ after => after.Ended := by
  obtain ⟨base, keeps⟩ := keeps_runGlobal steps slot ready
  unfold KeepsFrom at keeps
  cases ran : runGlobal steps slot machine with
  | ok value after =>
      simp only [ran] at keeps ⊢
      exact keeps.1.steady.ended
  | error interrupt after =>
      simp only [ran] at keeps ⊢
      cases interrupt with
      | answer value => exact keeps.1.steady.ended
      | quit | unfinished => exact keeps

theorem Ended.finish (ended : machine.Ended) {outcome : Outcome} (other : ∀ fault, outcome ≠ .failed fault) :
    (∀ address, (machine.finish outcome).1 ≠ .failed ⟨.memory .dangling, address⟩) ∧
      (machine.finish outcome).2.memory.heap.WellFormed := by
  unfold Machine.finish
  dsimp only
  split
  · next fault failed =>
    refine ⟨fun address same => ended.harmless address ?_, ended.heap.reset⟩
    rw [← Outcome.failed.inj same, ← failed]
  · exact ⟨fun address => other _, ended.heap.reset⟩

omit [Console κ] in
/-- A machine that a run starts on. -/
theorem ready_reset (wellFormed : machine.memory.heap.WellFormed) (console : κ) :
    Ready { machine with
      fault? := none, memory := machine.memory.reset, recentStatements := 0, depth := 0, console } := by
  refine ⟨⟨fun address same => by simp at same, Memory.sound_reset wellFormed⟩, fun index inside => ?_⟩
  simp [Memory.reset, ScopeStack.empty] at inside

theorem ready_prepared (wellFormed : machine.memory.heap.WellFormed) : machine.prepared.Ready :=
  ready_reset wellFormed _

theorem harmless_runSlot [Heeding κ] (steps : Nat) (slot : Address) (wellFormed : machine.memory.heap.WellFormed) :
    (∀ address, (machine.runSlot steps slot).1 ≠ .failed ⟨.memory .dangling, address⟩) ∧
      (machine.runSlot steps slot).2.memory.heap.WellFormed := by
  have ended := ended_runGlobal steps slot (ready_prepared wellFormed)
  unfold runSlot
  cases ran : runGlobal steps slot machine.prepared with
  | ok value after =>
      simp only [ran] at ended
      exact ended.finish (by simp)
  | error interrupt after =>
      simp only [ran] at ended
      cases interrupt with
      | answer value | quit | unfinished => exact ended.finish (by simp)

/-- A machine after programs were run on it, each with the steps allowed for it. -/
def afterRuns (machine : Machine κ) (runs : List (Nat × Address)) : Machine κ :=
  runs.foldl (fun machine run => (machine.runSlot run.1 run.2).2) machine

theorem wellFormed_afterRuns (runs : List (Nat × Address)) (wellFormed : machine.memory.heap.WellFormed) :
    (machine.afterRuns runs).memory.heap.WellFormed := by
  induction runs generalizing machine with
  | nil => exact wellFormed
  | cons run rest ih => exact ih (harmless_runSlot run.1 run.2 wellFormed).2

theorem ofImage_toArray (image : List UInt8) (fits : image.length ≤ 32768) :
    Store.ofImage image.toArray =
      ⟨⟨(image ++ List.replicate (32768 - image.length) Store.erasedByte).toArray, by simp; omega⟩⟩ := by
  rw [Store.ofImage, Store.mk.injEq]
  ext address inside
  simp only [Vector.getElem_ofFn, Vector.getElem_mk, List.getElem_toArray, List.getElem_append,
    List.getElem_replicate]
  split
  · next here => simp [Array.getD, here]
  · next beyond => simp [Array.getD, beyond]

end Machine

end PocketScript
