import PocketScript.Proofs.Flow.Storing

/-! # Lines that are skipped

Of a line that is skipped only the block structure counts. One lemma for each
thing it can do to the open blocks: nothing, open one, close one, or take up an
arm of a chain none of whose arms was taken yet.
-/

namespace PocketScript

open Eval (Yields Keeps)
open Machine (evaluate innerOf skip tryArm)

variable {κ : Type} [Console κ] {scene : Scene κ} {steps levels : Nat} {machine : Machine κ}
  {course : Course} {branch next : Branch} {branches branches' : List Branch} {address code : Nat}
  {line : List UInt8}

theorem Scene.Turns.of_skip (ignored : machine.memory.stack.action.isIgnored = true)
    (skips : ∀ deeper, levels = deeper + 1 → Yields (skip (innerOf steps deeper) (.starting address)) machine
      fun expression after => scene.Stands after course branches ∧ expression.code = code) :
    scene.Turns steps levels machine address course branches code := by
  refine Machine.yields_evaluate (fun deeper level => ?_) fun expression after last same holds =>
    ⟨holds.1.undisturbed same, holds.2⟩
  refine .get_bind ?_
  rw [ignored, if_pos rfl]
  exact skips deeper level

/-- The end of a line that was skipped. -/
theorem Scene.Stands.skips_to (stands : scene.Stands machine course branches) {expression : Expression}
    (ends : scene.store.lineEnd expression.code = code) :
    Yields (do return { expression with code := (← get).store.lineEnd expression.code }) machine
      fun expression after => scene.Stands after course branches ∧ expression.code = code := by
  refine ⟨stands, ?_⟩
  rw [← ends, ← stands.store]

/-- A line that is no part of the block structure. -/
theorem Scene.Stands.turns_skipped (stands : scene.Stands machine course (branch :: branches))
    (ignored : branch.action.isIgnored = true) (ends : scene.store.lineEnd address = code)
    (aside : ∀ function, Symbol.builtin? (scene.store.byte address) ≠ some (.control function)) :
    scene.Turns steps levels machine address course (branch :: branches) code := by
  rw [← stands.action] at ignored
  refine .of_skip ignored fun deeper _ => ?_
  refine .get_bind ?_
  refine .byteAt_bind ?_
  rw [stands.store]
  cases found : Symbol.builtin? (scene.store.byte address) with
  | none =>
    simp only [Expression.starting, found]
    exact stands.skips_to ends
  | some builtin =>
    cases builtin with
    | control function => exact absurd found (aside function)
    | math function | value function | console function | file function =>
      simp only [Expression.starting, found]
      exact stands.skips_to ends

/-- A control line that opens or closes no block, and takes up no arm. -/
theorem Scene.Stands.turns_passed {function : Control} (stands : scene.Stands machine course (branch :: branches))
    (ignored : branch.action.isIgnored = true) (ends : scene.store.lineEnd address = code)
    (here : scene.store.byte address = (Builtin.control function).byte)
    (passed : function = .leaveLoop ∨ function = .nextRound ∨
      branch.action = .ignoreHard ∧ (function = .otherwise ∨ function = .otherwiseWhen)) :
    scene.Turns steps levels machine address course (branch :: branches) code := by
  rw [← stands.action] at ignored
  have found := (Builtin.control function).byte_spec.2.2.2.2.2.2
  rw [← here] at found
  refine .of_skip ignored fun deeper _ => ?_
  refine .get_bind ?_
  refine .byteAt_bind ?_
  rw [stands.store, stands.action]
  simp only [Expression.starting, found]
  rcases passed with rfl | rfl | ⟨hard, rfl | rfl⟩
  · exact stands.skips_to ends
  · exact stands.skips_to ends
  · simp only [hard]
    exact stands.skips_to ends
  · simp only [hard]
    exact stands.skips_to ends

/-- The beginning of a block. -/
theorem Scene.Stands.turns_opened {function : Control} (stands : scene.Stands machine course (branch :: branches))
    (ignored : branch.action.isIgnored = true) (ends : scene.store.lineEnd address = code)
    (here : scene.store.byte address = (Builtin.control function).byte)
    (opens : function = .whenTrue ∨ function = .loop ∨ function = .define) :
    scene.Turns steps levels machine address course (⟨.ignoreHard, 0⟩ :: branch :: branches) code := by
  rw [← stands.action] at ignored
  have found := (Builtin.control function).byte_spec.2.2.2.2.2.2
  rw [← here] at found
  refine .of_skip ignored fun deeper _ => ?_
  refine .get_bind ?_
  refine .byteAt_bind ?_
  rw [stands.store, stands.action]
  simp only [Expression.starting, found]
  rcases opens with rfl | rfl | rfl
  all_goals
    refine (stands.pushBranch _ _ _).bind ?_
    intro _ last stands
    exact stands.skips_to ends

/-- The end of a block. -/
theorem Scene.Stands.turns_closed (stands : scene.Stands machine course (branch :: next :: branches))
    (ignored : branch.action.isIgnored = true) (ends : scene.store.lineEnd address = code)
    (here : scene.store.byte address = (Builtin.control .close).byte) :
    scene.Turns steps levels machine address course (next :: branches) code := by
  rw [← stands.action] at ignored
  have found := (Builtin.control .close).byte_spec.2.2.2.2.2.2
  rw [← here] at found
  refine .of_skip ignored fun deeper _ => ?_
  refine .get_bind ?_
  refine .byteAt_bind ?_
  rw [stands.store, stands.action]
  simp only [Expression.starting, found]
  have pops : Yields (Eval.onStack ScopeStack.popBranch) machine
      fun popped last => popped = true ∧ scene.Stands last course (next :: branches) :=
    stands.onStack fun stack bindings only => only.popBranch
  refine pops.bind ?_
  rintro _ last ⟨rfl, stands⟩
  exact stands.skips_to ends

/-- The arm without a condition is taken if no arm was. -/
theorem Scene.Stands.turns_otherwise_taken (stands : scene.Stands machine course (branch :: branches))
    (open_chain : branch.action = .ignoreSoft) (ends : scene.store.lineEnd address = code)
    (here : scene.store.byte address = (Builtin.control .otherwise).byte) :
    scene.Turns steps levels machine address course ({ branch with action := .run } :: branches) code := by
  have ignored : machine.memory.stack.action.isIgnored = true := by
    rw [stands.action, open_chain]
    rfl
  have found := (Builtin.control .otherwise).byte_spec.2.2.2.2.2.2
  rw [← here] at found
  refine .of_skip ignored fun deeper _ => ?_
  refine .get_bind ?_
  refine .byteAt_bind ?_
  rw [stands.store, stands.action, open_chain]
  simp only [Expression.starting, found]
  have takes : Yields (Eval.onStack fun stack => ((), stack.setAction .run)) machine
      fun _ after => scene.Stands after course ({ branch with action := .run } :: branches) :=
    stands.setAction .run
  refine takes.bind ?_
  intro _ last stands
  exact stands.skips_to ends

/-- The condition of an arm, with the block running for as long as it takes. -/
theorem Scene.Stands.yields_tryArm {formula : Formula} {value : Float32}
    (stands : scene.Stands machine course (branch :: branches)) (ready : machine.Ready)
    (has : scene.store.Has (address + 1) formula.text)
    (ends : Store.endsLine (scene.store.byte (address + 1 + formula.text.length)) = true)
    (apart : ∀ read ∈ formula.names, read ∉ scene.functions) (means : formula.meaning course.env = some value) :
    Yields (tryArm (innerOf steps levels) (.starting address)) machine fun expression after =>
      scene.Stands after course ({ branch with action := if isTrue value then .run else .ignoreSoft } :: branches) ∧
        expression.code = address + 1 + formula.text.length := by
  have runs := stands.setAction .run
  have ready := (ready.toSteady.follows_setAction .run).ready ready
  have evaluates : Yields (Eval.always (fun machine : Machine κ => { machine with
        memory := { machine.memory with stack := machine.memory.stack.setAction .ignoreSoft } })
      (evaluate steps levels (address + 1) Inner.statementCeiling false))
      { machine with memory := { machine.memory with stack := machine.memory.stack.setAction .run } }
      fun condition after => (condition.value = .number value ∧ condition.code = address + 1 + formula.text.length) ∧
        scene.Stands after course ({ branch with action := .ignoreSoft } :: branches) := by
    refine .always (fun _ => rfl) ?_
    rw [← runs.store] at has ends
    refine (formula.computes steps levels ready ?_ has ends (runs.reads apart) means (by decide)).mono ?_
    · rw [runs.action]
      rfl
    · rintro condition after ⟨number, code, same⟩
      exact ⟨⟨number, code⟩, (runs.undisturbed same).setAction .ignoreSoft⟩
  refine .bind_ran rfl ?_
  refine Yields.bind evaluates ?_
  rintro condition after ⟨⟨number, code⟩, stands⟩
  rw [number]
  dsimp only
  cases isTrue value with
  | true => exact ⟨stands.setAction .run, code⟩
  | false => exact ⟨stands, code⟩

/-- An arm with a condition is taken if it holds and no arm was taken. -/
theorem Scene.Stands.turns_otherwiseWhen_tried {formula : Formula} {value : Float32}
    (stands : scene.Stands machine course (branch :: branches)) (ready : machine.Ready)
    (open_chain : branch.action = .ignoreSoft)
    (has : scene.store.Has address ((Builtin.control .otherwiseWhen).byte :: formula.text))
    (ends : Store.endsLine (scene.store.byte (address + (formula.text.length + 1))) = true)
    (apart : ∀ read ∈ formula.names, read ∉ scene.functions) (means : formula.meaning course.env = some value) :
    scene.Turns steps levels machine address course
      ({ branch with action := if isTrue value then .run else .ignoreSoft } :: branches)
      (address + (formula.text.length + 1)) := by
  have behind : address + (formula.text.length + 1) = address + 1 + formula.text.length := by omega
  rw [behind] at ends ⊢
  obtain ⟨here, has⟩ := has
  have ignored : machine.memory.stack.action.isIgnored = true := by
    rw [stands.action, open_chain]
    rfl
  have found := (Builtin.control .otherwiseWhen).byte_spec.2.2.2.2.2.2
  rw [← here] at found
  refine .of_skip ignored fun deeper _ => ?_
  refine .get_bind ?_
  refine .byteAt_bind ?_
  rw [stands.store, stands.action, open_chain]
  simp only [Expression.starting, found]
  refine Yields.bind (stands.yields_tryArm ready has ends apart means) ?_
  rintro expression after ⟨stands, code⟩
  refine stands.skips_to ?_
  rw [code]
  -- The condition takes up the whole line.
  have none : scene.store.Has (address + 1 + formula.text.length) [] := trivial
  exact Store.lineEnd_eq none (by simp [Store.Plain]) ends

end PocketScript
