import PocketScript.Proofs.Flow.Statements

/-! # Lines that run

One lemma for each sort of line of structured code, for when statements are not
skipped.
-/

namespace PocketScript

open Eval (Yields Keeps)
open Machine (evaluate innerOf applyBuiltin readFunctionArguments control)

variable {κ : Type} [Console κ] {scene : Scene κ} {steps levels : Nat} {machine : Machine κ}
  {course course' : Course} {branch : Branch} {branches branches' : List Branch} {address code : Nat}

/-- The statement at an address leads to a point of the course, in these blocks,
    and on to another address. -/
def Scene.Turns (scene : Scene κ) (steps levels : Nat) (machine : Machine κ) (address : Nat) (course : Course)
    (branches : List Branch) (code : Nat) : Prop :=
  Yields (evaluate steps levels address Inner.statementCeiling true) machine fun expression after =>
    scene.Stands after course branches ∧ expression.code = code

/-- What a line does once what it starts with was evaluated. -/
theorem Scene.Turns.of_primary (running : machine.memory.stack.action.isIgnored = false)
    (primary : ∀ deeper, levels = deeper + 1 →
      Yields (Machine.readPrimary (innerOf steps deeper) (.starting address) true) machine fun expression after =>
        StopsAt Inner.statementCeiling (scene.store.byte code) ∧ scene.Stands after course' branches' ∧
          expression.code = code) :
    scene.Turns steps levels machine address course' branches' code := by
  refine Machine.yields_evaluate (fun deeper level => ?_) ?_
  · refine Machine.yields_frame running ((primary deeper level).mono ?_) ?_
    · rintro expression after ⟨stops, stands, rfl⟩
      rw [stands.store]
      exact ⟨stops, stands, rfl⟩
    · rintro expression after last same ⟨stands, here⟩
      exact ⟨stands.undisturbed same, here⟩
  · rintro expression after last same ⟨stands, here⟩
    exact ⟨stands.undisturbed same, here⟩

/-- A line of block structure, given what its arguments are. -/
theorem Scene.Stands.turns_control {function : Control} (accepts : List Value → Prop) (behind : Nat)
    (stands : scene.Stands machine course (branch :: branches)) (ready : machine.Ready)
    (running : branch.action.isIgnored = false) (here : scene.store.byte address = (Builtin.control function).byte)
    (stops : StopsAt Inner.statementCeiling (scene.store.byte code))
    (reads : ∀ deeper array tracked, Machine.Undisturbed machine tracked → tracked.Ready →
      Yields (readFunctionArguments (innerOf steps deeper) address array
        (Builtin.control function == .control .define)
        ((Builtin.control function).arity?.getD (scene.store.parameterCount address + 1)) (address + 1)) tracked
        fun result after => accepts result.1 ∧ result.2 = behind ∧ tracked.Undisturbed after)
    (runs : ∀ arguments after, accepts arguments → scene.Stands after course (branch :: branches) →
      Yields (control function (arguments.headD .missing) { Expression.starting address with code := behind }) after
        fun expression last => scene.Stands last course' branches' ∧ expression.code = code) :
    scene.Turns steps levels machine address course' branches' code := by
  have running : machine.memory.stack.action.isIgnored = false := by
    rw [stands.action]
    exact running
  refine .of_primary running fun deeper _ => ?_
  have here : machine.store.byte (Expression.starting address).start = (Builtin.control function).byte := by
    rw [stands.store]
    exact here
  unfold Yields
  rw [Machine.readPrimary_builtin here]
  refine Yields.get_bind ?_
  have count : machine.store.parameterCount (Expression.starting address).start + 1 =
      scene.store.parameterCount address + 1 := by
    rw [stands.store]
    rfl
  rw [count]
  refine Machine.yields_arguments accepts behind ready (reads deeper) fun arguments after accepted same => ?_
  exact (runs arguments after accepted (stands.undisturbed same)).mono fun expression last holds => ⟨stops, holds⟩

/-- A line of block structure that takes no argument. -/
theorem Scene.Stands.turns_bare {function : Control} (stands : scene.Stands machine course (branch :: branches))
    (ready : machine.Ready) (running : branch.action.isIgnored = false)
    (bare : (Builtin.control function).arity? = some 0)
    (here : scene.store.byte address = (Builtin.control function).byte)
    (stops : StopsAt Inner.statementCeiling (scene.store.byte code))
    (runs : ∀ after, scene.Stands after course (branch :: branches) →
      Yields (control function .missing { Expression.starting address with code := address + 1 }) after
        fun expression last => scene.Stands last course' branches' ∧ expression.code = code) :
    scene.Turns steps levels machine address course' branches' code := by
  refine stands.turns_control (· = []) (address + 1) ready running here stops (fun deeper array tracked _ _ => ?_) ?_
  · rw [bare]
    exact .pure ⟨rfl, rfl, .refl tracked⟩
  · rintro _ after rfl stands
    exact runs after stands

/-- A line of block structure with a condition. -/
theorem Scene.Stands.turns_condition {function : Control} {formula : Formula} {value : Float32}
    (stands : scene.Stands machine course (branch :: branches)) (ready : machine.Ready)
    (running : branch.action.isIgnored = false) (one : (Builtin.control function).arity? = some 1)
    (has : scene.store.Has address ((Builtin.control function).byte :: formula.text))
    (ends : Store.endsLine (scene.store.byte (address + (formula.text.length + 1))) = true)
    (apart : ∀ read ∈ formula.names, read ∉ scene.functions) (means : formula.meaning course.env = some value)
    (runs : ∀ after, scene.Stands after course (branch :: branches) →
      Yields (control function (.number value)
          { Expression.starting address with code := address + (formula.text.length + 1) }) after
        fun expression last => scene.Stands last course' branches' ∧
          expression.code = address + (formula.text.length + 1)) :
    scene.Turns steps levels machine address course' branches' (address + (formula.text.length + 1)) := by
  obtain ⟨here, has⟩ := has
  have definition : (Builtin.control function == .control .define) = false := by
    cases function <;> first | rfl | simp [Builtin.arity?] at one
  refine stands.turns_control (· = [.number value]) (address + (formula.text.length + 1)) ready running here
    (stopsAt_of_endsLine _ ends) (fun deeper array tracked same ready => ?_) ?_
  · rw [one, definition]
    exact (stands.undisturbed same).yields_formula ready running has ends apart means array
  · rintro _ after rfl stands
    exact runs after stands

theorem Scene.Stands.turns_whenTrue {formula : Formula} {value : Float32}
    (stands : scene.Stands machine course (branch :: branches)) (ready : machine.Ready)
    (running : branch.action.isIgnored = false)
    (has : scene.store.Has address ((Builtin.control .whenTrue).byte :: formula.text))
    (ends : Store.endsLine (scene.store.byte (address + (formula.text.length + 1))) = true)
    (apart : ∀ read ∈ formula.names, read ∉ scene.functions) (means : formula.meaning course.env = some value) :
    scene.Turns steps levels machine address course
      (⟨if isTrue value then .run else .ignoreSoft, 0⟩ :: branch :: branches)
      (address + (formula.text.length + 1)) := by
  refine stands.turns_condition ready running rfl has ends apart means fun after stands => ?_
  refine (stands.pushBranch _ _ _).bind ?_
  intro _ last stands
  refine .pure ⟨?_, rfl⟩
  cases holds : isTrue value with
  | false | true =>
      rw [holds] at stands
      exact stands

theorem Scene.Stands.turns_loop {formula : Formula} {value : Float32}
    (stands : scene.Stands machine course (branch :: branches)) (ready : machine.Ready)
    (running : branch.action.isIgnored = false)
    (has : scene.store.Has address ((Builtin.control .loop).byte :: formula.text))
    (ends : Store.endsLine (scene.store.byte (address + (formula.text.length + 1))) = true)
    (apart : ∀ read ∈ formula.names, read ∉ scene.functions) (means : formula.meaning course.env = some value) :
    scene.Turns steps levels machine address course
      ((if isTrue value then ⟨.loop, address⟩ else ⟨.ignoreHard, 0⟩) :: branch :: branches)
      (address + (formula.text.length + 1)) := by
  refine stands.turns_condition ready running rfl has ends apart means fun after stands => ?_
  refine (stands.pushBranch _ _ _).bind ?_
  intro _ last stands
  refine .pure ⟨?_, rfl⟩
  cases holds : isTrue value with
  | false | true =>
      rw [holds] at stands
      exact stands

/-- The rest of the chain is skipped. -/
theorem Scene.Stands.turns_setAction (stands : scene.Stands machine course (branch :: branches))
    (expression : Expression) :
    Yields (do
        Eval.onStack fun stack => ((), stack.setAction .ignoreHard)
        return expression) machine
      fun result after => scene.Stands after course ({ branch with action := .ignoreHard } :: branches) ∧
        result.code = expression.code := by
  have changes : Yields (Eval.onStack fun stack => ((), stack.setAction .ignoreHard)) machine
      fun _ after => scene.Stands after course ({ branch with action := .ignoreHard } :: branches) :=
    stands.setAction .ignoreHard
  refine changes.bind ?_
  intro _ after stands
  exact .pure ⟨stands, rfl⟩

/-- A condition behind the arm that was taken. -/
theorem Scene.Stands.turns_otherwiseWhen {formula : Formula} {value : Float32}
    (stands : scene.Stands machine course (branch :: branches)) (ready : machine.Ready)
    (running : branch.action.isIgnored = false)
    (has : scene.store.Has address ((Builtin.control .otherwiseWhen).byte :: formula.text))
    (ends : Store.endsLine (scene.store.byte (address + (formula.text.length + 1))) = true)
    (apart : ∀ read ∈ formula.names, read ∉ scene.functions) (means : formula.meaning course.env = some value) :
    scene.Turns steps levels machine address course ({ branch with action := .ignoreHard } :: branches)
      (address + (formula.text.length + 1)) := by
  refine stands.turns_condition ready running rfl has ends apart means fun after stands => ?_
  exact stands.turns_setAction _

theorem Scene.Stands.turns_otherwise (stands : scene.Stands machine course (branch :: branches))
    (ready : machine.Ready) (running : branch.action.isIgnored = false)
    (here : scene.store.byte address = (Builtin.control .otherwise).byte)
    (ends : Store.endsLine (scene.store.byte (address + 1)) = true) :
    scene.Turns steps levels machine address course ({ branch with action := .ignoreHard } :: branches)
      (address + 1) := by
  refine stands.turns_bare ready running rfl here (stopsAt_of_endsLine _ ends) fun after stands => ?_
  exact stands.turns_setAction _

/-- The end of a block that ran. The end of a loop goes back to its header. -/
theorem Scene.Stands.turns_close {next : Branch}
    (stands : scene.Stands machine course (branch :: next :: branches)) (ready : machine.Ready)
    (running : branch.action.isIgnored = false)
    (here : scene.store.byte address = (Builtin.control .close).byte)
    (goes : code = if branch.action = .loop then branch.address else address + 1)
    (stops : StopsAt Inner.statementCeiling (scene.store.byte code)) :
    scene.Turns steps levels machine address course (next :: branches) code := by
  refine stands.turns_bare ready running rfl here stops fun after stands => ?_
  refine .get_bind ?_
  have pops : Yields (Eval.onStack ScopeStack.popBranch) after
      fun popped last => popped = true ∧ scene.Stands last course (next :: branches) :=
    stands.onStack fun stack bindings only => only.popBranch
  refine pops.bind ?_
  rintro _ last ⟨rfl, last_stands⟩
  rw [stands.branch?, if_pos rfl]
  obtain ⟨action, header⟩ := branch
  cases action with
  | loop => exact .pure ⟨last_stands, by rw [goes, if_pos rfl]⟩
  | run => exact .pure ⟨last_stands, by rw [goes, if_neg (by simp)]⟩
  | ignoreSoft | ignoreHard => simp [BranchAction.isIgnored] at running

theorem Scene.Stands.turns_leaveLoop (stands : scene.Stands machine course (branch :: branches))
    (ready : machine.Ready) (running : branch.action.isIgnored = false)
    (here : scene.store.byte address = (Builtin.control .leaveLoop).byte)
    (ends : Store.endsLine (scene.store.byte (address + 1)) = true)
    (inside : (Scope.breakLoop (branch :: branches)).2 = true) :
    scene.Turns steps levels machine address course (Scope.breakLoop (branch :: branches)).1 (address + 1) := by
  refine stands.turns_bare ready running rfl here (stopsAt_of_endsLine _ ends) fun after stands => ?_
  have leaves : Yields (Eval.onStack ScopeStack.breakLoop) after
      fun left last => left = (Scope.breakLoop (branch :: branches)).2 ∧
        scene.Stands last course (Scope.breakLoop (branch :: branches)).1 :=
    stands.onStack fun stack bindings only => only.breakLoop
  refine leaves.bind ?_
  rintro _ last ⟨rfl, stands⟩
  rw [if_pos inside]
  exact .pure ⟨stands, rfl⟩

theorem Scene.Stands.turns_nextRound {header : Nat} (stands : scene.Stands machine course (branch :: branches))
    (ready : machine.Ready) (running : branch.action.isIgnored = false)
    (here : scene.store.byte address = (Builtin.control .nextRound).byte)
    (stops : StopsAt Inner.statementCeiling (scene.store.byte header))
    (inside : (Scope.continueLoop (branch :: branches)).2 = some header) :
    scene.Turns steps levels machine address course (Scope.continueLoop (branch :: branches)).1 header := by
  refine stands.turns_bare ready running rfl here stops fun after stands => ?_
  have goes : Yields (Eval.onStack ScopeStack.continueLoop) after
      fun found last => found = (Scope.continueLoop (branch :: branches)).2 ∧
        scene.Stands last course (Scope.continueLoop (branch :: branches)).1 :=
    stands.onStack fun stack bindings only => only.continueLoop
  refine goes.bind ?_
  rintro _ last ⟨rfl, stands⟩
  rw [inside]
  exact .pure ⟨stands, rfl⟩

end PocketScript
