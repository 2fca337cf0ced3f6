import PocketScript.Proofs.Flow.Program

/-! # Where a program stands

How the state of a machine that runs structured code is related to the course of
that code: its variables and what was shown are the same, and the open blocks are
the given ones. Nothing is said of the heap, the roots or the counts.
-/

namespace PocketScript

/-- A program in a store, the names of its functions, and a console on which the
    user never stops. -/
structure Scene (κ : Type) [Console κ] where
  store : Store
  functions : List String
  /-- The states of the console in which the user goes on and on. -/
  waits : κ → Prop
  /-- What was shown so far. -/
  shown : κ → List String
  print : ∀ console text, waits console → (Console.print console text).1 = true ∧
    waits (Console.print console text).2 ∧ shown (Console.print console text).2 = shown console ++ [text]
  escapes : ∀ console : κ, waits console → (Console.escapes console).1 = false ∧
    waits (Console.escapes console).2 ∧ shown (Console.escapes console).2 = shown console
  resume : ∀ console : κ, waits console → waits (Console.resume console) ∧
    shown (Console.resume console) = shown console

/-- A machine stands at a point of the course of its program, in these blocks. -/
structure Scene.Stands {κ : Type} [Console κ] (scene : Scene κ) (machine : Machine κ) (course : Course)
    (branches : List Branch) : Prop where
  store : machine.store = scene.store
  fault : machine.fault? = none
  waits : scene.waits machine.console
  shown : scene.shown machine.console = course.shown
  scope : ∃ bindings, machine.memory.stack.Global bindings branches ∧
    ∀ name, name ∉ scene.functions → latest? bindings name = (course.env name).map Value.number

namespace Scene.Stands

open Eval (Yields Keeps)

variable {κ α : Type} [Console κ] {scene : Scene κ} {machine after : Machine κ} {course : Course}
  {branch : Branch} {branches branches' : List Branch} {address start : Address}

theorem undisturbed (stands : scene.Stands machine course branches) (same : machine.Undisturbed after) :
    scene.Stands after course branches := by
  obtain ⟨store, fault, waits, shown, bindings, only, values⟩ := stands
  refine ⟨same.store.trans store, same.fault.trans fault, ?_, ?_, bindings, ?_, values⟩
  · rw [same.console]
    exact waits
  · rw [same.console]
    exact shown
  · rw [same.stack]
    exact only

/-- Other blocks of the same scope. -/
theorem blocks (stands : scene.Stands machine course branches) {stack : ScopeStack}
    (only : ∀ bindings, machine.memory.stack.Global bindings branches → stack.Global bindings branches') :
    scene.Stands { machine with memory := { machine.memory with stack } } course branches' := by
  obtain ⟨store, fault, waits, shown, bindings, here, values⟩ := stands
  exact ⟨store, fault, waits, shown, bindings, only bindings here, values⟩

theorem reads (stands : scene.Stands machine course branches) {names : List String}
    (apart : ∀ read ∈ names, read ∉ scene.functions) : machine.Reads names course.env := by
  obtain ⟨-, -, -, -, bindings, only, values⟩ := stands
  intro name mem
  rw [only.value?]
  exact values name (apart name mem)

theorem action (stands : scene.Stands machine course (branch :: branches)) :
    machine.memory.stack.action = branch.action := by
  obtain ⟨-, -, -, -, bindings, only, -⟩ := stands
  exact only.action

theorem branch? (stands : scene.Stands machine course branches) :
    machine.memory.stack.branch? = branches.head? := by
  obtain ⟨-, -, -, -, bindings, only, -⟩ := stands
  exact only.branch?

theorem pushBranch (stands : scene.Stands machine course branches) (action : BranchAction)
    (address start : Address) :
    Yields (Eval.onMemory start (Memory.pushBranch action address)) machine
      fun _ after => scene.Stands after course (⟨action, address⟩ :: branches) := by
  obtain ⟨store, fault, waits, shown, bindings, only, values⟩ := stands
  refine .onStack ?_
  rcases only.pushBranch action address machine.memory.heap.boundary with ⟨opened, ran, opens⟩ | ran
  · rw [ran]
    exact .inl ⟨(), opened, rfl, store, fault, waits, shown, bindings, opens, values⟩
  · rw [ran]
    exact .inr rfl

theorem onStack (stands : scene.Stands machine course branches) {operation : ScopeStack → α × ScopeStack}
    {done : α → Prop} (does : ∀ stack bindings, stack.Global bindings branches →
      done (operation stack).1 ∧ (operation stack).2.Global bindings branches') :
    Yields (Eval.onStack operation) machine
      fun result after => done result ∧ scene.Stands after course branches' := by
  obtain ⟨-, -, -, -, bindings, only, -⟩ := id stands
  exact ⟨(does _ bindings only).1, stands.blocks fun bindings only => (does _ bindings only).2⟩

theorem setAction (stands : scene.Stands machine course (branch :: branches)) (action : BranchAction) :
    scene.Stands { machine with
      memory := { machine.memory with stack := machine.memory.stack.setAction action } } course
      ({ branch with action } :: branches) :=
  stands.blocks fun _ only => only.setAction action

theorem betweenStatements (stands : scene.Stands machine course branches) :
    Yields Machine.betweenStatements machine fun _ after => scene.Stands after course branches := by
  have asks : ∀ {machine : Machine κ}, scene.Stands machine course branches →
      Yields (do if ← Eval.ask Console.escapes then throw .quit) machine
        fun _ after => scene.Stands after course branches := by
    intro machine stands
    obtain ⟨goes, waits, shown⟩ := scene.escapes machine.console stands.waits
    refine Yields.bind (?_ : Yields _ machine fun escapes after =>
      escapes = false ∧ scene.Stands after course branches) ?_
    · exact ⟨goes, stands.store, stands.fault, waits, shown.trans stands.shown, stands.scope⟩
    · rintro escapes after ⟨rfl, stands⟩
      exact .pure stands
  refine Yields.bind (?_ : Yields _ machine fun _ after => scene.Stands after course branches) ?_
  · exact ⟨stands.store, stands.fault, stands.waits, stands.shown, stands.scope⟩
  intro _ counted stands
  refine .get_bind ?_
  split
  · refine Yields.bind (?_ : Yields _ counted fun _ after => scene.Stands after course branches) ?_
    · exact ⟨stands.store, stands.fault, stands.waits, stands.shown, stands.scope⟩
    · exact fun _ after stands => asks stands
  · exact asks stands

end Scene.Stands

end PocketScript
