import PocketScript.Machine.Block
import PocketScript.Proofs.Machine.Literals

/-! # Blocks keep memory sound -/

namespace PocketScript

namespace Machine

open Eval (Keeps KeepsFrom)

variable {κ : Type} {machine : Machine κ} {inner : Inner κ} {expression : Expression} {value : Value}

/-- What happens to statements is changed. -/
theorem Steady.follows_setAction (steady : machine.Steady) (action : BranchAction) :
    machine.Follows { machine with
      memory := { machine.memory with stack := machine.memory.stack.setAction action } } :=
  .ofEvolves steady.harmless (.sameVariables steady.sound (ScopeStack.sameVariables_modifyBranches _ _))

theorem keeps_tryArm (inside : inner.Sound) (ready : machine.Ready) (bare : expression.Bare) :
    Keeps (tryArm inner expression) machine fun result _ => result.Bare := by
  have runs : ∀ {machine : Machine κ}, machine.Steady → Keeps (modify fun machine : Machine κ => { machine with
      memory := { machine.memory with stack := machine.memory.stack.setAction .run } }) machine
      fun _ _ => True := fun steady => ⟨steady.follows_setAction .run, trivial⟩
  refine (runs ready.toSteady).bind ?_
  intro _ running follows _
  refine Keeps.bind (?_ : KeepsFrom running _ running fun _ _ => True) ?_
  · exact .always (inside.argument (follows.ready ready) _) (fun _ => rfl) (fun _ => rfl)
      (fun _ follows' => follows'.trans (follows'.steady.follows_setAction .ignoreSoft)) fun _ _ _ _ => trivial
  intro condition skipped follows' _
  have steady := follows'.steady
  split
  · exact .raise steady _
  · split
    · refine (runs steady).bind ?_
      intro _ after follows'' _
      exact .pure follows''.steady ⟨bare.value, bare.destination⟩
    · exact .pure steady ⟨bare.value, bare.destination⟩
  · exact .raise steady _

theorem keeps_skip (inside : inner.Sound) (ready : machine.Ready) (bare : expression.Bare) :
    Keeps (skip inner expression) machine fun result _ => result.Bare := by
  have steady := ready.toSteady
  have finish : ∀ {after : Machine κ} {result : Expression}, after.Steady → result.Bare →
      Keeps (do return { result with code := (← get).store.lineEnd result.code }) after
        fun result _ => result.Bare :=
    fun steady bare => .get_bind (.pure steady ⟨bare.value, bare.destination⟩)
  refine .get_bind (.byteAt_bind ?_)
  dsimp only
  split
  · refine (Keeps.onMemory steady (steady.sound.pushBranch _ _)).bind ?_
    intro _ after follows _
    exact finish follows.steady bare
  · refine (Keeps.onMemory steady (steady.sound.pushBranch _ _)).bind ?_
    intro _ after follows _
    exact finish follows.steady bare
  · refine (Keeps.onMemory steady (steady.sound.pushBranch _ _)).bind ?_
    intro _ after follows _
    exact finish follows.steady bare
  · split
    · refine (keeps_tryArm inside ready bare).bind ?_
      intro result after follows bare
      exact finish follows.steady bare
    · exact finish steady bare
  · split
    · refine (Keeps.onStack steady (ScopeStack.sameVariables_modifyBranches _ _)).bind ?_
      intro _ after follows _
      exact finish follows.steady bare
    · exact finish steady bare
  · refine (Keeps.onStack steady (ScopeStack.sameVariables_popBranch _)).bind ?_
    intro closed after follows _
    split
    · exact finish follows.steady bare
    · exact .raise follows.steady _
  · exact finish steady bare

theorem keeps_openBlock (steady : machine.Steady) (start address : Address) (condition : Value)
    (action : Bool → BranchAction) :
    Keeps (openBlock start condition action address) machine fun _ _ => True := by
  unfold openBlock
  split
  · exact (Keeps.onMemory steady (steady.sound.pushBranch _ _)).mono fun _ _ _ _ => trivial
  · exact .raise steady _

theorem keeps_closeBlock (steady : machine.Steady) (bare : expression.Bare) :
    Keeps (closeBlock expression) machine fun result _ => result.Bare := by
  refine .get_bind ?_
  refine (Keeps.onStack steady (ScopeStack.sameVariables_popBranch _)).bind ?_
  intro closed after follows _
  split
  · split
    · exact .pure follows.steady ⟨bare.value, bare.destination⟩
    · exact .pure follows.steady bare
  · refine .get_bind ?_
    split
    · exact .raise follows.steady _
    · exact .answer follows.steady (Memory.live_missing _)

theorem keeps_define (steady : machine.Steady) (bare : expression.Bare) :
    Keeps (define expression) machine fun result _ => result.Bare := by
  have finish : ∀ {named : Machine κ} {place : VariableRef}, named.Steady →
      (named.memory.stack.variableAt? place).isSome →
      Keeps (do
        (Destination.variable place).write .kept (.function expression.start) expression.start
        Eval.onMemory expression.start (Memory.pushBranch .ignoreHard 0)
        return expression) named fun result _ => result.Bare := by
    intro named place steady there
    have held : (Destination.variable place).Held .kept named.memory := there
    refine (Destination.keeps_write steady held (Memory.live_function _ _) _).bind ?_
    intro _ bound follows _
    refine (Keeps.onMemory follows.steady (follows.steady.sound.pushBranch _ _)).bind ?_
    intro _ after follows' _
    exact .pure follows'.steady bare
  refine (keeps_readName steady _).bind ?_
  rintro ⟨name, code⟩ _ - rfl
  refine .get_bind ?_
  dsimp only
  split
  · next place found => exact finish steady (ScopeStack.isSome_of_find found)
  · refine (Keeps.onMemory steady (steady.sound.createVariable (Memory.live_missing _) name)).bind ?_
    rintro place named follows ⟨-, there⟩
    exact finish follows.steady there

theorem keeps_control (function : Control) (steady : machine.Steady) (live : machine.memory.Live value)
    (bare : expression.Bare) :
    Keeps (control function value expression) machine fun result _ => result.Bare := by
  cases function with
  | leave => exact .answer steady trivial
  | answer => exact .answer steady live
  | quit => exact .quit steady
  | whenTrue | loop =>
      refine (keeps_openBlock steady _ _ _ _).bind ?_
      intro _ after follows _
      exact .pure follows.steady bare
  | otherwiseWhen | otherwise =>
      refine (Keeps.onStack steady (ScopeStack.sameVariables_modifyBranches _ _)).bind ?_
      intro _ after follows _
      exact .pure follows.steady bare
  | leaveLoop =>
      refine (Keeps.onStack steady (ScopeStack.sameVariables_breakLoop _)).bind ?_
      intro found after follows _
      split
      · exact .pure follows.steady bare
      · exact .raise follows.steady _
  | nextRound =>
      refine (Keeps.onStack steady (ScopeStack.sameVariables_continueLoop _)).bind ?_
      intro address after follows _
      split
      · exact .pure follows.steady ⟨bare.value, bare.destination⟩
      · exact .raise follows.steady _
  | close => exact keeps_closeBlock steady bare
  | define => exact keeps_define steady bare

end Machine

end PocketScript
