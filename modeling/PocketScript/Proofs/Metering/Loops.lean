import PocketScript.Proofs.Copies.Leading
import PocketScript.Proofs.Flow.Idling

/-! # Scopes without loops

A loop is opened by opening a block that is one. Nothing else that is done to scopes
or to memory makes a loop, and without one there is no header to go back to.
-/

namespace PocketScript

variable {α : Type}

/-- No open block is a loop, in whatever scope. -/
def ScopeStack.Loopless (stack : ScopeStack) : Prop :=
  ∀ scope ∈ stack.scopes, ∀ branch ∈ scope.branches, branch.action ≠ .loop

namespace ScopeStack.Loopless

variable {stack after : ScopeStack} {scope : Scope} {ceiling : Nat}

/-- No header of an open loop is known, since there is none. -/
theorem innermost (loopless : stack.Loopless) (here : stack.innermost? = some scope) :
    Branch.LeadTo (fun _ => False) scope.branches :=
  loopless scope (Array.mem_of_back? here)

theorem popScope (loopless : stack.Loopless) : stack.popScope.Loopless :=
  fun scope mem => loopless scope (LeadsTo.mem_of_mem_pop mem)

theorem setInnermost (loopless : stack.Loopless) (none : Branch.LeadTo (fun _ => False) scope.branches) :
    (stack.setInnermost scope).Loopless := by
  intro other mem
  obtain old | rfl := Array.mem_push.mp mem
  · exact loopless.popScope other old
  · exact none

theorem pushScope {opened : Nat} (loopless : stack.Loopless)
    (pushed : stack.pushScope ceiling = .ok (opened, after)) : after.Loopless := by
  unfold ScopeStack.pushScope at pushed
  dsimp only at pushed
  split at pushed
  · cases pushed
  · obtain ⟨-, rfl⟩ := Prod.mk.inj (Except.ok.inj pushed)
    intro scope mem
    obtain old | rfl := Array.mem_push.mp mem
    · exact loopless scope old
    · exact nofun

theorem createVariable {name : String} {value : Value} {place : VariableRef} (loopless : stack.Loopless)
    (created : stack.createVariable name value ceiling = .ok (place, after)) : after.Loopless := by
  unfold ScopeStack.createVariable at created
  split at created
  · cases created
  · next scope here =>
    dsimp only at created
    split at created
    · cases created
    · obtain ⟨-, rfl⟩ := Prod.mk.inj (Except.ok.inj created)
      have none := loopless.innermost here
      exact loopless.setInnermost none

theorem setVariable (loopless : stack.Loopless) (place : VariableRef) (value : Value) :
    (stack.setVariable place value).Loopless := by
  intro scope mem
  obtain ⟨index, here⟩ := Array.getElem?_of_mem mem
  rw [ScopeStack.setVariable, Array.getElem?_modify] at here
  split at here
  · obtain ⟨before, there, rfl⟩ := Option.map_eq_some_iff.mp here
    exact loopless before (Array.mem_of_getElem? there)
  · exact loopless scope (Array.mem_of_getElem? here)

theorem modifyBranches (loopless : stack.Loopless) {change : List Branch → List Branch}
    (changed : ∀ branches, Branch.LeadTo (fun _ => False) branches →
      Branch.LeadTo (fun _ => False) (change branches)) : (stack.modifyBranches change).Loopless := by
  unfold ScopeStack.modifyBranches
  split
  · next scope here => exact loopless.setInnermost (changed _ (loopless.innermost here))
  · exact loopless

theorem setAction (loopless : stack.Loopless) {action : BranchAction} (still : action ≠ .loop) :
    (stack.setAction action).Loopless := by
  refine loopless.modifyBranches fun branches none => ?_
  cases branches with
  | nil => exact none
  | cons branch outer => exact none.tail.cons still

theorem pushBranch {action : BranchAction} {address : Address} (loopless : stack.Loopless) (still : action ≠ .loop)
    (pushed : stack.pushBranch action address ceiling = .ok after) : after.Loopless := by
  unfold ScopeStack.pushBranch at pushed
  split at pushed
  · cases pushed
  · next scope here =>
    have opened : Branch.LeadTo (fun _ => False) (⟨action, address⟩ :: scope.branches) :=
      (loopless.innermost here).cons still
    dsimp only at pushed
    split at pushed
    · rw [← Except.ok.inj pushed]
      exact loopless.setInnermost opened
    · split at pushed
      · cases pushed
      · rw [← Except.ok.inj pushed]
        exact loopless.setInnermost opened

theorem popBranch (loopless : stack.Loopless) : stack.popBranch.2.Loopless := by
  unfold ScopeStack.popBranch
  split
  · next scope here =>
    split
    · next branch next outer branches =>
      exact loopless.setInnermost (branches ▸ loopless.innermost here : Branch.LeadTo _ (_ :: _ :: _)).tail
    · exact loopless
  · exact loopless

theorem breakLoop (loopless : stack.Loopless) : stack.breakLoop.2.Loopless := by
  unfold ScopeStack.breakLoop
  split
  · next scope here => exact loopless.setInnermost (loopless.innermost here).breakLoop
  · exact loopless

/-- Without a loop there is no header to go back to. -/
theorem continueLoop (loopless : stack.Loopless) :
    stack.continueLoop.1 = none ∧ stack.continueLoop.2.Loopless := by
  unfold ScopeStack.continueLoop
  split
  · next scope here =>
    have none := (loopless.innermost here).continueLoop
    exact ⟨Option.eq_none_iff_forall_ne_some.mpr fun address => none.2 address, loopless.setInnermost none.1⟩
  · exact ⟨rfl, loopless⟩

theorem action (loopless : stack.Loopless) : stack.action ≠ .loop := by
  unfold ScopeStack.action
  split
  · next branch here =>
    obtain ⟨scope, outer, inner⟩ := Option.bind_eq_some_iff.mp here
    exact loopless.innermost outer branch (List.mem_of_mem_head? inner)
  · decide

end ScopeStack.Loopless

namespace Memory

open MemoryM

/-- Memory without an open loop. -/
def Loopless (memory : Memory) : Prop :=
  memory.stack.Loopless

theorem loopless_onHeap (operation : Heap → (floor : Nat) → Except MemoryError (α × Heap)) :
    Keeps Loopless (onHeap operation) :=
  fun _ loopless => .onHeap (fun _ _ _ => loopless) fun _ _ => loopless

theorem loopless_onStack {operation : ScopeStack → (ceiling : Nat) → Except MemoryError (α × ScopeStack)}
    (keeps : ∀ stack ceiling result after, stack.Loopless → operation stack ceiling = .ok (result, after) →
      after.Loopless) : Keeps Loopless (onStack operation) :=
  fun _ loopless => .onStack (fun _ _ ran => keeps _ _ _ _ loopless ran) fun _ _ => loopless

/-- Strings and lists are no blocks. -/
theorem stable_loopless : Stable Loopless where
  allocate _ _ := loopless_onHeap _
  resize _ _ := loopless_onHeap _
  setTarget _ _ := .modify fun _ loopless => loopless
  setPayload _ _ := by
    refine .modify fun memory loopless => ?_
    split
    · exact loopless
    · exact loopless

@[grind ←]
theorem loopless_look (view : Memory → Except MemoryError α) : Keeps Loopless (look view) :=
  .look view

@[grind ←]
theorem loopless_createString (bytes : List UInt8) : Keeps Loopless (createString bytes) :=
  Stable.createSequence stable_loopless _ _

@[grind ←]
theorem loopless_createList (values : List Value) : Keeps Loopless (createList values) :=
  Stable.createSequence stable_loopless _ _

@[grind ←]
theorem loopless_setByte (cell : Handle) (index : Nat) (byte : UInt8) : Keeps Loopless (setByte cell index byte) :=
  Stable.setByte stable_loopless cell index byte

@[grind ←]
theorem loopless_setElement (cell : Handle) (index : Nat) (value : Value) :
    Keeps Loopless (setElement cell index value) :=
  Stable.setElement stable_loopless cell index value

@[grind ←]
theorem loopless_insertElement (sequence : Value) (index : Int) (element : Value) :
    Keeps Loopless (insertElement sequence index element) :=
  Stable.insertElement stable_loopless sequence index element

@[grind ←]
theorem loopless_insertSequence (sequence : Value) (index : Int) (other : Value) :
    Keeps Loopless (insertSequence sequence index other) :=
  Stable.insertSequence stable_loopless sequence index other

@[grind ←]
theorem loopless_removeSlice (sequence : Value) (start finish : Int) :
    Keeps Loopless (removeSlice sequence start finish) :=
  Stable.removeSlice stable_loopless sequence start finish

@[grind ←]
theorem loopless_copySlice (sequence : Value) (start finish : Int) :
    Keeps Loopless (copySlice sequence start finish) :=
  Stable.copySlice stable_loopless sequence start finish

@[grind ←]
theorem loopless_copySequence (sequence : Value) : Keeps Loopless (copySequence sequence) :=
  Stable.copySequence stable_loopless sequence

@[grind ←]
theorem loopless_concatenate (left right : Handle) : Keeps Loopless (concatenate left right) :=
  Stable.concatenate stable_loopless left right

@[grind ←]
theorem loopless_setVariable (place : VariableRef) (value : Value) : Keeps Loopless (setVariable place value) := by
  intro memory loopless
  unfold Ends setVariable
  cases memory.stack.variableAt? place with
  | none => exact loopless
  | some _ => exact ScopeStack.Loopless.setVariable loopless place value

@[grind ←]
theorem loopless_createVariable (name : String) (value : Value) : Keeps Loopless (createVariable name value) :=
  loopless_onStack fun _ _ _ _ loopless created => loopless.createVariable created

@[grind ←]
theorem loopless_pushScope : Keeps Loopless pushScope :=
  loopless_onStack fun _ _ _ _ loopless pushed => loopless.pushScope pushed

@[grind ←]
theorem loopless_pushBranch {action : BranchAction} (still : action ≠ .loop) (address : Address) :
    Keeps Loopless (pushBranch action address) :=
  loopless_onStack fun _ _ _ _ loopless pushed => loopless.pushBranch still (ScopeStack.pushed_of_map pushed)

end Memory

end PocketScript
