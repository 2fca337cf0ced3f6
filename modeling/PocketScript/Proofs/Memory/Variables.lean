import PocketScript.Proofs.Memory.Safety

/-! # Variables in sound memory

What operations on scopes do to the variables at places, and that they keep
memory sound as long as what is stored is live. Opening, closing and changing
blocks touches no variable.
-/

namespace PocketScript

namespace ScopeStack

variable {stack other : ScopeStack} {scope innermost : Scope} {place : VariableRef}

/-- Only the variables of each scope matter. -/
theorem variableAt?_congr
    (same : ∀ index : Nat, other.scopes[index]?.map (·.bindings) = stack.scopes[index]?.map (·.bindings))
    (place : VariableRef) : other.variableAt? place = stack.variableAt? place := by
  have bindings : ∀ stack : ScopeStack, stack.variableAt? place =
      (stack.scopes[place.scope]?.map (·.bindings)).bind (·[place.index]?) := by
    intro stack
    rw [variableAt?]
    cases stack.scopes[place.scope]? <;> rfl
  rw [bindings, bindings, same]

theorem size_setInnermost (here : stack.innermost? = some innermost) (scope : Scope) :
    (stack.setInnermost scope).scopes.size = stack.scopes.size := by
  have := size_of_innermost here
  simp only [setInnermost, Array.size_push, Array.size_pop]
  omega

/-- The innermost scope may change as long as its variables do not. -/
theorem bindings_setInnermost (here : stack.innermost? = some innermost)
    (same : scope.bindings = innermost.bindings) (index : Nat) :
    (stack.setInnermost scope).scopes[index]?.map (·.bindings) = stack.scopes[index]?.map (·.bindings) := by
  rw [getElem?_setInnermost here]
  split
  · next last =>
    have : stack.scopes[index]? = some innermost := by
      rw [← here, innermost?_eq, ← last, Nat.add_sub_cancel]
    rw [this, Option.map_some, Option.map_some, same]
  · rfl

/-- The same variables in as many scopes. -/
structure SameVariables (stack other : ScopeStack) : Prop where
  depth : other.scopes.size = stack.scopes.size
  variableAt? : ∀ place, other.variableAt? place = stack.variableAt? place

theorem SameVariables.refl (stack : ScopeStack) : stack.SameVariables stack :=
  ⟨rfl, fun _ => rfl⟩

theorem sameVariables_setInnermost (here : stack.innermost? = some innermost)
    (same : scope.bindings = innermost.bindings) : stack.SameVariables (stack.setInnermost scope) :=
  ⟨size_setInnermost here scope, variableAt?_congr (bindings_setInnermost here same)⟩

theorem sameVariables_modifyBranches (stack : ScopeStack) (change : List Branch → List Branch) :
    stack.SameVariables (stack.modifyBranches change) := by
  rw [modifyBranches]
  split
  · next innermost here => exact sameVariables_setInnermost here rfl
  · exact .refl stack

theorem sameVariables_popBranch (stack : ScopeStack) : stack.SameVariables stack.popBranch.2 := by
  rw [popBranch]
  split
  · next innermost here =>
    split
    · exact sameVariables_setInnermost here rfl
    · exact .refl stack
  · exact .refl stack

theorem sameVariables_breakLoop (stack : ScopeStack) : stack.SameVariables stack.breakLoop.2 := by
  rw [breakLoop]
  split
  · next innermost here => exact sameVariables_setInnermost here rfl
  · exact .refl stack

theorem sameVariables_continueLoop (stack : ScopeStack) : stack.SameVariables stack.continueLoop.2 := by
  rw [continueLoop]
  split
  · next innermost here => exact sameVariables_setInnermost here rfl
  · exact .refl stack

theorem sameVariables_pushBranch {action : BranchAction} {address : Address} {ceiling : Nat}
    (pushed : stack.pushBranch action address ceiling = .ok other) : stack.SameVariables other := by
  cases here : stack.innermost? with
  | none => simp [pushBranch, here] at pushed
  | some innermost =>
      simp only [pushBranch, here] at pushed
      split at pushed
      · obtain rfl := Except.ok.inj pushed
        exact sameVariables_setInnermost here rfl
      · split at pushed
        · simp at pushed
        · obtain rfl := Except.ok.inj pushed
          exact sameVariables_setInnermost here rfl

/-- A new variable is at the place that is returned; the others are where they
    were. -/
theorem variableAt?_createVariable {name : String} {value : Value} {ceiling : Nat}
    (created : stack.createVariable name value ceiling = .ok (place, other)) :
    other.scopes.size = stack.scopes.size ∧ stack.variableAt? place = none ∧
      ∀ found, other.variableAt? found =
        if found = place then some ⟨name, value⟩ else stack.variableAt? found := by
  cases here : stack.innermost? with
  | none => simp [createVariable, here] at created
  | some innermost =>
      simp only [createVariable, here] at created
      split at created
      · simp at created
      · simp only [Except.ok.injEq, Prod.mk.injEq] at created
        obtain ⟨rfl, rfl⟩ := created
        have last : stack.scopes[stack.scopes.size - 1]? = some innermost := by
          rw [← innermost?_eq, here]
        have some_scope := size_of_innermost here
        refine ⟨size_setInnermost here _, ?_, fun found => ?_⟩
        · simp [variableAt?, last]
        · simp only [variableAt?, getElem?_setInnermost here]
          by_cases in_last : found.scope + 1 = stack.scopes.size
          · have scope : found.scope = stack.scopes.size - 1 := by omega
            rw [if_pos in_last, scope, last, Option.bind_some, Option.bind_some, Array.getElem?_push]
            obtain ⟨foundScope, foundIndex⟩ := found
            simp only at scope
            simp [scope]
          · rw [if_neg in_last]
            have different : found ≠ ⟨stack.scopes.size - 1, innermost.bindings.size⟩ := by
              rintro rfl
              simp only at in_last
              omega
            rw [if_neg different]

/-- Storing a value in the variable at a place. -/
theorem variableAt?_setVariable (stack : ScopeStack) (place : VariableRef) (value : Value)
    (found : VariableRef) : (stack.setVariable place value).variableAt? found =
      if found = place then (stack.variableAt? found).map ({ · with value })
      else stack.variableAt? found := by
  obtain ⟨scope, index⟩ := place
  obtain ⟨foundScope, foundIndex⟩ := found
  simp only [variableAt?, setVariable, Array.getElem?_modify, VariableRef.mk.injEq]
  by_cases same : scope = foundScope
  · rw [if_pos same]
    cases stack.scopes[foundScope]? with
    | none => simp
    | some held =>
        by_cases here : index = foundIndex
        · simp [same, here, Array.getElem?_modify]
        · have elsewhere : ¬ foundIndex = index := fun h => here h.symm
          simp [here, elsewhere, Array.getElem?_modify]
  · have elsewhere : ¬ foundScope = scope := fun h => same h.symm
    simp [same, elsewhere]

theorem size_setVariable (stack : ScopeStack) (place : VariableRef) (value : Value) :
    (stack.setVariable place value).scopes.size = stack.scopes.size := by
  simp [setVariable]

theorem isSome_of_findBelow {name : String} {count index : Nat}
    (found : scope.findBelow name count = some index) : (scope.bindings[index]?).isSome := by
  induction count with
  | zero => simp [Scope.findBelow] at found
  | succ count ih =>
      rw [Scope.findBelow] at found
      split at found
      · next here =>
        obtain rfl := Option.some.inj found
        cases at_count : scope.bindings[count]? with
        | none => simp [at_count] at here
        | some binding => rfl
      · exact ih found

/-- A name means a variable that is there. -/
theorem isSome_of_find {name : String} (found : stack.find? name = some place) :
    (stack.variableAt? place).isSome := by
  have in_scope : ∀ index, (stack.scopes[index]?.bind (·.find? name)).map (VariableRef.mk index) = some place →
      (stack.variableAt? place).isSome := by
    intro index found
    obtain ⟨position, at_position, rfl⟩ := Option.map_eq_some_iff.mp found
    obtain ⟨scope, here, there⟩ := Option.bind_eq_some_iff.mp at_position
    have bound : (scope.bindings[position]?).isSome := isSome_of_findBelow there
    simpa [variableAt?, here] using bound
  rw [find?] at found
  split at found
  · simp at found
  · next current _ =>
    rcases Option.or_eq_some_iff.mp found with inner | ⟨-, outer⟩
    · exact in_scope current inner
    · exact in_scope 0 outer

end ScopeStack

namespace Memory

open MemoryM

variable {memory : Memory} {value : Value} {place : VariableRef}

/-- Scopes with the same views. -/
theorem Evolves.sameVariables (sound : memory.Sound) {stack : ScopeStack}
    (same : memory.stack.SameVariables stack) : memory.Evolves { memory with stack } := by
  refine .ofStack sound (fun place binding here => ?_) same.depth fun place there => ?_
  · rw [same.variableAt?] at here
    exact sound.bound place binding here
  · rwa [same.variableAt?]

theorem Sound.createVariable (sound : memory.Sound) (live : memory.Live value) (name : String) :
    Runs (createVariable name value) memory fun place after =>
      (after.stack.variableAt? place).isSome := by
  refine Ends.onStack (fun place stack created => ?_) fun error missed => ?_
  · obtain ⟨depth, -, views⟩ := ScopeStack.variableAt?_createVariable created
    refine ⟨.ofStack sound (fun found binding here => ?_) depth fun found there => ?_, ?_⟩
    · rw [views] at here
      split at here
      · obtain rfl := Option.some.inj here
        exact live
      · exact sound.bound found binding here
    · rw [views]
      split
      · rfl
      · exact there
    · simp [views]
  · refine ⟨?_, sound.heap⟩
    rintro rfl
    rw [ScopeStack.createVariable] at missed
    split at missed
    · simp at missed
    · simp only at missed
      split at missed <;> simp at missed

theorem Sound.setVariable (sound : memory.Sound) (live : memory.Live value)
    (there : (memory.stack.variableAt? place).isSome) :
    Runs (setVariable place value) memory fun _ _ => True := by
  obtain ⟨binding, here⟩ := Option.isSome_iff_exists.mp there
  have evolves : memory.Evolves { memory with stack := memory.stack.setVariable place value } := by
    refine .ofStack sound (fun found bound at_found => ?_) (ScopeStack.size_setVariable _ _ _)
      fun found at_found => ?_
    · rw [ScopeStack.variableAt?_setVariable] at at_found
      split at at_found
      · obtain ⟨old, -, rfl⟩ := Option.map_eq_some_iff.mp at_found
        exact live
      · exact sound.bound found bound at_found
    · rw [ScopeStack.variableAt?_setVariable]
      split
      · simpa using at_found
      · exact at_found
  unfold Runs Ends Memory.setVariable
  simp only [here]
  exact ⟨evolves, trivial⟩

theorem Sound.pushBranch (sound : memory.Sound) (action : BranchAction) (address : Address) :
    Runs (pushBranch action address) memory fun _ _ => True := by
  refine Ends.onStack (fun _ stack pushed => ?_) fun error missed => ?_
  · cases ran : memory.stack.pushBranch action address memory.heap.boundary with
    | error error => simp [ran, Except.map] at pushed
    | ok opened =>
        simp only [ran, Except.map, Except.ok.injEq, Prod.mk.injEq, true_and] at pushed
        subst pushed
        exact ⟨.sameVariables sound (ScopeStack.sameVariables_pushBranch ran), trivial⟩
  · refine ⟨?_, sound.heap⟩
    rintro rfl
    simp only [ScopeStack.pushBranch] at missed
    split at missed
    · simp [Except.map] at missed
    · split at missed
      · simp [Except.map] at missed
      · split at missed <;> simp [Except.map] at missed

end Memory

end PocketScript
