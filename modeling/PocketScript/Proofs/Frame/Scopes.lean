import PocketScript.Proofs.Flow.Idling

/-! # Scopes that are left alone

Evaluation works in the innermost scope. Of the others, it writes to the variables
of the global one only. `Revalued` says that of scopes among which no innermost one
is set apart, as they are once a call is over, and `Framed` of those outside the
innermost.
-/

namespace PocketScript

/-- The same scope but for the values of its variables. -/
structure Scope.Revalued (scope after : Scope) : Prop where
  same : after = { scope with bindings := after.bindings }
  names : after.bindings.map (·.name) = scope.bindings.map (·.name)

namespace Scope.Revalued

variable {scope middle after : Scope}

theorem refl (scope : Scope) : scope.Revalued scope :=
  ⟨rfl, rfl⟩

theorem trans (first : scope.Revalued middle) (second : middle.Revalued after) : scope.Revalued after := by
  refine ⟨?_, second.names.trans first.names⟩
  conv_lhs => rw [second.same, first.same]

theorem modify (scope : Scope) (index : Nat) (value : Value) :
    scope.Revalued { scope with bindings := scope.bindings.modify index ({ · with value }) } := by
  refine ⟨rfl, ?_⟩
  ext other
  · simp
  · simp only [Array.getElem_map, Array.getElem_modify]
    split <;> rfl

theorem branches (revalued : scope.Revalued after) : after.branches = scope.branches := by
  rw [revalued.same]

theorem top (revalued : scope.Revalued after) : after.top = scope.top := by
  rw [revalued.same]
  rfl

end Scope.Revalued

/-- The same scopes but for the values of the variables of the global one. -/
structure ScopeStack.Revalued (stack after : ScopeStack) : Prop where
  depth : after.scopes.size = stack.scopes.size
  outer : ∀ index ≠ 0, after.scopes[index]? = stack.scopes[index]?
  global : ∀ scope, stack.scopes[0]? = some scope → ∃ scope', after.scopes[0]? = some scope' ∧ scope.Revalued scope'

/-- As many scopes, of which all but the innermost are the same but for the values
    of the variables of the global one. -/
structure ScopeStack.Framed (stack after : ScopeStack) : Prop where
  depth : after.scopes.size = stack.scopes.size
  outer : stack.popScope.Revalued after.popScope

/-- The place of a variable in the global scope or the innermost of `depth`. -/
def VariableRef.Visible (depth : Nat) (place : VariableRef) : Prop :=
  place.scope = 0 ∨ place.scope + 1 = depth

namespace ScopeStack

variable {stack middle after : ScopeStack}

namespace Revalued

theorem refl (stack : ScopeStack) : stack.Revalued stack :=
  ⟨rfl, fun _ _ => rfl, fun scope here => ⟨scope, here, .refl scope⟩⟩

theorem trans (first : stack.Revalued middle) (second : middle.Revalued after) : stack.Revalued after := by
  refine ⟨second.depth.trans first.depth, fun index outer => (second.outer index outer).trans (first.outer index outer),
    fun scope here => ?_⟩
  obtain ⟨scope', here', one⟩ := first.global scope here
  obtain ⟨scope'', here'', two⟩ := second.global scope' here'
  exact ⟨scope'', here'', one.trans two⟩

theorem popScope (revalued : stack.Revalued after) : stack.popScope.Revalued after.popScope := by
  have pops (stack : ScopeStack) (index : Nat) :
      stack.popScope.scopes[index]? = if index + 1 < stack.scopes.size then stack.scopes[index]? else none := by
    simp only [ScopeStack.popScope, Array.getElem?_pop]
    by_cases below : index + 1 < stack.scopes.size
    · rw [if_pos below, if_pos (by omega)]
    · rw [if_neg below, if_neg (by omega)]
  refine ⟨by simp [ScopeStack.popScope, revalued.depth], fun index outer => ?_, fun scope here => ?_⟩
  · rw [pops, pops, revalued.depth, revalued.outer index outer]
  · rw [pops] at here ⊢
    rw [revalued.depth]
    split at here
    · next below =>
      rw [if_pos below]
      exact revalued.global scope here
    · cases here

/-- Every scope is still there, at least but for values. -/
theorem scope (revalued : stack.Revalued after) (index : Nat) {scope : Scope}
    (here : stack.scopes[index]? = some scope) :
    ∃ scope', after.scopes[index]? = some scope' ∧ scope.Revalued scope' := by
  by_cases global : index = 0
  · subst global
    exact revalued.global scope here
  · exact ⟨scope, (revalued.outer index global).trans here, .refl scope⟩

theorem innermost (revalued : stack.Revalued after) :
    (stack.innermost? = none ∧ after.innermost? = none) ∨
      ∃ scope scope', stack.innermost? = some scope ∧ after.innermost? = some scope' ∧ scope.Revalued scope' := by
  rw [innermost?_eq, innermost?_eq, revalued.depth]
  cases here : stack.scopes[stack.scopes.size - 1]? with
  | none =>
      refine .inl ⟨rfl, ?_⟩
      rw [Array.getElem?_eq_none_iff] at here ⊢
      rw [revalued.depth]
      exact here
  | some scope =>
      obtain ⟨scope', there, same⟩ := revalued.scope _ here
      exact .inr ⟨scope, scope', rfl, there, same⟩

theorem blocks (revalued : stack.Revalued after) : after.blocks = stack.blocks := by
  unfold ScopeStack.blocks
  obtain ⟨here, there⟩ | ⟨scope, scope', here, there, same⟩ := revalued.innermost
  · rw [here, there]
  · rw [here, there]
    exact same.branches

theorem boundary (revalued : stack.Revalued after) : after.boundary = stack.boundary := by
  unfold ScopeStack.boundary
  obtain ⟨here, there⟩ | ⟨scope, scope', here, there, same⟩ := revalued.innermost
  · rw [here, there]
  · rw [here, there]
    exact same.top

end Revalued

namespace Framed

theorem refl (stack : ScopeStack) : stack.Framed stack :=
  ⟨rfl, .refl _⟩

theorem trans (first : stack.Framed middle) (second : middle.Framed after) : stack.Framed after :=
  ⟨second.depth.trans first.depth, first.outer.trans second.outer⟩

theorem of_revalued (revalued : stack.Revalued after) : stack.Framed after :=
  ⟨revalued.depth, revalued.popScope⟩

/-- A change of the innermost scope only. -/
theorem setInnermost {scope : Scope} (here : stack.innermost? = some scope) (scope' : Scope) :
    stack.Framed (stack.setInnermost scope') := by
  have some_scope := size_of_innermost here
  refine ⟨?_, ?_⟩
  · simp only [ScopeStack.setInnermost, Array.size_push, Array.size_pop]
    omega
  · rw [show (stack.setInnermost scope').popScope = stack.popScope by
      simp [ScopeStack.setInnermost, ScopeStack.popScope]]
    exact .refl _

theorem setVariable {place : VariableRef} (visible : place.Visible stack.scopes.size) (value : Value) :
    stack.Framed (stack.setVariable place value) := by
  refine ⟨by simp [ScopeStack.setVariable], ?_⟩
  by_cases global : place.scope = 0
  · refine .popScope ⟨by simp [ScopeStack.setVariable], fun index outer => ?_, fun scope here => ?_⟩
    · rw [ScopeStack.setVariable, Array.getElem?_modify, if_neg (by omega)]
    · refine ⟨_, ?_, Scope.Revalued.modify scope place.index value⟩
      rw [ScopeStack.setVariable, global, Array.getElem?_modify, if_pos rfl, here]
      rfl
  · have last : place.scope + 1 = stack.scopes.size := visible.resolve_left global
    rw [show (stack.setVariable place value).popScope = stack.popScope from ?_]
    · exact .refl _
    · refine congrArg ScopeStack.mk (Array.ext_getElem? fun index => ?_)
      simp only [ScopeStack.setVariable, Array.getElem?_pop, Array.size_modify, Array.getElem?_modify]
      split
      · rw [if_neg (by omega)]
      · rfl

theorem modifyBranches (stack : ScopeStack) (change : List Branch → List Branch) :
    stack.Framed (stack.modifyBranches change) := by
  unfold ScopeStack.modifyBranches
  cases here : stack.innermost? with
  | none => exact .refl _
  | some scope => exact setInnermost here _

theorem popBranch (stack : ScopeStack) : stack.Framed stack.popBranch.2 := by
  unfold ScopeStack.popBranch
  cases here : stack.innermost? with
  | none => exact .refl _
  | some scope =>
      dsimp only
      split
      · exact setInnermost here _
      · exact .refl _

theorem breakLoop (stack : ScopeStack) : stack.Framed stack.breakLoop.2 := by
  unfold ScopeStack.breakLoop
  cases here : stack.innermost? with
  | none => exact .refl _
  | some scope => exact setInnermost here _

theorem continueLoop (stack : ScopeStack) : stack.Framed stack.continueLoop.2 := by
  unfold ScopeStack.continueLoop
  cases here : stack.innermost? with
  | none => exact .refl _
  | some scope => exact setInnermost here _

theorem pushBranch {action : BranchAction} {address : Address} {ceiling : Nat}
    (pushed : stack.pushBranch action address ceiling = .ok after) : stack.Framed after := by
  unfold ScopeStack.pushBranch at pushed
  cases here : stack.innermost? with
  | none => simp [here] at pushed
  | some scope =>
      simp only [here] at pushed
      split at pushed
      · obtain rfl := Except.ok.inj pushed
        exact setInnermost here _
      · split at pushed
        · cases pushed
        · obtain rfl := Except.ok.inj pushed
          exact setInnermost here _

/-- A variable is created in the innermost scope. -/
theorem createVariable {name : String} {value : Value} {ceiling : Nat} {place : VariableRef}
    (created : stack.createVariable name value ceiling = .ok (place, after)) :
    stack.Framed after ∧ place.Visible stack.scopes.size := by
  unfold ScopeStack.createVariable at created
  cases here : stack.innermost? with
  | none => simp [here] at created
  | some scope =>
      have some_scope := size_of_innermost here
      simp only [here] at created
      split at created
      · cases created
      · obtain ⟨rfl, rfl⟩ := Prod.mk.inj (Except.ok.inj created)
        exact ⟨setInnermost here _, .inr (by dsimp only; omega)⟩

/-- A name means a variable of the innermost scope or of the global one. -/
theorem visible_of_find? {name : String} {place : VariableRef} (found : stack.find? name = some place) :
    place.Visible stack.scopes.size := by
  unfold ScopeStack.find? at found
  cases current : stack.current? with
  | none => simp [current] at found
  | some innermost =>
      have last : innermost + 1 = stack.scopes.size := by
        unfold ScopeStack.current? at current
        split at current
        · cases current
        · next some_scope =>
          simp only [Array.isEmpty_iff_size_eq_zero] at some_scope
          have := Option.some.inj current
          omega
      simp only [current, Option.or_eq_some_iff, Option.map_eq_some_iff] at found
      rcases found with ⟨index, -, rfl⟩ | ⟨-, index, -, rfl⟩
      · exact .inr last
      · exact .inl rfl

end Framed

theorem blocks_setVariable (stack : ScopeStack) (place : VariableRef) (value : Value) :
    (stack.setVariable place value).blocks = stack.blocks := by
  unfold blocks
  rw [innermost?_eq, innermost?_eq]
  simp only [setVariable, Array.size_modify, Array.getElem?_modify]
  split
  · cases stack.scopes[stack.scopes.size - 1]? with
    | none | some scope => rfl
  · rfl

theorem blocks_createVariable {name : String} {value : Value} {ceiling : Nat} {place : VariableRef}
    (created : stack.createVariable name value ceiling = .ok (place, after)) : after.blocks = stack.blocks := by
  unfold createVariable at created
  cases here : stack.innermost? with
  | none => simp [here] at created
  | some scope =>
      simp only [here] at created
      split at created
      · cases created
      · obtain ⟨-, rfl⟩ := Prod.mk.inj (Except.ok.inj created)
        simp [blocks, here, innermost?_setInnermost]

/-- What a call leaves of the scopes that were there before it. -/
theorem Framed.called {base : Nat} (framed : (⟨stack.scopes.push (Scope.opened base)⟩ : ScopeStack).Framed after) :
    stack.Revalued after.popScope := by
  have outer := framed.outer
  rw [show (⟨stack.scopes.push (Scope.opened base)⟩ : ScopeStack).popScope = stack by simp [popScope]] at outer
  exact outer

end ScopeStack

end PocketScript
