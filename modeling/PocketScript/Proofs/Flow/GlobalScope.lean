import PocketScript.Proofs.Memory.Variables

/-! # The global scope alone

Outside any call there is one scope. What it does to its open blocks is what
happens to their list, and its variables are looked up from the latest back.
-/

namespace PocketScript

namespace Scope

variable {scope other : Scope} {name : String} {count index : Nat}

theorem findBelow_congr (same : ∀ index < count, other.bindings[index]?.map (·.name) =
      scope.bindings[index]?.map (·.name)) : other.findBelow name count = scope.findBelow name count := by
  induction count with
  | zero => rfl
  | succ count ih =>
      have here : other.bindings[count]?.any (·.name == name) = scope.bindings[count]?.any (·.name == name) := by
        have names := same count (by omega)
        cases at_other : other.bindings[count]? <;> cases at_scope : scope.bindings[count]? <;>
          simp_all
      rw [findBelow, findBelow, here, ih fun index below => same index (by omega)]

theorem name_of_findBelow (found : scope.findBelow name count = some index) :
    ∃ binding, scope.bindings[index]? = some binding ∧ binding.name = name ∧ index < count := by
  induction count with
  | zero => simp [findBelow] at found
  | succ count ih =>
      rw [findBelow] at found
      split at found
      · next here =>
        obtain rfl := Option.some.inj found
        obtain ⟨binding, there, named⟩ := (Option.any_eq_true _ _).mp here
        exact ⟨binding, there, by simpa using named, by omega⟩
      · obtain ⟨binding, there, named, below⟩ := ih found
        exact ⟨binding, there, named, by omega⟩

end Scope

/-- The index of the latest variable of a name. -/
def latestIndex? (bindings : Array Variable) (name : String) : Option Nat :=
  (Scope.mk 0 0 bindings [] 0).find? name

/-- The value of the latest variable of a name. -/
def latest? (bindings : Array Variable) (name : String) : Option Value :=
  (latestIndex? bindings name).bind fun index => bindings[index]?.map (·.value)

section Latest

variable {bindings : Array Variable} {name other : String} {value : Value} {index : Nat}

theorem find?_eq_latestIndex? (scope : Scope) (name : String) :
    scope.find? name = latestIndex? scope.bindings name :=
  Scope.findBelow_congr fun _ _ => rfl

theorem name_of_latestIndex? (found : latestIndex? bindings name = some index) :
    ∃ binding, bindings[index]? = some binding ∧ binding.name = name := by
  obtain ⟨binding, there, named, -⟩ := Scope.name_of_findBelow found
  exact ⟨binding, there, named⟩

theorem latestIndex?_push (bindings : Array Variable) (name other : String) (value : Value) :
    latestIndex? (bindings.push ⟨name, value⟩) other =
      if name = other then some bindings.size else latestIndex? bindings other := by
  rw [latestIndex?, Scope.find?, Array.size_push, Scope.findBelow]
  by_cases same : name = other
  · simp [same]
  · have below : (Scope.mk 0 0 (bindings.push ⟨name, value⟩) [] 0).findBelow other bindings.size =
        latestIndex? bindings other := by
      refine Scope.findBelow_congr fun index inside => ?_
      rw [Array.getElem?_push, if_neg (by omega)]
    simp [same, below]

theorem latest?_push (bindings : Array Variable) (name other : String) (value : Value) :
    latest? (bindings.push ⟨name, value⟩) other =
      if name = other then some value else latest? bindings other := by
  rw [latest?, latestIndex?_push]
  split
  · simp
  · cases found : latestIndex? bindings other with
    | none => simp [latest?, found]
    | some index =>
        obtain ⟨binding, there, -⟩ := name_of_latestIndex? found
        have inside := (Array.getElem?_eq_some_iff.mp there).1
        simp [latest?, found, Array.getElem?_push, Nat.ne_of_lt inside]

theorem latestIndex?_modify (bindings : Array Variable) (index : Nat) (value : Value) (name : String) :
    latestIndex? (bindings.modify index ({ · with value })) name = latestIndex? bindings name := by
  rw [latestIndex?, Scope.find?, Array.size_modify]
  refine Scope.findBelow_congr fun position _ => ?_
  rw [Array.getElem?_modify]
  split
  · rw [Option.map_map]
    rfl
  · rfl

theorem latest?_modify (found : latestIndex? bindings name = some index) (other : String) (value : Value) :
    latest? (bindings.modify index ({ · with value })) other =
      if name = other then some value else latest? bindings other := by
  obtain ⟨binding, there, named⟩ := name_of_latestIndex? found
  rw [latest?, latestIndex?_modify]
  by_cases same : name = other
  · subst same
    simp [found, Array.getElem?_modify, there]
  · rw [if_neg same]
    cases found' : latestIndex? bindings other with
    | none => simp [latest?, found']
    | some position =>
        obtain ⟨binding', there', named'⟩ := name_of_latestIndex? found'
        have apart : index ≠ position := by
          rintro rfl
          rw [there, Option.some.injEq] at there'
          exact same (by rw [← named, ← named', there'])
        simp [latest?, found', Array.getElem?_modify, apart]

end Latest

namespace ScopeStack

variable {stack : ScopeStack} {bindings : Array Variable} {branch next : Branch} {branches : List Branch}
  {name : String} {value : Value}

/-- The value of the variable that a name means. -/
def value? (stack : ScopeStack) (name : String) : Option Value :=
  (stack.find? name).bind fun place => (stack.variableAt? place).map (·.value)

/-- There is one scope, with these variables and open blocks. -/
def Global (stack : ScopeStack) (bindings : Array Variable) (branches : List Branch) : Prop :=
  ∃ base used records, stack = ⟨#[⟨base, used, bindings, branches, records⟩]⟩

namespace Global

theorem action (only : stack.Global bindings (branch :: branches)) : stack.action = branch.action := by
  obtain ⟨base, used, records, rfl⟩ := only
  rfl

theorem branch? (only : stack.Global bindings branches) : stack.branch? = branches.head? := by
  obtain ⟨base, used, records, rfl⟩ := only
  rfl

theorem setAction (only : stack.Global bindings (branch :: branches)) (action : BranchAction) :
    (stack.setAction action).Global bindings ({ branch with action } :: branches) := by
  obtain ⟨base, used, records, rfl⟩ := only
  exact ⟨base, used, records, rfl⟩

theorem pushBranch (only : stack.Global bindings branches) (action : BranchAction) (address : Address)
    (ceiling : Nat) :
    (∃ opened, stack.pushBranch action address ceiling = .ok opened ∧
      opened.Global bindings (⟨action, address⟩ :: branches)) ∨
      stack.pushBranch action address ceiling = .error .collision := by
  obtain ⟨base, used, records, rfl⟩ := only
  have here : (ScopeStack.mk #[⟨base, used, bindings, branches, records⟩]).innermost? =
    some ⟨base, used, bindings, branches, records⟩ := rfl
  simp only [ScopeStack.pushBranch, here]
  by_cases reused : branches.length < records
  · rw [if_pos reused]
    exact .inl ⟨_, rfl, base, used, records, rfl⟩
  · rw [if_neg reused]
    by_cases full : ceiling < (Scope.mk base used bindings branches records).top + Scope.branchSize
    · rw [if_pos full]
      exact .inr rfl
    · rw [if_neg full]
      exact .inl ⟨_, rfl, base, used + Scope.branchSize, records + 1, rfl⟩

theorem popBranch (only : stack.Global bindings (branch :: next :: branches)) :
    stack.popBranch.1 = true ∧ stack.popBranch.2.Global bindings (next :: branches) := by
  obtain ⟨base, used, records, rfl⟩ := only
  exact ⟨rfl, base, used, records, rfl⟩

theorem breakLoop (only : stack.Global bindings branches) :
    stack.breakLoop.1 = (Scope.breakLoop branches).2 ∧
      stack.breakLoop.2.Global bindings (Scope.breakLoop branches).1 := by
  obtain ⟨base, used, records, rfl⟩ := only
  exact ⟨rfl, base, used, records, rfl⟩

theorem continueLoop (only : stack.Global bindings branches) :
    stack.continueLoop.1 = (Scope.continueLoop branches).2 ∧
      stack.continueLoop.2.Global bindings (Scope.continueLoop branches).1 := by
  obtain ⟨base, used, records, rfl⟩ := only
  exact ⟨rfl, base, used, records, rfl⟩

theorem find? (only : stack.Global bindings branches) (name : String) :
    stack.find? name = (latestIndex? bindings name).map (VariableRef.mk 0) := by
  obtain ⟨base, used, records, rfl⟩ := only
  have here : (ScopeStack.mk #[⟨base, used, bindings, branches, records⟩]).current? = some 0 := rfl
  simp only [ScopeStack.find?, here]
  simp [find?_eq_latestIndex?]

theorem variableAt? (only : stack.Global bindings branches) (index : Nat) :
    stack.variableAt? ⟨0, index⟩ = bindings[index]? := by
  obtain ⟨base, used, records, rfl⟩ := only
  rfl

theorem value? (only : stack.Global bindings branches) (name : String) :
    stack.value? name = latest? bindings name := by
  rw [ScopeStack.value?, only.find?, latest?]
  cases latestIndex? bindings name with
  | none => rfl
  | some index => simp [only.variableAt?]

theorem createVariable (only : stack.Global bindings branches) (name : String) (value : Value)
    (ceiling : Nat) :
    (∃ created, stack.createVariable name value ceiling = .ok (⟨0, bindings.size⟩, created) ∧
      created.Global (bindings.push ⟨name, value⟩) branches) ∨
      stack.createVariable name value ceiling = .error .collision := by
  obtain ⟨base, used, records, rfl⟩ := only
  have here : (ScopeStack.mk #[⟨base, used, bindings, branches, records⟩]).innermost? =
    some ⟨base, used, bindings, branches, records⟩ := rfl
  simp only [ScopeStack.createVariable, here]
  by_cases full : ceiling < (Scope.mk base used bindings branches records).top + Scope.variableSize name
  · rw [if_pos full]
    exact .inr rfl
  · rw [if_neg full]
    exact .inl ⟨_, rfl, base, used + Scope.variableSize name, records, rfl⟩

theorem setVariable (only : stack.Global bindings branches) (index : Nat) (value : Value) :
    (stack.setVariable ⟨0, index⟩ value).Global (bindings.modify index ({ · with value })) branches := by
  obtain ⟨base, used, records, rfl⟩ := only
  exact ⟨base, used, records, rfl⟩

end Global

end ScopeStack

end PocketScript
