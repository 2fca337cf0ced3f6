import Mathlib
import PocketScript.Memory.Scope

/-! # Extents of scopes

Scopes follow one another without gaps from the first byte of memory on, and
each uses as many bytes as its variables and its block records take. Blocks may
be opened, closed and changed and variables assigned to without a change to the
extent of any scope.
-/

namespace PocketScript

namespace Scope

/-- How many bytes the variables and the block records of a scope take. -/
def recordBytes (scope : Scope) : Nat :=
  (scope.bindings.toList.map fun binding => variableSize binding.name).sum +
    branchSize * scope.records

/-- All that the extents of scopes depend on. -/
def extent (scope : Scope) : Nat × Nat × Nat :=
  (scope.base, scope.used, scope.recordBytes)

theorem extent_eq_iff {scope other : Scope} : other.extent = scope.extent ↔
    other.base = scope.base ∧ other.used = scope.used ∧ other.recordBytes = scope.recordBytes := by
  simp [extent]

theorem extent_modify (scope : Scope) (index : Nat) (value : Value) :
    { scope with bindings := scope.bindings.modify index ({ · with value }) : Scope }.extent =
      scope.extent := by
  have names : (scope.bindings.toList.modify index ({ · with value })).map (variableSize ·.name) =
      scope.bindings.toList.map (variableSize ·.name) := by
    refine List.ext_getElem? fun other => ?_
    rw [List.getElem?_map, List.getElem?_map, List.getElem?_modify]
    cases scope.bindings.toList[other]? with
    | none => rfl
    | some binding => by_cases same : index = other <;> simp [same]
  rw [extent_eq_iff]
  refine ⟨rfl, rfl, ?_⟩
  simp only [recordBytes, Array.toList_modify, names]

end Scope

namespace ScopeStack

/-- Scopes lie one after the other, and each takes the bytes of its records. -/
structure WellFormed (stack : ScopeStack) : Prop where
  first : ∀ scope : Scope, stack.scopes[0]? = some scope → scope.base = 0
  next : ∀ (index : Nat) (lower upper : Scope), stack.scopes[index]? = some lower →
    stack.scopes[index + 1]? = some upper → upper.base = lower.top
  accounted : ∀ (index : Nat) (scope : Scope), stack.scopes[index]? = some scope →
    scope.used = scope.recordBytes

variable {stack other : ScopeStack} {scope innermost : Scope} {ceiling : Nat}

theorem WellFormed.empty : ScopeStack.empty.WellFormed := by
  refine ⟨?_, ?_, ?_⟩ <;> simp [ScopeStack.empty]

/-- Only the extents matter. -/
theorem WellFormed.congr (wellFormed : stack.WellFormed)
    (same : ∀ index : Nat, other.scopes[index]?.map Scope.extent = stack.scopes[index]?.map Scope.extent) :
    other.WellFormed := by
  have before : ∀ (index : Nat) (scope : Scope), other.scopes[index]? = some scope →
      ∃ old : Scope, stack.scopes[index]? = some old ∧ scope.extent = old.extent := by
    intro index scope here
    have := same index
    rw [here, Option.map_some, eq_comm, Option.map_eq_some_iff] at this
    obtain ⟨old, there, extents⟩ := this
    exact ⟨old, there, extents.symm⟩
  refine ⟨fun scope here => ?_, fun index lower upper here above => ?_, fun index scope here => ?_⟩
  · obtain ⟨old, there, extents⟩ := before 0 scope here
    rw [(Scope.extent_eq_iff.mp extents).1, wellFormed.first old there]
  · obtain ⟨oldLower, there, lowerExtents⟩ := before index lower here
    obtain ⟨oldUpper, thereUpper, upperExtents⟩ := before (index + 1) upper above
    obtain ⟨base, used, -⟩ := Scope.extent_eq_iff.mp lowerExtents
    rw [(Scope.extent_eq_iff.mp upperExtents).1, wellFormed.next index oldLower oldUpper there thereUpper,
      Scope.top, Scope.top, base, used]
  · obtain ⟨old, there, extents⟩ := before index scope here
    obtain ⟨-, used, bytes⟩ := Scope.extent_eq_iff.mp extents
    rw [used, bytes, wellFormed.accounted index old there]

theorem innermost?_eq (stack : ScopeStack) :
    stack.innermost? = stack.scopes[stack.scopes.size - 1]? := by
  rw [innermost?, Array.back?_eq_getElem?]

theorem size_of_innermost (here : stack.innermost? = some innermost) : 0 < stack.scopes.size := by
  rw [innermost?_eq] at here
  have := (Array.getElem?_eq_some_iff.mp here).1
  omega

theorem boundary_of_innermost (here : stack.innermost? = some innermost) :
    stack.boundary = innermost.top := by
  simp [boundary, here]

/-- The first byte after the scopes depends on their extents only. -/
theorem boundary_congr
    (same : ∀ index : Nat, other.scopes[index]?.map Scope.extent = stack.scopes[index]?.map Scope.extent)
    (size : other.scopes.size = stack.scopes.size) : other.boundary = stack.boundary := by
  have last := same (stack.scopes.size - 1)
  rw [boundary, boundary, innermost?_eq, innermost?_eq, size]
  cases here : other.scopes[stack.scopes.size - 1]? with
  | none =>
      rw [here, Option.map_none, eq_comm, Option.map_eq_none_iff] at last
      rw [last]
  | some scope =>
      rw [here, Option.map_some, eq_comm, Option.map_eq_some_iff] at last
      obtain ⟨old, there, extents⟩ := last
      obtain ⟨base, used, -⟩ := Scope.extent_eq_iff.mp extents
      simp [there, Scope.top, base, used]

theorem getElem?_setInnermost (here : stack.innermost? = some innermost) (scope : Scope) (index : Nat) :
    (stack.setInnermost scope).scopes[index]? =
      if index + 1 = stack.scopes.size then some scope else stack.scopes[index]? := by
  have some_scope := size_of_innermost here
  rw [setInnermost, Array.getElem?_push, Array.size_pop, Array.getElem?_pop]
  by_cases last : index + 1 = stack.scopes.size
  · rw [if_pos last, if_pos (by omega)]
  · rw [if_neg last, if_neg (by omega)]
    by_cases below : index < stack.scopes.size - 1
    · rw [if_pos below]
    · rw [if_neg below, Array.getElem?_eq_none (by omega)]

theorem innermost?_setInnermost (scope : Scope) : (stack.setInnermost scope).innermost? = some scope := by
  simp [setInnermost, innermost?]

@[simp]
theorem boundary_setInnermost (scope : Scope) : (stack.setInnermost scope).boundary = scope.top :=
  boundary_of_innermost (innermost?_setInnermost scope)

/-- The innermost scope may change as long as it starts where it did. -/
theorem WellFormed.setInnermost (wellFormed : stack.WellFormed)
    (here : stack.innermost? = some innermost) (base : scope.base = innermost.base)
    (accounted : scope.used = scope.recordBytes) : (stack.setInnermost scope).WellFormed := by
  have last : ∀ index : Nat, index + 1 = stack.scopes.size → stack.scopes[index]? = some innermost := by
    intro index last
    rw [← here, innermost?_eq, ← last, Nat.add_sub_cancel]
  refine ⟨fun found there => ?_, fun index lower upper there above => ?_, fun index found there => ?_⟩
  · rw [getElem?_setInnermost here] at there
    split at there
    · next only =>
      obtain rfl := Option.some.inj there
      rw [base, wellFormed.first innermost (last 0 only)]
    · exact wellFormed.first found there
  · rw [getElem?_setInnermost here] at there above
    have inside : index + 1 < stack.scopes.size ∨ stack.scopes.size ≤ index + 1 := Nat.lt_or_ge _ _
    rcases inside with inside | outside
    · rw [if_neg (by omega)] at there
      split at above
      · next at_end =>
        obtain rfl := Option.some.inj above
        rw [base, wellFormed.next index lower innermost there (last _ at_end)]
      · exact wellFormed.next index lower upper there above
    · rw [if_neg (by omega), Array.getElem?_eq_none outside] at above
      simp at above
  · rw [getElem?_setInnermost here] at there
    split at there
    · obtain rfl := Option.some.inj there
      exact accounted
    · exact wellFormed.accounted index found there

theorem WellFormed.accounted_innermost (wellFormed : stack.WellFormed) (here : stack.innermost? = some innermost) :
    innermost.used = innermost.recordBytes :=
  wellFormed.accounted _ innermost (innermost?_eq stack ▸ here)

/-- Changing the open blocks changes no extent. -/
theorem WellFormed.setBranches (wellFormed : stack.WellFormed)
    (here : stack.innermost? = some innermost) (branches : List Branch) :
    (stack.setInnermost { innermost with branches }).WellFormed ∧
      (stack.setInnermost { innermost with branches }).boundary = stack.boundary := by
  have accounted : innermost.used = innermost.recordBytes := wellFormed.accounted_innermost here
  refine ⟨wellFormed.setInnermost here rfl accounted, ?_⟩
  rw [boundary_setInnermost, boundary_of_innermost here]
  rfl

theorem WellFormed.pushScope (wellFormed : stack.WellFormed) {index : Nat}
    (pushed : stack.pushScope ceiling = .ok (index, other)) :
    other.WellFormed ∧ other.boundary ≤ ceiling := by
  simp only [ScopeStack.pushScope] at pushed
  split at pushed
  · simp at pushed
  · next fits =>
    simp only [Except.ok.injEq, Prod.mk.injEq] at pushed
    obtain ⟨-, rfl⟩ := pushed
    have opened : Scope.recordBytes (.opened stack.boundary) = 0 := by
      simp [Scope.recordBytes, Scope.opened]
    have top : Scope.top (.opened stack.boundary) = stack.boundary + Scope.headerSize := rfl
    refine ⟨⟨fun scope there => ?_, fun index lower upper there above => ?_, fun index scope there => ?_⟩, ?_⟩
    · rw [Array.getElem?_push] at there
      split at there
      · next only =>
        obtain rfl := Option.some.inj there
        have none : stack.scopes = #[] := Array.eq_empty_of_size_eq_zero only.symm
        simp [Scope.opened, boundary, innermost?, none]
      · exact wellFormed.first scope there
    · rw [Array.getElem?_push] at there above
      have inside : index < stack.scopes.size := by
        rcases Nat.lt_or_ge index stack.scopes.size with inside | outside
        · exact inside
        · rw [if_neg (by omega), Array.getElem?_eq_none (by omega)] at above
          simp at above
      rw [if_neg (by omega)] at there
      split at above
      · next last =>
        obtain rfl := Option.some.inj above
        have here : stack.innermost? = some lower := by
          rw [innermost?_eq, ← there, ← last, Nat.add_sub_cancel]
        exact boundary_of_innermost here
      · exact wellFormed.next index lower upper there above
    · rw [Array.getElem?_push] at there
      split at there
      · obtain rfl := Option.some.inj there
        exact opened.symm
      · exact wellFormed.accounted index scope there
    · have here : innermost? ⟨stack.scopes.push (.opened stack.boundary)⟩ =
          some (Scope.opened stack.boundary) := by
        simp [innermost?]
      rw [boundary_of_innermost here, top]
      omega

theorem WellFormed.popScope (wellFormed : stack.WellFormed) :
    stack.popScope.WellFormed ∧ stack.popScope.boundary ≤ stack.boundary := by
  have before : ∀ (index : Nat) (scope : Scope), stack.popScope.scopes[index]? = some scope →
      index + 1 < stack.scopes.size ∧ stack.scopes[index]? = some scope := by
    intro index scope there
    rw [ScopeStack.popScope, Array.getElem?_pop] at there
    split at there
    · exact ⟨by omega, there⟩
    · simp at there
  refine ⟨⟨fun scope there => wellFormed.first scope (before 0 scope there).2,
    fun index lower upper there above =>
      wellFormed.next index lower upper (before index lower there).2 (before _ upper above).2,
    fun index scope there => wellFormed.accounted index scope (before index scope there).2⟩, ?_⟩
  cases there : stack.popScope.innermost? with
  | none => simp [boundary, there]
  | some lower =>
      have index : stack.popScope.scopes.size = stack.scopes.size - 1 := Array.size_pop
      rw [innermost?_eq, index] at there
      obtain ⟨inside, here⟩ := before _ lower there
      obtain ⟨upper, above⟩ : ∃ upper, stack.innermost? = some upper := by
        rw [innermost?_eq]
        exact ⟨_, Array.getElem?_eq_getElem (by omega)⟩
      have last : stack.scopes[stack.scopes.size - 1 - 1 + 1]? = some upper := by
        rw [← above, innermost?_eq, Nat.sub_add_cancel (by omega)]
      have base := wellFormed.next _ lower upper here last
      rw [boundary_of_innermost (by rw [innermost?_eq, index]; exact there),
        boundary_of_innermost above]
      simp only [Scope.top] at base ⊢
      omega

theorem WellFormed.createVariable (wellFormed : stack.WellFormed) {name : String} {value : Value}
    {place : VariableRef} (created : stack.createVariable name value ceiling = .ok (place, other)) :
    other.WellFormed ∧ other.boundary ≤ ceiling := by
  cases here : stack.innermost? with
  | none => simp [ScopeStack.createVariable, here] at created
  | some innermost =>
      simp only [ScopeStack.createVariable, here] at created
      split at created
      · simp at created
      · next fits =>
        simp only [Except.ok.injEq, Prod.mk.injEq] at created
        obtain ⟨-, rfl⟩ := created
        have accounted := wellFormed.accounted_innermost here
        refine ⟨wellFormed.setInnermost here rfl ?_, ?_⟩
        · simp only [Scope.recordBytes, Array.toList_push, List.map_append, List.sum_append,
            List.map_cons, List.map_nil, List.sum_singleton] at accounted ⊢
          omega
        · rw [boundary_setInnermost]
          simp only [Scope.top] at fits ⊢
          omega

theorem WellFormed.pushBranch (wellFormed : stack.WellFormed) {action : BranchAction} {address : Address}
    (below : stack.boundary ≤ ceiling) (pushed : stack.pushBranch action address ceiling = .ok other) :
    other.WellFormed ∧ other.boundary ≤ ceiling := by
  cases here : stack.innermost? with
  | none => simp [ScopeStack.pushBranch, here] at pushed
  | some innermost =>
      have accounted := wellFormed.accounted_innermost here
      simp only [ScopeStack.pushBranch, here] at pushed
      split at pushed
      · obtain rfl := Except.ok.inj pushed
        obtain ⟨sound, same⟩ := wellFormed.setBranches here (⟨action, address⟩ :: innermost.branches)
        exact ⟨sound, same ▸ below⟩
      · split at pushed
        · simp at pushed
        · next fits =>
          obtain rfl := Except.ok.inj pushed
          refine ⟨wellFormed.setInnermost here rfl ?_, ?_⟩
          · simp only [Scope.recordBytes] at accounted ⊢
            rw [accounted, Nat.mul_add]
            omega
          · rw [boundary_setInnermost]
            simp only [Scope.top] at fits ⊢
            omega

theorem WellFormed.popBranch (wellFormed : stack.WellFormed) :
    stack.popBranch.2.WellFormed ∧ stack.popBranch.2.boundary = stack.boundary := by
  rw [ScopeStack.popBranch]
  split
  · next innermost here =>
    split
    · exact wellFormed.setBranches here _
    · exact ⟨wellFormed, rfl⟩
  · exact ⟨wellFormed, rfl⟩

theorem WellFormed.modifyBranches (wellFormed : stack.WellFormed) (change : List Branch → List Branch) :
    (stack.modifyBranches change).WellFormed ∧
      (stack.modifyBranches change).boundary = stack.boundary := by
  rw [ScopeStack.modifyBranches]
  split
  · next innermost here => exact wellFormed.setBranches here _
  · exact ⟨wellFormed, rfl⟩

theorem WellFormed.breakLoop (wellFormed : stack.WellFormed) :
    stack.breakLoop.2.WellFormed ∧ stack.breakLoop.2.boundary = stack.boundary := by
  rw [ScopeStack.breakLoop]
  split
  · next innermost here => exact wellFormed.setBranches here _
  · exact ⟨wellFormed, rfl⟩

theorem WellFormed.continueLoop (wellFormed : stack.WellFormed) :
    stack.continueLoop.2.WellFormed ∧ stack.continueLoop.2.boundary = stack.boundary := by
  rw [ScopeStack.continueLoop]
  split
  · next innermost here => exact wellFormed.setBranches here _
  · exact ⟨wellFormed, rfl⟩

theorem WellFormed.setVariable (wellFormed : stack.WellFormed) (place : VariableRef) (value : Value) :
    (stack.setVariable place value).WellFormed ∧
      (stack.setVariable place value).boundary = stack.boundary := by
  have same : ∀ index : Nat, (stack.setVariable place value).scopes[index]?.map Scope.extent =
      stack.scopes[index]?.map Scope.extent := by
    intro index
    rw [ScopeStack.setVariable, Array.getElem?_modify]
    split
    · rw [Option.map_map]
      cases stack.scopes[index]? with
      | none => rfl
      | some scope => exact congrArg some (Scope.extent_modify scope place.index value)
    · rfl
  exact ⟨wellFormed.congr same, boundary_congr same (by simp [ScopeStack.setVariable])⟩

end ScopeStack

end PocketScript
