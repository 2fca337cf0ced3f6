import PocketScript.Proofs.Frame.Scopes

/-! # What a name means

Whoever sees only the operations on scopes and their answers can write down which variables
there are: each scope that is open with its variables, the place that was given for each and
what was stored there last. Names are looked up and places are read as this ledger says,
whatever the operations, refused ones included.
-/

namespace PocketScript

/-- An operation on the scopes. -/
inductive ScopeOperation where
  | pushScope (ceiling : Nat)
  | popScope
  | createVariable (name : String) (value : Value) (ceiling : Nat)
  | setVariable (place : VariableRef) (value : Value)
  | pushBranch (action : BranchAction) (address : Address) (ceiling : Nat)
  | popBranch
  | setAction (action : BranchAction)
  | breakLoop
  | continueLoop

/-- What an operation on the scopes answers. -/
inductive ScopeAnswer where
  | refused
  | done
  | created (place : VariableRef)

/-- The answer of an operation and the scopes afterwards. -/
def ScopeOperation.run (stack : ScopeStack) : ScopeOperation → ScopeAnswer × ScopeStack
  | pushScope ceiling =>
    match stack.pushScope ceiling with
    | .ok (_, after) => (.done, after)
    | .error _ => (.refused, stack)
  | popScope => (.done, stack.popScope)
  | createVariable name value ceiling =>
    match stack.createVariable name value ceiling with
    | .ok (place, after) => (.created place, after)
    | .error _ => (.refused, stack)
  | setVariable place value => (.done, stack.setVariable place value)
  | pushBranch action address ceiling =>
    match stack.pushBranch action address ceiling with
    | .ok after => (.done, after)
    | .error _ => (.refused, stack)
  | popBranch => (.done, stack.popBranch.2)
  | setAction action => (.done, stack.setAction action)
  | breakLoop => (.done, stack.breakLoop.2)
  | continueLoop => (.done, stack.continueLoop.2)

/-- A variable that was created: the place given for it and what was stored there last. -/
structure Creation where
  name : String
  place : VariableRef
  value : Value

/-- The variables of the open scopes, the innermost scope first and in each the latest variable first. -/
abbrev Ledger := List (List Creation)

namespace Ledger

/-- The latest variable of a name among those of a scope. -/
def latest? (name : String) (scope : List Creation) : Option Creation :=
  scope.find? (·.name == name)

/-- What a name means: the latest variable of the innermost scope, else the latest of the global one. -/
def find? (ledger : Ledger) (name : String) : Option Creation :=
  (ledger.head?.bind (latest? name)).or (ledger.getLast?.bind (latest? name))

/-- Store a value in a variable if it has a place. -/
def assign (place : VariableRef) (value : Value) (creation : Creation) : Creation :=
  if creation.place = place then { creation with value } else creation

/-- The ledger after an operation, from its answer alone. -/
def record (ledger : Ledger) : ScopeOperation → ScopeAnswer → Ledger
  | .pushScope _, .done => [] :: ledger
  | .popScope, _ => ledger.tail
  | .createVariable name value _, .created place => ledger.modifyHead (⟨name, place, value⟩ :: ·)
  | .setVariable place value, _ => ledger.map (·.map (assign place value))
  | _, _ => ledger

end Ledger

namespace ScopeStack

variable {stack other : ScopeStack} {scope innermost : Scope} {place : VariableRef} {name : String}

/-- Carry out an operation and write it down. -/
def perform (state : ScopeStack × Ledger) (operation : ScopeOperation) : ScopeStack × Ledger :=
  let (answer, after) := operation.run state.1
  (after, state.2.record operation answer)

/-- The scopes and the ledger after operations, the first one first. -/
def performAll (operations : List ScopeOperation) : ScopeStack × Ledger :=
  operations.foldl perform (.empty, [])

/-- Names are looked up and places are read as the ledger says. -/
structure Follows (stack : ScopeStack) (ledger : Ledger) : Prop where
  depth : stack.depth = ledger.length
  find? : ∀ name, stack.find? name = (ledger.find? name).map (·.place)
  /-- No name means a variable of a scope in between. -/
  outer : ∀ name place, stack.find? name = some place → place.Visible stack.depth
  /-- A variable is at a place in its scope, the global one being the first. -/
  scope : ∀ index creations, ledger.reverse[index]? = some creations →
    ∀ creation : Creation, creation ∈ creations → creation.place.scope = index
  /-- No two variables have the same place. -/
  apart : ledger.flatten.Pairwise fun later earlier => later.place ≠ earlier.place
  reads : ∀ creation ∈ ledger.flatten,
    stack.variableAt? creation.place = some ⟨creation.name, creation.value⟩

/-- A variable at a place. -/
def created (scope : Nat) (index : Nat) (binding : Variable) : Creation :=
  ⟨binding.name, ⟨scope, index⟩, binding.value⟩

/-- The variables of a scope, the latest first. -/
def creations (index : Nat) (bindings : Array Variable) : List Creation :=
  (bindings.toList.mapIdx (created index)).reverse

/-- The ledger that scopes have by themselves. -/
def ledger (stack : ScopeStack) : Ledger :=
  (stack.scopes.toList.mapIdx fun index scope => creations index scope.bindings).reverse

theorem length_ledger (stack : ScopeStack) : stack.ledger.length = stack.depth := by
  simp [ledger, depth]

theorem getElem?_reverse_ledger (stack : ScopeStack) (index : Nat) :
    stack.ledger.reverse[index]? = stack.scopes[index]?.map fun scope => creations index scope.bindings := by
  simp [ledger]

/-- The variables at all places determine those of each scope. -/
theorem SameVariables.bindings (same : stack.SameVariables other) (index : Nat) :
    other.scopes[index]?.map (·.bindings) = stack.scopes[index]?.map (·.bindings) := by
  have depth := same.depth
  rcases Nat.lt_or_ge index stack.scopes.size with inside | outside
  · have here := Array.getElem?_eq_getElem inside
    have there := Array.getElem?_eq_getElem (depth ▸ inside)
    rw [here, there, Option.map_some, Option.map_some]
    refine congrArg some (Array.ext_getElem? fun position => ?_)
    have variables_eq := same.variableAt? ⟨index, position⟩
    rwa [ScopeStack.variableAt?, ScopeStack.variableAt?, here, there] at variables_eq
  · rw [Array.getElem?_eq_none outside, Array.getElem?_eq_none (by omega)]

theorem ledger_congr (same : stack.SameVariables other) : other.ledger = stack.ledger := by
  refine List.reverse_injective (List.ext_getElem? fun index => ?_)
  have here := congrArg (Option.map (creations index)) (same.bindings index)
  rw [Option.map_map, Option.map_map] at here
  rw [getElem?_reverse_ledger, getElem?_reverse_ledger]
  exact here

theorem ledger_pushScope (stack : ScopeStack) (base : Nat) :
    (ScopeStack.mk (stack.scopes.push (.opened base))).ledger = [] :: stack.ledger := by
  rw [ledger, Array.toList_push, List.mapIdx_concat, List.reverse_concat]
  rfl

theorem ledger_popScope (stack : ScopeStack) : stack.popScope.ledger = stack.ledger.tail := by
  rw [ledger, ledger, popScope, Array.toList_pop, List.tail_reverse]
  congr 1
  refine List.ext_getElem? fun index => ?_
  simp only [List.getElem?_mapIdx, List.getElem?_dropLast, List.length_mapIdx]
  split <;> rfl

theorem ledger_setInnermost (stack : ScopeStack) (scope : Scope) :
    (stack.setInnermost scope).ledger = creations (stack.scopes.size - 1) scope.bindings :: stack.ledger.tail := by
  rw [setInnermost, ← ledger_popScope, ledger, Array.toList_push, List.mapIdx_concat, List.reverse_concat]
  simp [popScope, ledger]

theorem creations_push (index : Nat) (bindings : Array Variable) (name : String) (value : Value) :
    creations index (bindings.push ⟨name, value⟩) =
      ⟨name, ⟨index, bindings.size⟩, value⟩ :: creations index bindings := by
  rw [creations, Array.toList_push, List.mapIdx_concat, List.reverse_concat, Array.length_toList]
  rfl

theorem ledger_of_innermost (here : stack.innermost? = some innermost) :
    stack.ledger = creations (stack.scopes.size - 1) innermost.bindings :: stack.ledger.tail := by
  have same : stack.SameVariables (stack.setInnermost innermost) := sameVariables_setInnermost here rfl
  rw [← ledger_congr same, ledger_setInnermost, List.tail_cons]

theorem ledger_createVariable {value : Value} {ceiling : Nat}
    (made : stack.createVariable name value ceiling = .ok (place, other)) :
    other.ledger = stack.ledger.modifyHead (⟨name, place, value⟩ :: ·) := by
  cases here : stack.innermost? with
  | none => simp [createVariable, here] at made
  | some innermost =>
      simp only [createVariable, here] at made
      split at made
      · cases made
      · obtain ⟨rfl, rfl⟩ := Prod.mk.inj (Except.ok.inj made)
        rw [ledger_setInnermost, creations_push, ledger_of_innermost here]
        rfl

theorem creations_modify (scope index : Nat) (bindings : Array Variable) (value : Value) :
    creations scope (bindings.modify index ({ · with value })) =
      (creations scope bindings).map (Ledger.assign ⟨scope, index⟩ value) := by
  rw [creations, creations, List.map_reverse]
  congr 1
  refine List.ext_getElem? fun position => ?_
  rw [List.getElem?_mapIdx, List.getElem?_map, List.getElem?_mapIdx, Array.toList_modify, List.getElem?_modify]
  cases bindings.toList[position]? with
  | none => rfl
  | some binding =>
      by_cases here : index = position
      · simp [here, created, Ledger.assign]
      · simp [here, Ne.symm here, created, Ledger.assign]

theorem mem_creations {scope : Nat} {bindings : Array Variable} {creation : Creation} :
    creation ∈ creations scope bindings ↔
      ∃ index binding, bindings[index]? = some binding ∧ creation = created scope index binding := by
  rw [creations, List.mem_reverse, List.mem_iff_getElem?]
  simp only [List.getElem?_mapIdx, Array.getElem?_toList, Option.map_eq_some_iff, @eq_comm _ creation]

/-- A store to a variable of another scope leaves these as they are. -/
theorem creations_assign {scope : Nat} (other_scope : place.scope ≠ scope) (bindings : Array Variable) (value : Value) :
    (creations scope bindings).map (Ledger.assign place value) = creations scope bindings := by
  refine (List.map_congr_left fun creation mem => ?_).trans (List.map_id _)
  obtain ⟨index, binding, -, rfl⟩ := mem_creations.mp mem
  refine if_neg ?_
  rintro rfl
  exact other_scope rfl

theorem ledger_setVariable (stack : ScopeStack) (place : VariableRef) (value : Value) :
    (stack.setVariable place value).ledger = stack.ledger.map (·.map (Ledger.assign place value)) := by
  refine List.reverse_injective (List.ext_getElem? fun index => ?_)
  rw [← List.map_reverse, List.getElem?_map, getElem?_reverse_ledger, getElem?_reverse_ledger, setVariable,
    Array.getElem?_modify, Option.map_map]
  by_cases here : place.scope = index
  · subst here
    rw [if_pos rfl, Option.map_map]
    exact congrArg (Option.map · _) (funext fun scope => creations_modify _ _ _ _)
  · rw [if_neg here]
    exact congrArg (Option.map · _) (funext fun scope => (creations_assign here _ _).symm)

/-- An operation does to the ledger what its answer says. -/
theorem ledger_run (stack : ScopeStack) (operation : ScopeOperation) :
    (operation.run stack).2.ledger = stack.ledger.record operation (operation.run stack).1 := by
  cases operation with
  | pushScope ceiling =>
      rw [ScopeOperation.run]
      cases pushed : stack.pushScope ceiling with
      | error error => rfl
      | ok opened =>
          rw [pushScope] at pushed
          split at pushed
          · cases pushed
          · obtain rfl := Except.ok.inj pushed
            exact ledger_pushScope stack _
  | popScope => exact ledger_popScope stack
  | createVariable name value ceiling =>
      rw [ScopeOperation.run]
      cases made : stack.createVariable name value ceiling with
      | error error => rfl
      | ok after => exact ledger_createVariable made
  | setVariable place value => exact ledger_setVariable stack place value
  | pushBranch action address ceiling =>
      rw [ScopeOperation.run]
      cases pushed : stack.pushBranch action address ceiling with
      | error error => rfl
      | ok after => exact ledger_congr (sameVariables_pushBranch pushed)
  | popBranch => exact ledger_congr (sameVariables_popBranch stack)
  | setAction action => exact ledger_congr (sameVariables_modifyBranches stack _)
  | breakLoop => exact ledger_congr (sameVariables_breakLoop stack)
  | continueLoop => exact ledger_congr (sameVariables_continueLoop stack)

theorem ledger_performAll (operations : List ScopeOperation) :
    (performAll operations).2 = (performAll operations).1.ledger := by
  induction operations using List.reverseRecOn with
  | nil => rfl
  | append_singleton operations operation ih =>
      rw [performAll, List.foldl_append, ← performAll, List.foldl_cons, List.foldl_nil, perform, ih]
      exact (ledger_run _ operation).symm

/-- The latest variable of a name is the first one of the ledger. -/
theorem find?_creations (index : Nat) (scope : Scope) (name : String) :
    (scope.find? name).map (VariableRef.mk index) =
      (Ledger.latest? name (creations index scope.bindings)).map (·.place) := by
  have below (count : Nat) (within : count ≤ scope.bindings.size) :
      (scope.findBelow name count).map (VariableRef.mk index) =
        (Ledger.latest? name ((scope.bindings.toList.take count).mapIdx (created index)).reverse).map (·.place) := by
    induction count with
    | zero => rfl
    | succ count ih =>
        have here : count < scope.bindings.toList.length := within
        rw [List.take_succ_eq_append_getElem here, List.mapIdx_concat, List.reverse_concat, Ledger.latest?,
          List.find?_cons, Scope.findBelow, Array.getElem?_eq_getElem within, Option.any_some,
          List.length_take_of_le (Nat.le_of_lt here), Array.getElem_toList, created]
        cases scope.bindings[count].name == name with
        | true => rfl
        | false => exact ih (Nat.le_of_lt within)
  rw [Scope.find?, below _ le_rfl, creations, ← Array.length_toList, List.take_length]

theorem head?_ledger (stack : ScopeStack) : stack.ledger.head? =
    stack.scopes[stack.scopes.size - 1]?.map fun scope => creations (stack.scopes.size - 1) scope.bindings := by
  rw [ledger, List.head?_reverse, List.getLast?_eq_getElem?, List.getElem?_mapIdx, List.length_mapIdx,
    Array.length_toList, Array.getElem?_toList]

theorem getLast?_ledger (stack : ScopeStack) :
    stack.ledger.getLast? = stack.scopes[0]?.map fun scope => creations 0 scope.bindings := by
  rw [ledger, List.getLast?_reverse, List.head?_eq_getElem?, List.getElem?_mapIdx, Array.getElem?_toList]

/-- The latest variable of a name in one scope. -/
theorem find?_scope (stack : ScopeStack) (index : Nat) (name : String) :
    (stack.scopes[index]?.bind (·.find? name)).map (VariableRef.mk index) =
      ((stack.scopes[index]?.map fun scope => creations index scope.bindings).bind
        (Ledger.latest? name)).map (·.place) := by
  cases stack.scopes[index]? with
  | none => rfl
  | some scope => exact find?_creations index scope name

theorem find?_ledger (stack : ScopeStack) (name : String) :
    stack.find? name = (stack.ledger.find? name).map (·.place) := by
  rw [Ledger.find?, head?_ledger, getLast?_ledger, Option.map_or, ← find?_scope, ← find?_scope, find?, current?]
  by_cases none_open : stack.scopes.isEmpty = true
  · have empty : stack.scopes = #[] := Array.isEmpty_iff.mp none_open
    simp [empty]
  · rw [if_neg none_open]

theorem mem_ledger {index : Nat} {entries : List Creation} (here : stack.ledger.reverse[index]? = some entries) :
    ∃ scope, stack.scopes[index]? = some scope ∧ entries = creations index scope.bindings := by
  rw [getElem?_reverse_ledger] at here
  obtain ⟨scope, there, rfl⟩ := Option.map_eq_some_iff.mp here
  exact ⟨scope, there, rfl⟩

theorem variableAt?_ledger {creation : Creation} (mem : creation ∈ stack.ledger.flatten) :
    stack.variableAt? creation.place = some ⟨creation.name, creation.value⟩ := by
  obtain ⟨entries, in_ledger, in_scope⟩ := List.mem_flatten.mp mem
  obtain ⟨index, here⟩ := List.mem_iff_getElem?.mp (List.mem_reverse.mpr in_ledger)
  obtain ⟨scope, there, rfl⟩ := mem_ledger here
  obtain ⟨position, binding, bound, rfl⟩ := mem_creations.mp in_scope
  rw [variableAt?, created, there]
  exact bound

theorem pairwise_creations (scope : Nat) (bindings : Array Variable) :
    (creations scope bindings).Pairwise fun later earlier => later.place ≠ earlier.place := by
  rw [creations, List.pairwise_reverse, List.pairwise_iff_getElem]
  intro earlier later _ _ before
  simp only [List.getElem_mapIdx, created]
  intro same
  have := congrArg VariableRef.index same
  simp only at this
  omega

theorem pairwise_ledger (stack : ScopeStack) :
    stack.ledger.flatten.Pairwise fun later earlier => later.place ≠ earlier.place := by
  refine List.pairwise_flatten.mpr ⟨fun entries mem => ?_, ?_⟩
  · obtain ⟨index, here⟩ := List.mem_iff_getElem?.mp (List.mem_reverse.mpr mem)
    obtain ⟨scope, -, rfl⟩ := mem_ledger here
    exact pairwise_creations index scope.bindings
  · rw [ledger, List.pairwise_reverse, List.pairwise_iff_getElem]
    intro outer inner _ _ below creation mem creation' mem' same
    rw [List.getElem_mapIdx] at mem mem'
    obtain ⟨_, _, -, rfl⟩ := mem_creations.mp mem
    obtain ⟨_, _, -, rfl⟩ := mem_creations.mp mem'
    have := congrArg VariableRef.scope same
    simp only [created] at this
    omega

theorem follows_ledger (stack : ScopeStack) : stack.Follows stack.ledger where
  depth := (length_ledger _).symm
  find? := find?_ledger _
  outer _ _ found := Framed.visible_of_find? found
  scope index entries here creation mem := by
    obtain ⟨scope, -, rfl⟩ := mem_ledger here
    obtain ⟨_, _, -, rfl⟩ := mem_creations.mp mem
    rfl
  apart := pairwise_ledger _
  reads _ mem := variableAt?_ledger mem

/-- For each open scope, the innermost first, a table of where the latest variable of each name is.
    A new variable takes the place of the one of its name. -/
abbrev NameTables := List (Std.HashMap String Nat)

/-- The tables after an operation, from its answer alone. -/
def NameTables.record (tables : NameTables) : ScopeOperation → ScopeAnswer → NameTables
  | .pushScope _, .done => ∅ :: tables
  | .popScope, _ => tables.tail
  | .createVariable name _ _, .created place => tables.modifyHead (·.insert name place.index)
  | _, _ => tables

/-- What a name means by the tables: one look into that of the innermost scope and one into
    that of the global scope. -/
def NameTables.find? (tables : NameTables) (name : String) : Option VariableRef :=
  ((tables.head?.bind (·[name]?)).map (VariableRef.mk (tables.length - 1))).or
    ((tables.getLast?.bind (·[name]?)).map (VariableRef.mk 0))

/-- Carry out an operation and keep the tables. -/
def tabulate (state : ScopeStack × NameTables) (operation : ScopeOperation) : ScopeStack × NameTables :=
  let (answer, after) := operation.run state.1
  (after, NameTables.record state.2 operation answer)

/-- The tables after operations, the first one first. -/
def tablesAfter (operations : List ScopeOperation) : NameTables :=
  (operations.foldl tabulate (.empty, [])).2

/-- A table tells where the latest variables of a scope are. -/
def Tabulates (creations : List Creation) (table : Std.HashMap String Nat) : Prop :=
  ∀ name : String, table[name]? = (Ledger.latest? name creations).map (·.place.index)

theorem Tabulates.assign {creations : List Creation} {table : Std.HashMap String Nat}
    (tabulates : Tabulates creations table) (place : VariableRef) (value : Value) :
    Tabulates (creations.map (Ledger.assign place value)) table := by
  intro name
  rw [tabulates name, Ledger.latest?, Ledger.latest?, List.find?_map, Option.map_map]
  have same_name : (fun creation : Creation => creation.name == name) ∘ Ledger.assign place value =
      (·.name == name) := by
    funext creation
    simp only [Function.comp_apply, Ledger.assign]
    split <;> rfl
  have same_place : (·.place.index) ∘ Ledger.assign place value = (·.place.index) := by
    funext creation
    simp only [Function.comp_apply, Ledger.assign]
    split <;> rfl
  rw [same_name, same_place]

theorem Tabulates.create {creations : List Creation} {table : Std.HashMap String Nat}
    (tabulates : Tabulates creations table) (creation : Creation) :
    Tabulates (creation :: creations) (table.insert creation.name creation.place.index) := by
  intro name
  rw [Std.HashMap.getElem?_insert, Ledger.latest?, List.find?_cons, tabulates name]
  cases creation.name == name with
  | true => rfl
  | false => rfl

theorem tabulate_record {ledger : Ledger} {tables : NameTables} (tabulated : List.Forall₂ Tabulates ledger tables)
    (operation : ScopeOperation) (answer : ScopeAnswer) :
    List.Forall₂ Tabulates (ledger.record operation answer) (NameTables.record tables operation answer) := by
  cases operation with
  | pushScope ceiling =>
      cases answer with
      | done => exact .cons (fun name => by simp [Ledger.latest?]) tabulated
      | refused | created place => exact tabulated
  | popScope =>
      cases tabulated with
      | nil => exact .nil
      | cons _ rest => exact rest
  | createVariable name value ceiling =>
      cases answer with
      | created place =>
          cases tabulated with
          | nil => exact .nil
          | cons first rest => exact .cons (first.create ⟨name, place, value⟩) rest
      | refused | done => exact tabulated
  | setVariable place value =>
      exact List.forall₂_map_left_iff.mpr (tabulated.imp fun _ _ tabulates => tabulates.assign place value)
  | pushBranch _ _ _ | popBranch | setAction _ | breakLoop | continueLoop => exact tabulated

/-- The tables are kept beside the same scopes and tell what the ledger does. -/
theorem tabulated_performAll (operations : List ScopeOperation) :
    (operations.foldl tabulate (.empty, [])).1 = (performAll operations).1 ∧
      List.Forall₂ Tabulates (performAll operations).2 (tablesAfter operations) := by
  induction operations using List.reverseRecOn with
  | nil => exact ⟨rfl, .nil⟩
  | append_singleton operations operation ih =>
      rw [performAll, tablesAfter, List.foldl_append, List.foldl_append, ← performAll, List.foldl_cons,
        List.foldl_cons, List.foldl_nil, List.foldl_nil, perform, tabulate, ih.1, ← tablesAfter]
      exact ⟨rfl, tabulate_record ih.2 operation _⟩

theorem head?_tables {ledger : Ledger} {tables : NameTables} (tabulated : List.Forall₂ Tabulates ledger tables)
    (name : String) :
    tables.head?.bind (·[name]?) = (ledger.head?.bind (Ledger.latest? name)).map (·.place.index) := by
  cases tabulated with
  | nil => rfl
  | cons first _ => exact first name

theorem getLast?_tables {ledger : Ledger} {tables : NameTables} (tabulated : List.Forall₂ Tabulates ledger tables)
    (name : String) :
    tables.getLast?.bind (·[name]?) = (ledger.getLast?.bind (Ledger.latest? name)).map (·.place.index) := by
  rw [List.getLast?_eq_head?_reverse, List.getLast?_eq_head?_reverse]
  exact head?_tables (List.forall₂_reverse_iff.mpr tabulated) name

/-- The place of a variable from its index in a scope. -/
theorem place_latest? (stack : ScopeStack) (index : Nat) (name : String) :
    ((stack.scopes[index]?.map fun scope => creations index scope.bindings).bind (Ledger.latest? name)).map (·.place) =
      (((stack.scopes[index]?.map fun scope => creations index scope.bindings).bind
        (Ledger.latest? name)).map (·.place.index)).map (VariableRef.mk index) := by
  cases stack.scopes[index]? with
  | none => rfl
  | some scope =>
      rw [Option.map_some, Option.bind_some]
      cases latest : Ledger.latest? name (creations index scope.bindings) with
      | none => rfl
      | some creation =>
          obtain ⟨_, _, -, rfl⟩ := mem_creations.mp (List.mem_of_find?_eq_some latest)
          rfl

theorem find?_tables {tables : NameTables} (tabulated : List.Forall₂ Tabulates stack.ledger tables) (name : String) :
    stack.find? name = tables.find? name := by
  rw [find?_ledger, Ledger.find?, Option.map_or, NameTables.find?, head?_tables tabulated, getLast?_tables tabulated,
    ← tabulated.length_eq, length_ledger, head?_ledger, getLast?_ledger, place_latest?, place_latest?]
  rfl

/-- What is known of the scopes after any operations agrees with what is found there, whether the
    variables of a scope are searched or its table of names is kept. -/
theorem follows_performAll (operations : List ScopeOperation) :
    (performAll operations).1.Follows (performAll operations).2 ∧
      ∀ name, (performAll operations).1.find? name = (tablesAfter operations).find? name := by
  have tabulated := (tabulated_performAll operations).2
  rw [ledger_performAll] at tabulated ⊢
  exact ⟨follows_ledger _, find?_tables tabulated⟩

end ScopeStack

end PocketScript
