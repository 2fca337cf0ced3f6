import PocketScript.Memory.Sequence
import PocketScript.Proofs.Renaming.Heaps

/-! # Memory alike but for handles

Two memories hold the same in the same places, under handles that go together. An
operation carries such memories along if it comes to the same on both, but for
handles, also when it is refused. All operations on memory do, since none of them
looks at what a handle is made of.
-/

namespace PocketScript

section Couples

variable {ε σ α β γ δ : Type} {states : σ → σ → Prop} {fault : ε → ε} {rename : α → β}
  {rename' : γ → δ}

/-- The results, or the errors, go together, and so do the states. -/
inductive Coupled (states : σ → σ → Prop) (fault : ε → ε) (rename : α → β) :
    EStateM.Result ε σ α → EStateM.Result ε σ β → Prop where
  | ok {result : α} {result' : β} {state other : σ} (same : result' = rename result) (related : states state other) :
      Coupled states fault rename (.ok result state) (.ok result' other)
  | error {error error' : ε} {state other : σ} (same : error' = fault error) (related : states state other) :
      Coupled states fault rename (.error error state) (.error error' other)

/-- From states that are related, both computations come to the same. -/
def Couples (states : σ → σ → Prop) (fault : ε → ε) (rename : α → β) (first : EStateM ε σ α)
    (second : EStateM ε σ β) : Prop :=
  ∀ state other, states state other → Coupled states fault rename (first state) (second other)

namespace Couples

variable {first : EStateM ε σ α} {second : EStateM ε σ β}

theorem bind {next : α → EStateM ε σ γ} {next' : β → EStateM ε σ δ}
    (couples : Couples states fault rename first second)
    (rest : ∀ result, Couples states fault rename' (next result) (next' (rename result))) :
    Couples states fault rename' (first >>= next) (second >>= next') := by
  intro state other related
  have here := couples state other related
  simp only [Bind.bind, EStateM.bind]
  generalize first state = ran, second other = ran' at here ⊢
  cases here with
  | ok same related =>
      subst same
      exact rest _ _ _ related
  | error same related => exact .error same related

theorem pure {result : α} {result' : β} (same : result' = rename result) :
    Couples states fault rename (Pure.pure result) (Pure.pure result') :=
  fun _ _ related => .ok same related

theorem throw {error error' : ε} (same : error' = fault error) :
    Couples states fault rename (MonadExcept.throw error) (MonadExcept.throw error') :=
  fun _ _ related => .error same related

theorem get_bind {next : σ → EStateM ε σ α} {next' : σ → EStateM ε σ β}
    (rest : ∀ state other, states state other → Couples states fault rename (next state) (next' other)) :
    Couples states fault rename (get >>= next) (get >>= next') :=
  fun state other related => rest state other related state other related

theorem modify {change change' : σ → σ}
    (keeps : ∀ state other, states state other → states (change state) (change' other)) :
    Couples states fault id (modify change : EStateM ε σ Unit) (modify change') :=
  fun state other related => .ok rfl (keeps state other related)

end Couples

end Couples

namespace Renaming

variable (names : Renaming)

def binding (binding : Variable) : Variable :=
  { binding with value := names.value binding.value }

def scope (scope : Scope) : Scope :=
  { scope with bindings := scope.bindings.map names.binding }

def stack (stack : ScopeStack) : ScopeStack :=
  ⟨stack.scopes.map names.scope⟩

def root : Root → Root
  | .value value => .value (names.value value)
  | .values values => .values (values.map names.value)
  | .scope index => .scope index

def roots (roots : Roots) : Roots :=
  roots.map names.root

/-- Changing an entry before or after all are renamed. -/
theorem modify_map {α : Type} {rename : α → α} {change change' : α → α}
    (same : ∀ entry, change' (rename entry) = rename (change entry)) (entries : Array α) (index : Nat) :
    (entries.map rename).modify index change' = (entries.modify index change).map rename := by
  refine Array.ext_getElem? fun found => ?_
  simp only [Array.getElem?_modify, Array.getElem?_map]
  split
  · cases entries[found]? <;> simp [same]
  · rfl

@[simp]
theorem innermost?_stack (stack : ScopeStack) :
    (names.stack stack).innermost? = stack.innermost?.map names.scope := by
  simp [ScopeStack.innermost?, Renaming.stack]

@[simp]
theorem boundary_stack (stack : ScopeStack) : (names.stack stack).boundary = stack.boundary := by
  rw [ScopeStack.boundary, ScopeStack.boundary, innermost?_stack]
  cases stack.innermost? <;> rfl

@[simp]
theorem size_stack (stack : ScopeStack) : (names.stack stack).scopes.size = stack.scopes.size := by
  simp [Renaming.stack]

@[simp]
theorem isGlobal_stack (stack : ScopeStack) : (names.stack stack).isGlobal = stack.isGlobal := by
  simp [ScopeStack.isGlobal]

@[simp]
theorem branch?_stack (stack : ScopeStack) : (names.stack stack).branch? = stack.branch? := by
  rw [ScopeStack.branch?, ScopeStack.branch?, innermost?_stack]
  cases stack.innermost? <;> rfl

@[simp]
theorem action_stack (stack : ScopeStack) : (names.stack stack).action = stack.action := by
  rw [ScopeStack.action, ScopeStack.action, branch?_stack]

theorem find?_scope (scope : Scope) (name : String) : (names.scope scope).find? name = scope.find? name := by
  have below (count : Nat) : (names.scope scope).findBelow name count = scope.findBelow name count := by
    induction count with
    | zero => rfl
    | succ index ih =>
        rw [Scope.findBelow, Scope.findBelow, ih]
        simp [Renaming.scope, Renaming.binding, Option.any_map]
  rw [Scope.find?, Scope.find?, below]
  simp [Renaming.scope]

@[simp]
theorem find?_stack (stack : ScopeStack) (name : String) : (names.stack stack).find? name = stack.find? name := by
  have inScope (scope : Nat) : (names.stack stack).scopes[scope]?.bind (·.find? name) =
      stack.scopes[scope]?.bind (·.find? name) := by
    simp only [Renaming.stack, Array.getElem?_map, Option.bind_map, Function.comp_def, find?_scope]
  have current : (names.stack stack).current? = stack.current? := by
    simp [ScopeStack.current?, Renaming.stack]
  simp only [ScopeStack.find?, current, inScope]

@[simp]
theorem variableAt?_stack (stack : ScopeStack) (place : VariableRef) :
    (names.stack stack).variableAt? place = (stack.variableAt? place).map names.binding := by
  simp only [ScopeStack.variableAt?, Renaming.stack, Array.getElem?_map]
  cases stack.scopes[place.scope]? with
  | none => rfl
  | some scope => simp [Renaming.scope]

theorem setInnermost_stack (stack : ScopeStack) (scope : Scope) :
    (names.stack stack).setInnermost (names.scope scope) = names.stack (stack.setInnermost scope) := by
  simp [ScopeStack.setInnermost, Renaming.stack]

theorem popScope_stack (stack : ScopeStack) : (names.stack stack).popScope = names.stack stack.popScope := by
  simp [ScopeStack.popScope, Renaming.stack]

theorem modifyBranches_stack (stack : ScopeStack) (change : List Branch → List Branch) :
    (names.stack stack).modifyBranches change = names.stack (stack.modifyBranches change) := by
  rw [ScopeStack.modifyBranches, ScopeStack.modifyBranches, innermost?_stack]
  cases stack.innermost? with
  | none => rfl
  | some scope => exact setInnermost_stack names stack { scope with branches := change scope.branches }

theorem setAction_stack (stack : ScopeStack) (action : BranchAction) :
    (names.stack stack).setAction action = names.stack (stack.setAction action) :=
  modifyBranches_stack names stack _

theorem popBranch_stack (stack : ScopeStack) :
    (names.stack stack).popBranch = Prod.map id names.stack stack.popBranch := by
  rw [ScopeStack.popBranch, ScopeStack.popBranch, innermost?_stack]
  cases stack.innermost? with
  | none => rfl
  | some scope =>
      have branches : (names.scope scope).branches = scope.branches := rfl
      simp only [Option.map_some, branches]
      split
      · next next outer _ =>
        exact congrArg _ (setInnermost_stack names stack { scope with branches := next :: outer })
      · rfl

theorem breakLoop_stack (stack : ScopeStack) :
    (names.stack stack).breakLoop = Prod.map id names.stack stack.breakLoop := by
  rw [ScopeStack.breakLoop, ScopeStack.breakLoop, innermost?_stack]
  cases stack.innermost? with
  | none => rfl
  | some scope =>
      exact congrArg _ (setInnermost_stack names stack { scope with branches := (Scope.breakLoop scope.branches).1 })

theorem continueLoop_stack (stack : ScopeStack) :
    (names.stack stack).continueLoop = Prod.map id names.stack stack.continueLoop := by
  rw [ScopeStack.continueLoop, ScopeStack.continueLoop, innermost?_stack]
  cases stack.innermost? with
  | none => rfl
  | some scope =>
      exact congrArg _
        (setInnermost_stack names stack { scope with branches := (Scope.continueLoop scope.branches).1 })

theorem setVariable_stack (stack : ScopeStack) (place : VariableRef) (value : Value) :
    (names.stack stack).setVariable place (names.value value) = names.stack (stack.setVariable place value) := by
  simp only [ScopeStack.setVariable, Renaming.stack, ScopeStack.mk.injEq]
  refine modify_map (fun scope => ?_) stack.scopes place.scope
  simp only [Renaming.scope, Scope.mk.injEq, true_and, and_true]
  exact modify_map (fun binding => (rfl : _ = names.binding { binding with value })) scope.bindings place.index

theorem pushScope_stack (stack : ScopeStack) (ceiling : Nat) :
    (names.stack stack).pushScope ceiling = (stack.pushScope ceiling).map (Prod.map id names.stack) := by
  simp only [ScopeStack.pushScope, boundary_stack, size_stack]
  split
  · rfl
  · simp [Except.map, Renaming.stack, Renaming.scope, Scope.opened]

theorem createVariable_stack (stack : ScopeStack) (name : String) (value : Value) (ceiling : Nat) :
    (names.stack stack).createVariable name (names.value value) ceiling =
      (stack.createVariable name value ceiling).map (Prod.map id names.stack) := by
  rw [ScopeStack.createVariable, ScopeStack.createVariable, innermost?_stack]
  cases stack.innermost? with
  | none => rfl
  | some scope =>
      have top : (names.scope scope).top = scope.top := rfl
      simp only [Option.map_some, top, size_stack]
      split
      · rfl
      · simp only [Except.map, Prod.map, ← setInnermost_stack]
        simp [Renaming.scope, Renaming.binding]

theorem pushBranch_stack (stack : ScopeStack) (action : BranchAction) (address : Address) (ceiling : Nat) :
    (names.stack stack).pushBranch action address ceiling =
      (stack.pushBranch action address ceiling).map names.stack := by
  rw [ScopeStack.pushBranch, ScopeStack.pushBranch, innermost?_stack]
  cases stack.innermost? with
  | none => rfl
  | some scope =>
      have top : (names.scope scope).top = scope.top := rfl
      have branches : (names.scope scope).branches = scope.branches := rfl
      have records : (names.scope scope).records = scope.records := rfl
      simp only [Option.map_some, top, branches, records]
      split
      · simp only [Except.map, ← setInnermost_stack]
        rfl
      split
      · rfl
      · simp only [Except.map, ← setInnermost_stack]
        rfl

theorem track_roots (roots : Roots) (value : Value) :
    (names.roots roots).track (names.value value) = names.roots (roots.track value) := by
  rw [Roots.track, Roots.track, cell?_value, Option.isSome_map]
  split
  · simp [Renaming.roots, Renaming.root]
  · rfl

theorem trackIn_roots (roots : Roots) (index : Nat) (value : Value) :
    (names.roots roots).trackIn index (names.value value) = names.roots (roots.trackIn index value) := by
  refine modify_map (fun root => ?_) roots index
  cases root <;> simp [Renaming.root]

theorem release_roots (roots : Roots) (mark : Nat) :
    (names.roots roots).release mark = names.roots (roots.release mark) := by
  simp [Roots.release, Renaming.roots]

end Renaming

namespace Memory

variable {names : Renaming} {memory other : Memory} {α β : Type} {rename : α → β}

/-- Two memories alike but for handles. -/
structure Renamed (names : Renaming) (memory other : Memory) : Prop where
  heap : memory.heap.Renamed names other.heap
  stack : other.stack = names.stack memory.stack
  roots : other.roots = names.roots memory.roots

namespace Renamed

theorem withHeap (renamed : Renamed names memory other) {heap heap' : Heap} (alike : heap.Renamed names heap') :
    Renamed names { memory with heap } { other with heap := heap' } :=
  ⟨alike, renamed.stack, renamed.roots⟩

theorem withStack (renamed : Renamed names memory other) {stack stack' : ScopeStack}
    (same : stack' = names.stack stack) :
    Renamed names { memory with stack } { other with stack := stack' } :=
  ⟨renamed.heap, same, renamed.roots⟩

theorem withRoots (renamed : Renamed names memory other) {roots roots' : Roots} (same : roots' = names.roots roots) :
    Renamed names { memory with roots } { other with roots := roots' } :=
  ⟨renamed.heap, renamed.stack, same⟩

theorem object (renamed : Renamed names memory other) (cell : Handle) :
    (other.heap.target? (names.handle cell)).bind other.heap.get? =
      ((memory.heap.target? cell).bind memory.heap.get?).map names.object := by
  rw [renamed.heap.target?]
  cases memory.heap.target? cell with
  | none => rfl
  | some object => exact renamed.heap.get? object

theorem payload (renamed : Renamed names memory other) (cell : Handle) :
    other.payload (names.handle cell) = (memory.payload cell).map names.payload := by
  rw [Memory.payload, Memory.payload, renamed.object]
  cases (memory.heap.target? cell).bind memory.heap.get? <;> rfl

theorem capacity (renamed : Renamed names memory other) (cell : Handle) :
    other.capacity (names.handle cell) = memory.capacity cell := by
  rw [Memory.capacity, Memory.capacity, renamed.object]
  cases (memory.heap.target? cell).bind memory.heap.get? <;> rfl

theorem string (renamed : Renamed names memory other) (cell : Handle) :
    other.string (names.handle cell) = memory.string cell := by
  rw [Memory.string, Memory.string, renamed.payload]
  cases memory.payload cell with
  | error error => rfl
  | ok payload => cases payload <;> rfl

theorem list (renamed : Renamed names memory other) (cell : Handle) :
    other.list (names.handle cell) = (memory.list cell).map (List.map names.value) := by
  rw [Memory.list, Memory.list, renamed.payload]
  cases memory.payload cell with
  | error error => rfl
  | ok payload => cases payload <;> rfl

theorem length (renamed : Renamed names memory other) (value : Value) :
    other.length (names.value value) = memory.length value := by
  cases value with
  | missing | number _ | function _ => rfl
  | string cell => rw [Renaming.value_string, Memory.length, Memory.length, renamed.string]
  | list cell =>
      rw [Renaming.value_list, Memory.length, Memory.length, renamed.list]
      cases memory.list cell <;> simp [Except.map]

theorem byte (renamed : Renamed names memory other) (cell : Handle) (index : Nat) :
    other.byte (names.handle cell) index = memory.byte cell index := by
  rw [Memory.byte, Memory.byte, renamed.string]

theorem element (renamed : Renamed names memory other) (cell : Handle) (index : Nat) :
    other.element (names.handle cell) index = (memory.element cell index).map names.value := by
  rw [Memory.element, Memory.element, renamed.list]
  cases memory.list cell with
  | error error => rfl
  | ok values =>
      simp only [Except.map, bind, Except.bind, List.getElem?_map]
      cases values[index]? <;> rfl

theorem variableValue? (renamed : Renamed names memory other) (place : VariableRef) :
    other.variableValue? place = (memory.variableValue? place).map names.value := by
  rw [Memory.variableValue?, Memory.variableValue?, renamed.stack, Renaming.variableAt?_stack]
  cases memory.stack.variableAt? place <;> rfl

theorem rootValues (renamed : Renamed names memory other) (root : Root) :
    other.rootValues (names.root root) = (memory.rootValues root).map names.value := by
  cases root with
  | value value => rfl
  | values values => rfl
  | scope index =>
      rw [Renaming.root, Memory.rootValues, Memory.rootValues, renamed.stack, Renaming.stack, Array.getElem?_map]
      cases memory.stack.scopes[index]? with
      | none => rfl
      | some scope => simp [Renaming.scope, Renaming.binding]

theorem collect (renamed : Renamed names memory other) : Renamed names memory.collect.2 other.collect.2 := by
  have values : (other.roots.toList.flatMap other.rootValues).reverse =
      (memory.roots.toList.flatMap memory.rootValues).reverse.map names.value := by
    rw [renamed.roots, Renaming.roots, Array.toList_map, List.flatMap_map, List.map_reverse, List.map_flatMap]
    simp only [renamed.rootValues]
  have swept := (renamed.heap.clearMarks.markAll (memory.roots.toList.flatMap memory.rootValues).reverse).sweep
  rw [← values] at swept
  exact renamed.withHeap swept

end Renamed

/-- An operation that comes to the same, but for handles. -/
abbrev Carries (names : Renaming) (rename : α → β) (first : MemoryM α) (second : MemoryM β) : Prop :=
  Couples (Renamed names) id rename first second

theorem carries_look {view : Memory → Except MemoryError α} {view' : Memory → Except MemoryError β}
    (same : ∀ memory other, Renamed names memory other → view' other = (view memory).map rename) :
    Carries names rename (look view) (look view') := by
  intro memory other renamed
  rw [look, look, same memory other renamed]
  cases view memory with
  | error error => exact .error rfl renamed
  | ok result => exact .ok rfl renamed

/-- Looking up something without handles. -/
theorem carries_lookSame {view view' : Memory → Except MemoryError α}
    (same : ∀ memory other, Renamed names memory other → view' other = view memory) :
    Carries names id (look view) (look view') := by
  refine carries_look fun memory other renamed => ?_
  rw [same memory other renamed]
  cases view memory <;> rfl

theorem carries_onHeap {operation operation' : Heap → Nat → Except MemoryError (Handle × Heap)}
    (placed : ∀ heap other floor, Heap.Renamed names heap other →
      Heap.Placed names (Heap.Renamed names) (operation heap floor) (operation' other floor)) :
    Carries names names.handle (onHeap operation) (onHeap operation') := by
  intro memory other renamed
  have here := placed memory.heap other.heap memory.stack.boundary renamed.heap
  rw [onHeap, onHeap, renamed.stack, Renaming.boundary_stack, ← renamed.stack]
  generalize operation _ _ = ran, operation' _ _ = ran' at here
  cases here with
  | error error => exact .error rfl renamed
  | ok alike => exact .ok rfl (renamed.withHeap alike)

theorem carries_onStack {operation operation' : ScopeStack → Nat → Except MemoryError (α × ScopeStack)}
    (same : ∀ stack ceiling,
      operation' (names.stack stack) ceiling = (operation stack ceiling).map (Prod.map id names.stack)) :
    Carries names id (onStack operation) (onStack operation') := by
  intro memory other renamed
  rw [onStack, onStack, renamed.heap.boundary, renamed.stack, same]
  cases operation memory.stack memory.heap.boundary with
  | error error => exact .error rfl renamed
  | ok result => exact .ok rfl (renamed.withStack rfl)

theorem carries_allocate (size : Nat) (payload : Payload) :
    Carries names names.handle (allocate size payload) (allocate size (names.payload payload)) :=
  carries_onHeap fun _ _ floor renamed => renamed.allocate size payload floor

theorem carries_resize (handle : Handle) (size : Nat) :
    Carries names names.handle (resize handle size) (resize (names.handle handle) size) :=
  carries_onHeap fun _ _ floor renamed => renamed.resize handle size floor

theorem carries_setTarget (cell object : Handle) :
    Carries names id (setTarget cell object) (setTarget (names.handle cell) (names.handle object)) :=
  .modify fun _ _ renamed => renamed.withHeap (renamed.heap.setTarget cell object)

theorem carries_setPayload (cell : Handle) (payload : Payload) :
    Carries names id (setPayload cell payload) (setPayload (names.handle cell) (names.payload payload)) := by
  refine .modify fun memory other renamed => ?_
  rw [renamed.heap.target?]
  cases memory.heap.target? cell with
  | none => exact renamed
  | some object => exact renamed.withHeap (renamed.heap.setPayload object payload)

theorem carries_createSequence (size : Nat) (payload : Payload) :
    Carries names names.handle (createSequence size payload) (createSequence size (names.payload payload)) :=
  (carries_allocate pointerSize (.target .dangling)).bind fun cell =>
    (carries_allocate size payload).bind fun object => (carries_setTarget cell object).bind fun _ => .pure rfl

theorem carries_createString (bytes : List UInt8) :
    Carries names names.handle (createString bytes) (createString bytes) :=
  carries_createSequence (stringSize bytes.length) (.bytes bytes)

theorem carries_createList (values : List Value) :
    Carries names names.handle (createList values) (createList (values.map names.value)) := by
  rw [createList, createList, List.length_map]
  exact carries_createSequence (listSize values.length) (.values values)

theorem carries_string (cell : Handle) :
    Carries names id (look (·.string cell)) (look (·.string (names.handle cell))) :=
  carries_lookSame fun _ _ renamed => renamed.string cell

theorem carries_list (cell : Handle) :
    Carries names (List.map names.value) (look (·.list cell)) (look (·.list (names.handle cell))) :=
  carries_look fun _ _ renamed => renamed.list cell

theorem carries_require {α : Type} (result : Except MemoryError α) :
    Carries names id (require result) (require result) :=
  carries_lookSame fun _ _ _ => rfl

theorem carries_resizePayload (cell : Handle) (needed grown : Nat) :
    Carries names id (resizePayload cell needed grown) (resizePayload (names.handle cell) needed grown) := by
  refine (carries_lookSame fun _ _ renamed => renamed.capacity cell).bind fun capacity => ?_
  simp only [id_eq]
  split
  · refine .get_bind fun memory other renamed => ?_
    rw [renamed.heap.target?]
    cases memory.heap.target? cell with
    | none => exact .throw rfl
    | some object => exact (carries_resize object grown).bind fun moved => carries_setTarget cell moved
  · exact .pure rfl

theorem carries_setByte (cell : Handle) (index : Nat) (byte : UInt8) :
    Carries names id (setByte cell index byte) (setByte (names.handle cell) index byte) := by
  refine (carries_string cell).bind fun bytes => ?_
  simp only [id_eq]
  split
  · exact carries_setPayload cell (.bytes (bytes.set index byte))
  · exact .throw rfl

theorem carries_setElement (cell : Handle) (index : Nat) (value : Value) :
    Carries names id (setElement cell index value) (setElement (names.handle cell) index (names.value value)) := by
  refine (carries_list cell).bind fun values => ?_
  rw [List.length_map, ← List.map_set]
  split
  · exact carries_setPayload cell (.values (values.set index value))
  · exact .throw rfl

theorem carries_insertBytes (cell : Handle) (index : Int) (part : List UInt8) :
    Carries names id (insertBytes cell index part) (insertBytes (names.handle cell) index part) := by
  refine (carries_string cell).bind fun bytes => (carries_require _).bind fun place => ?_
  exact (carries_resizePayload cell _ _).bind fun _ => carries_setPayload cell (.bytes (spliced bytes place part))

theorem map_spliced (values : List Value) (index : Nat) (part : List Value) :
    (spliced values index part).map names.value = spliced (values.map names.value) index (part.map names.value) := by
  simp [spliced, List.map_take, List.map_drop]

theorem map_withoutSlice (values : List Value) (start finish : Nat) :
    (withoutSlice values start finish).map names.value = withoutSlice (values.map names.value) start finish := by
  simp [withoutSlice, List.map_take, List.map_drop]

theorem map_slice (values : List Value) (start finish : Nat) :
    (slice values start finish).map names.value = slice (values.map names.value) start finish := by
  simp [slice, List.map_take, List.map_drop]

theorem carries_insertValues (cell : Handle) (index : Int) (part : List Value) :
    Carries names id (insertValues cell index part)
      (insertValues (names.handle cell) index (part.map names.value)) := by
  refine (carries_list cell).bind fun values => ?_
  rw [List.length_map, List.length_map]
  refine (carries_require _).bind fun place => (carries_resizePayload cell _ _).bind fun _ => ?_
  rw [id_eq, ← map_spliced]
  exact carries_setPayload cell (.values (spliced values place part))

theorem carries_insertElement (sequence : Value) (index : Int) (element : Value) :
    Carries names id (insertElement sequence index element)
      (insertElement (names.value sequence) index (names.value element)) := by
  cases sequence with
  | missing | number _ | function _ => exact .throw rfl
  | string cell =>
      cases element with
      | number number => exact carries_insertBytes cell index [byteOfNumber number]
      | missing | string _ | list _ | function _ => exact .throw rfl
  | list cell => exact carries_insertValues cell index [element]

theorem carries_insertSequence (sequence : Value) (index : Int) (inserted : Value) :
    Carries names id (insertSequence sequence index inserted)
      (insertSequence (names.value sequence) index (names.value inserted)) := by
  cases sequence with
  | missing | number _ | function _ => exact .throw rfl
  | string cell =>
      cases inserted with
      | string source => exact (carries_string source).bind fun bytes => carries_insertBytes cell index bytes
      | missing | number _ | list _ | function _ => exact .throw rfl
  | list cell =>
      cases inserted with
      | list source => exact (carries_list source).bind fun values => carries_insertValues cell index values
      | missing | number _ | string _ | function _ => exact .throw rfl

theorem carries_removeSlice (sequence : Value) (start finish : Int) :
    Carries names id (removeSlice sequence start finish) (removeSlice (names.value sequence) start finish) := by
  cases sequence with
  | missing | number _ | function _ => exact .throw rfl
  | string cell =>
      refine (carries_string cell).bind fun bytes => (carries_require _).bind fun range => ?_
      refine (carries_setPayload cell (.bytes (withoutSlice bytes range.1 range.2))).bind fun _ => ?_
      exact carries_resizePayload cell _ _
  | list cell =>
      refine (carries_list cell).bind fun values => ?_
      rw [List.length_map]
      refine (carries_require _).bind fun range => ?_
      simp only [id_eq, ← map_withoutSlice]
      refine (carries_setPayload cell (.values (withoutSlice values range.1 range.2))).bind fun _ => ?_
      exact carries_resizePayload cell _ _

theorem carries_copySlice (sequence : Value) (start finish : Int) :
    Carries names names.value (copySlice sequence start finish) (copySlice (names.value sequence) start finish) := by
  cases sequence with
  | missing | number _ | function _ => exact .throw rfl
  | string cell =>
      refine (carries_string cell).bind fun bytes => (carries_require _).bind fun range => ?_
      exact (carries_createString _).bind fun copy => .pure rfl
  | list cell =>
      refine (carries_list cell).bind fun values => ?_
      rw [List.length_map]
      refine (carries_require _).bind fun range => ?_
      simp only [id_eq, ← map_slice]
      exact (carries_createList _).bind fun copy => .pure rfl

theorem carries_copySequence (sequence : Value) :
    Carries names names.value (copySequence sequence) (copySequence (names.value sequence)) := by
  cases sequence with
  | missing | number _ | function _ => exact .throw rfl
  | string cell =>
      exact (carries_string cell).bind fun bytes => (carries_createString bytes).bind fun copy => .pure rfl
  | list cell =>
      exact (carries_list cell).bind fun values => (carries_createList values).bind fun copy => .pure rfl

theorem carries_concatenate (left right : Handle) :
    Carries names names.value (concatenate left right) (concatenate (names.handle left) (names.handle right)) :=
  (carries_string left).bind fun front => (carries_string right).bind fun back =>
    (carries_createString (front ++ back)).bind fun _ => .pure rfl

theorem carries_pushScope : Carries names id pushScope pushScope :=
  carries_onStack names.pushScope_stack

theorem carries_createVariable (name : String) (value : Value) :
    Carries names id (createVariable name value) (createVariable name (names.value value)) :=
  carries_onStack fun stack ceiling => names.createVariable_stack stack name value ceiling

theorem carries_pushBranch (action : BranchAction) (address : Address) :
    Carries names id (pushBranch action address) (pushBranch action address) := by
  refine carries_onStack fun stack ceiling => ?_
  rw [names.pushBranch_stack]
  cases stack.pushBranch action address ceiling <;> rfl

theorem carries_setVariable (place : VariableRef) (value : Value) :
    Carries names id (setVariable place value) (setVariable place (names.value value)) := by
  intro memory other renamed
  have here : other.stack.variableAt? place = (memory.stack.variableAt? place).map names.binding := by
    rw [renamed.stack, names.variableAt?_stack]
  rw [setVariable, setVariable, here]
  cases memory.stack.variableAt? place with
  | none => exact .error rfl renamed
  | some binding =>
      refine .ok rfl (renamed.withStack ?_)
      rw [renamed.stack, names.setVariable_stack]

end Memory

end PocketScript
