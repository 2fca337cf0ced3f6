import Mathlib.Data.List.Forall2
import PocketScript.Proofs.Memory.Aging
import PocketScript.Proofs.Memory.Variables

/-! # Memories alike but for handles

Two memories that did the same, one of them with other collections in between,
differ in where objects are, in the handles of their cells and in what is left of
the objects that nothing needs. A pairing says which cell of one stands for which
of the other. What is read through paired cells is alike, if both still read
something.
-/

namespace PocketScript

/-- Which cells of one memory go with which of another. -/
abbrev Pairing := Handle → Handle → Prop

namespace Pairing

/-- Two more cells that go together. -/
def insert (pairing : Pairing) (cell cell' : Handle) : Pairing :=
  fun found found' => pairing found found' ∨ found = cell ∧ found' = cell'

theorem le_insert (pairing : Pairing) (cell cell' : Handle) : pairing ≤ pairing.insert cell cell' :=
  fun _ _ paired => .inl paired

end Pairing

variable {pairing next : Pairing} {cell cell' : Handle} {value value' : Value} {payload payload' : Payload}

/-- The same value, but for the cell. -/
inductive Value.Mirrors (pairing : Pairing) : Value → Value → Prop where
  | missing : Mirrors pairing .missing .missing
  | number (number : Float32) : Mirrors pairing (.number number) (.number number)
  | string {cell cell' : Handle} (paired : pairing cell cell') : Mirrors pairing (.string cell) (.string cell')
  | list {cell cell' : Handle} (paired : pairing cell cell') : Mirrors pairing (.list cell) (.list cell')
  | function (header : Address) : Mirrors pairing (.function header) (.function header)

theorem Value.Mirrors.mono (mirrors : value.Mirrors pairing value') (grown : pairing ≤ next) :
    value.Mirrors next value' := by
  cases mirrors with
  | missing => exact .missing
  | number number => exact .number number
  | string paired => exact .string (grown _ _ paired)
  | list paired => exact .list (grown _ _ paired)
  | function header => exact .function header

theorem Value.Mirrors.isMissing_eq (mirrors : value.Mirrors pairing value') : value'.isMissing = value.isMissing := by
  cases mirrors <;> rfl

/-- The same bytes, or values alike. -/
inductive Payload.Mirrors (pairing : Pairing) : Payload → Payload → Prop where
  | bytes (held : List UInt8) : Mirrors pairing (.bytes held) (.bytes held)
  | values {held held' : List Value} (alike : List.Forall₂ (Value.Mirrors pairing) held held') :
      Mirrors pairing (.values held) (.values held')

theorem forall₂_mirrors_mono {values values' : List Value}
    (alike : List.Forall₂ (Value.Mirrors pairing) values values') (grown : pairing ≤ next) :
    List.Forall₂ (Value.Mirrors next) values values' :=
  alike.imp fun _ _ mirrors => mirrors.mono grown

theorem Payload.Mirrors.mono (mirrors : payload.Mirrors pairing payload') (grown : pairing ≤ next) :
    payload.Mirrors next payload' := by
  cases mirrors with
  | bytes held => exact .bytes held
  | values alike => exact .values (forall₂_mirrors_mono alike grown)

/-- Two arrays of one length, related entry by entry. -/
def Pointwise {α : Type} (related : α → α → Prop) (first second : Array α) : Prop :=
  ∀ index : Nat, Option.Rel related first[index]? second[index]?

namespace Pointwise

variable {α : Type} {related : α → α → Prop} {first second : Array α} {entry entry' : α}

theorem size_eq (pointwise : Pointwise related first second) : second.size = first.size := by
  rcases Nat.lt_trichotomy second.size first.size with less | same | more
  · have := pointwise second.size
    rw [Array.getElem?_eq_none (Nat.le_refl _), Array.getElem?_eq_getElem less] at this
    cases this
  · exact same
  · have := pointwise first.size
    rw [Array.getElem?_eq_none (Nat.le_refl _), Array.getElem?_eq_getElem more] at this
    cases this

theorem imp {related' : α → α → Prop} (pointwise : Pointwise related first second)
    (implies : ∀ entry entry', related entry entry' → related' entry entry') : Pointwise related' first second := by
  intro index
  have here := pointwise index
  generalize first[index]? = held, second[index]? = held' at here ⊢
  cases here with
  | some related => exact .some (implies _ _ related)
  | none => exact .none

theorem push (pointwise : Pointwise related first second) (new : related entry entry') :
    Pointwise related (first.push entry) (second.push entry') := by
  intro index
  rw [Array.getElem?_push, Array.getElem?_push, pointwise.size_eq]
  split
  · exact .some new
  · exact pointwise index

theorem pop (pointwise : Pointwise related first second) : Pointwise related first.pop second.pop := by
  intro index
  rw [Array.getElem?_pop, Array.getElem?_pop, pointwise.size_eq]
  split
  · exact pointwise index
  · exact .none

theorem modify (pointwise : Pointwise related first second) (index : Nat) {change change' : α → α}
    (keeps : ∀ entry entry', related entry entry' → related (change entry) (change' entry')) :
    Pointwise related (first.modify index change) (second.modify index change') := by
  intro found
  have here := pointwise found
  rw [Array.getElem?_modify, Array.getElem?_modify]
  split
  · generalize first[found]? = held, second[found]? = held' at here ⊢
    cases here with
    | some related => exact .some (keeps _ _ related)
    | none => exact .none
  · exact here

end Pointwise

/-- The same name with values alike. -/
structure Variable.Mirrors (pairing : Pairing) (binding other : Variable) : Prop where
  name : other.name = binding.name
  value : binding.value.Mirrors pairing other.value

/-- The same blocks, and variables alike. -/
structure Scope.Mirrors (pairing : Pairing) (scope other : Scope) : Prop where
  branches : other.branches = scope.branches
  bindings : Pointwise (Variable.Mirrors pairing) scope.bindings other.bindings

/-- Scopes alike. Where they start and how many bytes they take does not
    matter. -/
def ScopeStack.Mirrors (pairing : Pairing) (stack other : ScopeStack) : Prop :=
  Pointwise (Scope.Mirrors pairing) stack.scopes other.scopes

theorem Variable.Mirrors.mono {binding other : Variable} (mirrors : binding.Mirrors pairing other)
    (grown : pairing ≤ next) : binding.Mirrors next other :=
  ⟨mirrors.name, mirrors.value.mono grown⟩

theorem Scope.Mirrors.mono {scope other : Scope} (mirrors : scope.Mirrors pairing other)
    (grown : pairing ≤ next) : scope.Mirrors next other :=
  ⟨mirrors.branches, mirrors.bindings.imp fun _ _ alike => alike.mono grown⟩

theorem Scope.Mirrors.findBelow_eq {scope other : Scope} (mirrors : scope.Mirrors pairing other) (name : String)
    (count : Nat) : other.findBelow name count = scope.findBelow name count := by
  induction count with
  | zero => rfl
  | succ count ih =>
      have same : other.bindings[count]?.any (·.name == name) = scope.bindings[count]?.any (·.name == name) := by
        have here := mirrors.bindings count
        generalize scope.bindings[count]? = held, other.bindings[count]? = held' at here ⊢
        cases here with
        | some alike => simp [alike.name]
        | none => rfl
      rw [findBelow, findBelow, same, ih]

namespace ScopeStack

variable {stack other : ScopeStack}

namespace Mirrors

theorem mono (mirrors : stack.Mirrors pairing other) (grown : pairing ≤ next) : stack.Mirrors next other :=
  Pointwise.imp mirrors fun _ _ alike => alike.mono grown

theorem innermost (mirrors : stack.Mirrors pairing other) :
    Option.Rel (Scope.Mirrors pairing) stack.innermost? other.innermost? := by
  rw [innermost?, innermost?, Array.back?_eq_getElem?, Array.back?_eq_getElem?, Pointwise.size_eq mirrors]
  exact mirrors _

theorem setInnermost (mirrors : stack.Mirrors pairing other) {scope scope' : Scope}
    (alike : scope.Mirrors pairing scope') : (stack.setInnermost scope).Mirrors pairing (other.setInnermost scope') :=
  (Pointwise.pop mirrors).push alike

theorem branch?_eq (mirrors : stack.Mirrors pairing other) : other.branch? = stack.branch? := by
  have here := mirrors.innermost
  unfold branch?
  generalize stack.innermost? = scope, other.innermost? = scope' at here ⊢
  cases here with
  | some alike => simp [alike.branches]
  | none => rfl

theorem action_eq (mirrors : stack.Mirrors pairing other) : other.action = stack.action := by
  rw [action, action, mirrors.branch?_eq]

theorem isGlobal_eq (mirrors : stack.Mirrors pairing other) : other.isGlobal = stack.isGlobal := by
  rw [isGlobal, isGlobal, Pointwise.size_eq mirrors]

theorem find?_eq (mirrors : stack.Mirrors pairing other) (name : String) : other.find? name = stack.find? name := by
  have in_scope : ∀ index : Nat,
      (other.scopes[index]?.bind (·.find? name)) = stack.scopes[index]?.bind (·.find? name) := by
    intro index
    have here := mirrors index
    generalize stack.scopes[index]? = scope, other.scopes[index]? = scope' at here ⊢
    cases here with
    | some alike =>
        simp only [Option.bind_some, Scope.find?, alike.bindings.size_eq, alike.findBelow_eq]
    | none => rfl
  have current : other.current? = stack.current? := by
    rw [current?, current?, Array.isEmpty, Array.isEmpty, Pointwise.size_eq mirrors]
  simp only [find?, current, in_scope]

theorem variableAt? (mirrors : stack.Mirrors pairing other) (place : VariableRef) :
    Option.Rel (Variable.Mirrors pairing) (stack.variableAt? place) (other.variableAt? place) := by
  have here := mirrors place.scope
  unfold ScopeStack.variableAt?
  generalize stack.scopes[place.scope]? = scope, other.scopes[place.scope]? = scope' at here ⊢
  cases here with
  | some alike => exact alike.bindings place.index
  | none => exact .none

theorem modifyBranches (mirrors : stack.Mirrors pairing other) (change : List Branch → List Branch) :
    (stack.modifyBranches change).Mirrors pairing (other.modifyBranches change) := by
  have here := mirrors.innermost
  unfold ScopeStack.modifyBranches
  generalize stack.innermost? = scope, other.innermost? = scope' at here ⊢
  cases here with
  | some alike => exact mirrors.setInnermost ⟨by rw [alike.branches], alike.bindings⟩
  | none => exact mirrors

theorem setVariable (mirrors : stack.Mirrors pairing other) (place : VariableRef)
    (alike : value.Mirrors pairing value') :
    (stack.setVariable place value).Mirrors pairing (other.setVariable place value') :=
  Pointwise.modify mirrors place.scope fun _ _ scopes =>
    ⟨scopes.branches, scopes.bindings.modify place.index fun _ _ bindings => ⟨bindings.name, alike⟩⟩

theorem popScope (mirrors : stack.Mirrors pairing other) : stack.popScope.Mirrors pairing other.popScope :=
  Pointwise.pop mirrors

/-- Closing blocks comes to the same. -/
theorem popBranch (mirrors : stack.Mirrors pairing other) :
    other.popBranch.1 = stack.popBranch.1 ∧ stack.popBranch.2.Mirrors pairing other.popBranch.2 := by
  have here := mirrors.innermost
  unfold ScopeStack.popBranch
  generalize stack.innermost? = scope, other.innermost? = scope' at here ⊢
  cases here with
  | none => exact ⟨rfl, mirrors⟩
  | some alike =>
      simp only [alike.branches]
      split
      · exact ⟨rfl, mirrors.setInnermost ⟨rfl, alike.bindings⟩⟩
      · exact ⟨rfl, mirrors⟩

theorem breakLoop (mirrors : stack.Mirrors pairing other) :
    other.breakLoop.1 = stack.breakLoop.1 ∧ stack.breakLoop.2.Mirrors pairing other.breakLoop.2 := by
  have here := mirrors.innermost
  unfold ScopeStack.breakLoop
  generalize stack.innermost? = scope, other.innermost? = scope' at here ⊢
  cases here with
  | none => exact ⟨rfl, mirrors⟩
  | some alike =>
      simp only [alike.branches]
      exact ⟨trivial, mirrors.setInnermost ⟨rfl, alike.bindings⟩⟩

theorem continueLoop (mirrors : stack.Mirrors pairing other) :
    other.continueLoop.1 = stack.continueLoop.1 ∧ stack.continueLoop.2.Mirrors pairing other.continueLoop.2 := by
  have here := mirrors.innermost
  unfold ScopeStack.continueLoop
  generalize stack.innermost? = scope, other.innermost? = scope' at here ⊢
  cases here with
  | none => exact ⟨rfl, mirrors⟩
  | some alike =>
      simp only [alike.branches]
      exact ⟨trivial, mirrors.setInnermost ⟨rfl, alike.bindings⟩⟩

end Mirrors

end ScopeStack

/-- Memory refuses for want of bytes, or since an object is gone: what other
    collections can bring about. -/
def MemoryError.IsRuinous (error : MemoryError) : Prop :=
  error = .collision ∨ error = .dangling

/-- Two operations come to results that are related, or to the same error, unless
    one of them is refused for a ruinous one. -/
inductive Agrees {α : Type} (related : α → α → Prop) : Except MemoryError α → Except MemoryError α → Prop where
  | ruined {error : MemoryError} (ruinous : error.IsRuinous) (second : Except MemoryError α) :
      Agrees related (.error error) second
  | ruined' {error : MemoryError} (ruinous : error.IsRuinous) (first : Except MemoryError α) :
      Agrees related first (.error error)
  | error (error : MemoryError) : Agrees related (.error error) (.error error)
  | ok {result result' : α} (holds : related result result') : Agrees related (.ok result) (.ok result')

namespace Agrees

variable {α β : Type} {related : α → α → Prop} {related' : β → β → Prop} {first second : Except MemoryError α}

theorem bind {next next' : α → Except MemoryError β} (agrees : Agrees related first second)
    (rest : ∀ result result', related result result' → Agrees related' (next result) (next' result')) :
    Agrees related' (first >>= next) (second >>= next') := by
  cases agrees with
  | ruined ruinous _ => exact .ruined ruinous _
  | ruined' ruinous _ => exact .ruined' ruinous _
  | error error => exact .error error
  | ok holds => exact rest _ _ holds

theorem map {change change' : α → β} (agrees : Agrees related first second)
    (rest : ∀ result result', related result result' → related' (change result) (change' result')) :
    Agrees related' (first.map change) (second.map change') := by
  cases agrees with
  | ruined ruinous _ => exact .ruined ruinous _
  | ruined' ruinous _ => exact .ruined' ruinous _
  | error error => exact .error error
  | ok holds => exact .ok (rest _ _ holds)

theorem refl (result : Except MemoryError α) : Agrees Eq result result := by
  cases result with
  | error error => exact .error error
  | ok result => exact .ok rfl

end Agrees

namespace Memory

variable {memory other after after' : Memory}

/-- Two memories alike but for handles. -/
structure Mirrors (pairing : Pairing) (memory other : Memory) : Prop where
  tidy : memory.Tidy
  tidy' : other.Tidy
  issued : ∀ cell cell', pairing cell cell' → memory.heap.Issued cell ∧ other.heap.Issued cell'
  paired : ∀ cell cell' found found', pairing cell cell' → pairing found found' → (found = cell ↔ found' = cell')
  reads : ∀ cell cell' payload payload', pairing cell cell' → memory.payload cell = .ok payload →
    other.payload cell' = .ok payload' → payload.Mirrors pairing payload'
  stack : memory.stack.Mirrors pairing other.stack

theorem error_of_payload {error : MemoryError} (refused : memory.payload cell = .error error) :
    error = .dangling := by
  unfold Memory.payload at refused
  split at refused
  · cases refused
  · exact (Except.error.inj refused).symm

namespace Mirrors

/-- Other scopes, and other roots. -/
theorem ofHeap (mirrors : memory.Mirrors pairing other) (heap : after.heap = memory.heap)
    (heap' : after'.heap = other.heap) (stack : after.stack.Mirrors pairing after'.stack) :
    after.Mirrors pairing after' := by
  have payload : ∀ cell, after.payload cell = memory.payload cell := fun cell => by
    rw [Memory.payload, Memory.payload, heap]
  have payload' : ∀ cell, after'.payload cell = other.payload cell := fun cell => by
    rw [Memory.payload, Memory.payload, heap']
  refine ⟨⟨mirrors.tidy.separate.congr heap, heap ▸ mirrors.tidy.counted⟩,
    ⟨mirrors.tidy'.separate.congr heap', heap' ▸ mirrors.tidy'.counted⟩, ?_, mirrors.paired, ?_, stack⟩
  · rw [heap, heap']
    exact mirrors.issued
  · simp only [payload, payload']
    exact mirrors.reads

theorem withStack (mirrors : memory.Mirrors pairing other) {stack stack' : ScopeStack}
    (alike : stack.Mirrors pairing stack') : { memory with stack }.Mirrors pairing { other with stack := stack' } :=
  mirrors.ofHeap rfl rfl alike

theorem reading (mirrors : memory.Mirrors pairing other) (paired : pairing cell cell') :
    Agrees (Payload.Mirrors pairing) (memory.payload cell) (other.payload cell') := by
  cases first : memory.payload cell with
  | error error => exact .ruined (.inr (error_of_payload first)) _
  | ok held =>
      cases second : other.payload cell' with
      | error error => exact .ruined' (.inr (error_of_payload second)) _
      | ok held' => exact .ok (mirrors.reads _ _ _ _ paired first second)

theorem string (mirrors : memory.Mirrors pairing other) (paired : pairing cell cell') :
    Agrees Eq (memory.string cell) (other.string cell') := by
  refine (mirrors.reading paired).bind fun payload payload' alike => ?_
  cases alike with
  | bytes held => exact .ok rfl
  | values alike => exact .error .badType

theorem list (mirrors : memory.Mirrors pairing other) (paired : pairing cell cell') :
    Agrees (List.Forall₂ (Value.Mirrors pairing)) (memory.list cell) (other.list cell') := by
  refine (mirrors.reading paired).bind fun payload payload' alike => ?_
  cases alike with
  | bytes held => exact .error .badType
  | values alike => exact .ok alike

theorem length (mirrors : memory.Mirrors pairing other) (alike : value.Mirrors pairing value') :
    Agrees Eq (memory.length value) (other.length value') := by
  cases alike with
  | missing | number _ | function _ => exact .error .badType
  | string paired => exact (mirrors.string paired).map fun _ _ same => congrArg _ same
  | list paired => exact (mirrors.list paired).map fun _ _ alike => alike.length_eq

theorem byte (mirrors : memory.Mirrors pairing other) (paired : pairing cell cell') (index : Nat) :
    Agrees Eq (memory.byte cell index) (other.byte cell' index) := by
  refine (mirrors.string paired).bind ?_
  rintro bytes _ rfl
  exact .refl _

theorem element (mirrors : memory.Mirrors pairing other) (paired : pairing cell cell') (index : Nat) :
    Agrees (Value.Mirrors pairing) (memory.element cell index) (other.element cell' index) := by
  refine (mirrors.list paired).bind fun values values' alike => ?_
  have length := alike.length_eq
  by_cases inside : index < values.length
  · have inside' : index < values'.length := length ▸ inside
    rw [List.getElem?_eq_getElem inside, List.getElem?_eq_getElem inside']
    exact .ok (alike.get inside inside')
  · have outside' : ¬ index < values'.length := length ▸ inside
    rw [List.getElem?_eq_none (Nat.le_of_not_lt inside), List.getElem?_eq_none (Nat.le_of_not_lt outside')]
    exact .error .badIndex

theorem variableValue? (mirrors : memory.Mirrors pairing other) (place : VariableRef) :
    Option.Rel (Value.Mirrors pairing) (memory.variableValue? place) (other.variableValue? place) := by
  have here := mirrors.stack.variableAt? place
  unfold Memory.variableValue?
  generalize memory.stack.variableAt? place = binding, other.stack.variableAt? place = binding' at here ⊢
  cases here with
  | some alike => exact .some alike.value
  | none => exact .none

end Mirrors

end Memory

end PocketScript
