import PocketScript.Proofs.Heap.Aging
import PocketScript.Proofs.Memory.Reachability
import PocketScript.Proofs.Memory.Scopes
import PocketScript.Proofs.Memory.Outcome

/-! # Where memory leads

Memory names code in two ways: a function is the address of its definition, and a
loop is the address of its header. No operation makes up such an address, so if all
that is stored leads to known code, all that is read from memory does so too.
-/

namespace PocketScript

variable {known : Address → Prop}

/-- The definition of a function is known from behind its first byte on. -/
def Value.LeadsTo (known : Address → Prop) : Value → Prop
  | .function header => known (header + 1)
  | _ => True

/-- All values of a list lead to known code. -/
def Payload.LeadsTo (known : Address → Prop) : Payload → Prop
  | .values items => ∀ value ∈ items, value.LeadsTo known
  | _ => True

/-- All lists lead to known code. -/
def Heap.LeadsTo (known : Address → Prop) (heap : Heap) : Prop :=
  ∀ slot object, heap.object? slot = some object → object.payload.LeadsTo known

/-- The headers of open loops are known. -/
def Branch.LeadTo (known : Address → Prop) (branches : List Branch) : Prop :=
  ∀ branch ∈ branches, branch.action = .loop → known branch.address

/-- The variables and the open loops of a scope lead to known code. -/
structure Scope.LeadsTo (known : Address → Prop) (scope : Scope) : Prop where
  bindings : ∀ binding ∈ scope.bindings, binding.value.LeadsTo known
  branches : Branch.LeadTo known scope.branches

/-- All scopes lead to known code. -/
def ScopeStack.LeadsTo (known : Address → Prop) (stack : ScopeStack) : Prop :=
  ∀ scope ∈ stack.scopes, scope.LeadsTo known

/-- All lists and scopes lead to known code. -/
structure Memory.LeadsTo (known : Address → Prop) (memory : Memory) : Prop where
  heap : memory.heap.LeadsTo known
  stack : memory.stack.LeadsTo known

theorem Payload.leadsTo_target (object : Handle) : (Payload.target object).LeadsTo known :=
  trivial

theorem Payload.leadsTo_bytes (bytes : List UInt8) : (Payload.bytes bytes).LeadsTo known :=
  trivial

section Mono

variable {known' : Address → Prop} (more : ∀ address, known address → known' address)
include more

theorem Value.LeadsTo.mono {value : Value} (leads : value.LeadsTo known) : value.LeadsTo known' := by
  cases value with
  | function header => exact more _ leads
  | missing | number | string | list => trivial

theorem Payload.LeadsTo.mono {payload : Payload} (leads : payload.LeadsTo known) : payload.LeadsTo known' := by
  cases payload with
  | values items => exact fun value mem => (leads value mem).mono more
  | target | bytes => trivial

theorem Memory.LeadsTo.mono {memory : Memory} (leads : memory.LeadsTo known) : memory.LeadsTo known' := by
  refine ⟨fun slot object here => (leads.heap slot object here).mono more, fun scope mem => ⟨?_, ?_⟩⟩
  · exact fun binding here => ((leads.stack scope mem).bindings binding here).mono more
  · exact fun branch here loop => more _ ((leads.stack scope mem).branches branch here loop)

end Mono

/-- If all code is known, memory leads nowhere else. -/
theorem Memory.leadsTo_of_all (all : ∀ address, known address) (memory : Memory) : memory.LeadsTo known := by
  have leads (value : Value) : value.LeadsTo known := by
    cases value with
    | function header => exact all _
    | missing | number | string | list => trivial
  refine ⟨fun slot object here => ?_, fun scope _ => ⟨fun binding _ => leads _, fun branch _ _ => all _⟩⟩
  cases object.payload with
  | values items => exact fun value _ => leads value
  | target | bytes => trivial

theorem Value.leadsTo_getD {values : List Value} (leads : ∀ value ∈ values, value.LeadsTo known) (index : Nat) :
    (values.getD index .missing).LeadsTo known := by
  rw [List.getD_eq_getElem?_getD]
  cases here : values[index]? with
  | none => trivial
  | some value => exact leads value (List.mem_of_getElem? here)

namespace Heap.LeadsTo

variable {heap after : Heap} {handle moved : Handle} {payload : Payload} {size floor : Nat}

theorem of_get? (leads : heap.LeadsTo known) {object : HeapObject} (found : heap.get? handle = some object) :
    object.payload.LeadsTo known := by
  obtain ⟨⟨slot, node⟩, named, rfl⟩ := Option.map_eq_some_iff.mp found
  obtain ⟨-, occupied⟩ := handleOf_of_named named
  exact leads slot _ (by simp [object?, occupied])

theorem modifyNode (leads : heap.LeadsTo known) (slot : Nat) {change : HeapNode → HeapNode}
    (changed : ∀ node : HeapNode, node.object.payload.LeadsTo known → (change node).object.payload.LeadsTo known) :
    (heap.modifyNode slot change).LeadsTo known := by
  intro other object here
  rw [object?, node?_modifyNode] at here
  split at here
  · obtain ⟨node, there, rfl⟩ := Option.map_eq_some_iff.mp here
    obtain ⟨before, found, rfl⟩ := Option.map_eq_some_iff.mp there
    exact changed before (leads other before.object (by simp [object?, found]))
  · exact leads other object here

theorem modify (leads : heap.LeadsTo known) (handle : Handle) {change : HeapObject → HeapObject}
    (changed : ∀ object, object.payload.LeadsTo known → (change object).payload.LeadsTo known) :
    (heap.modify handle change).LeadsTo known := by
  unfold Heap.modify
  split
  · exact leads.modifyNode _ fun node => changed node.object
  · exact leads

theorem occupy (leads : heap.LeadsTo known) {node : HeapNode} (new : node.object.payload.LeadsTo known) :
    (heap.occupy node).2.LeadsTo known := by
  intro slot object here
  unfold Heap.occupy at here
  cases listed : heap.vacant with
  | nil =>
      simp only [listed, object?, node?, Array.getElem?_push] at here
      split at here
      · obtain rfl : node.object = object := by simpa using here
        exact new
      · exact leads slot object here
  | cons first rest =>
      simp only [listed, object?, node?, Array.getElem?_modify] at here
      split at here
      · cases there : heap.slots[slot]? with
        | none => simp [there] at here
        | some entry =>
            obtain rfl : node.object = object := by simpa [there] using here
            exact new
      · exact leads slot object here

theorem place (leads : heap.LeadsTo known) (gap : Gap) {object : HeapObject} (new : object.payload.LeadsTo known) :
    (heap.place gap object).2.LeadsTo known := by
  intro slot found here
  have occupied : (heap.occupy ⟨object, gap.above, gap.below⟩).2.LeadsTo known := leads.occupy new
  refine occupied slot found ?_
  rw [place_eq] at here
  calc ((heap.occupy ⟨object, gap.above, gap.below⟩).2.object? slot)
    _ = (((heap.occupy ⟨object, gap.above, gap.below⟩).2.setBelow gap.above (some heap.nextSlot)).setAbove gap.below
        (some heap.nextSlot)).object? slot := by rw [object?_setAbove, object?_setBelow]
    _ = some found := here

theorem deallocate (leads : heap.LeadsTo known) (handle : Handle) : (heap.deallocate handle).LeadsTo known := by
  cases named : heap.named? handle with
  | none =>
      rw [deallocate_of_unnamed (by simp [get?, named])]
      exact leads
  | some found =>
      intro other object here
      rw [object?_deallocate named] at here
      split at here
      · cases here
      · exact leads other object here

theorem allocate (leads : heap.LeadsTo known) (new : payload.LeadsTo known)
    (allocated : heap.allocate size payload floor = .ok (handle, after)) : after.LeadsTo known := by
  unfold Heap.allocate at allocated
  cases found : heap.findGap size (heap.slots.size + 1) none heap.highest with
  | error error => simp [found, bind, Except.bind] at allocated
  | ok gap =>
      simp only [found, bind, Except.bind] at allocated
      split at allocated
      · cases allocated
      · rw [← (Prod.mk.inj (Except.ok.inj allocated)).2]
        exact leads.place gap new

theorem resize (leads : heap.LeadsTo known) (resized : heap.resize handle size floor = .ok (moved, after)) :
    after.LeadsTo known := by
  unfold Heap.resize at resized
  split at resized
  · cases resized
  · next object found =>
    split at resized
    · obtain ⟨rfl, rfl⟩ := Prod.mk.inj (Except.ok.inj resized)
      exact leads.modify handle fun _ same => same
    · cases allocated : heap.allocate size (placeholder object.payload handle) floor with
      | error error => simp [allocated, bind, Except.bind] at resized
      | ok placed =>
          obtain ⟨place, grown⟩ := placed
          simp only [allocated, bind, Except.bind, pure, Except.pure, Except.ok.injEq, Prod.mk.injEq] at resized
          obtain ⟨rfl, rfl⟩ := resized
          have empty : (placeholder object.payload handle).LeadsTo known := by
            cases object.payload with
            | values items => nofun
            | target | bytes => trivial
          have old : object.payload.LeadsTo known := leads.of_get? found
          exact ((leads.allocate empty allocated).deallocate handle).modify _ fun _ _ => old

theorem setTarget (leads : heap.LeadsTo known) (cell object : Handle) : (heap.setTarget cell object).LeadsTo known :=
  leads.modify cell fun _ _ => trivial

theorem remove (leads : heap.LeadsTo known) (entries : List (Handle × HeapObject)) :
    (heap.remove entries).2.LeadsTo known := by
  induction entries generalizing heap with
  | nil => exact leads
  | cons entry rest ih =>
      obtain ⟨handle, object⟩ := entry
      rw [Heap.remove]
      split
      · exact ih (leads.deallocate handle)
      · exact ih leads

theorem setMarks (leads : heap.LeadsTo known) (reachable : Bool) (slots : List Nat) :
    (slots.foldl (setMark · reachable) heap).LeadsTo known := by
  induction slots generalizing heap with
  | nil => exact leads
  | cons slot rest ih => exact ih (leads.modifyNode slot fun _ same => same)

theorem collect {memory : Memory} (leads : memory.heap.LeadsTo known) : memory.collect.2.heap.LeadsTo known := by
  have marked := markAll_induction (motive := Heap.LeadsTo known)
    (fun _ handle leads => leads.modify handle fun _ same => same) memory.heap.clearMarks
    (memory.roots.toList.flatMap memory.rootValues).reverse (leads.setMarks false _)
  exact marked.remove _

end Heap.LeadsTo

theorem Branch.LeadTo.tail {branch : Branch} {outer : List Branch} (lead : LeadTo known (branch :: outer)) :
    LeadTo known outer :=
  fun other mem => lead other (List.mem_cons_of_mem _ mem)

theorem Branch.LeadTo.cons {branch : Branch} {outer : List Branch} (lead : LeadTo known outer)
    (here : branch.action = .loop → known branch.address) : LeadTo known (branch :: outer) := by
  intro other mem
  obtain rfl | mem := List.mem_cons.mp mem
  · exact here
  · exact lead other mem

theorem Branch.LeadTo.breakLoop {branches : List Branch} (lead : LeadTo known branches) :
    LeadTo known (Scope.breakLoop branches).1 := by
  induction branches with
  | nil => exact lead
  | cons branch outer ih =>
      unfold Scope.breakLoop
      split
      · exact lead.tail.cons nofun
      · exact (ih lead.tail).cons nofun

theorem Branch.LeadTo.continueLoop {branches : List Branch} (lead : LeadTo known branches) :
    LeadTo known (Scope.continueLoop branches).1 ∧
      ∀ address, (Scope.continueLoop branches).2 = some address → known address := by
  induction branches with
  | nil => exact ⟨lead, nofun⟩
  | cons branch outer ih =>
      cases outer with
      | nil =>
          refine ⟨lead, fun address found => ?_⟩
          simp only [Scope.continueLoop, Option.ite_none_right_eq_some, Option.some.injEq] at found
          exact found.2 ▸ lead branch List.mem_cons_self found.1
      | cons next outer =>
          unfold Scope.continueLoop
          split
          · next loop =>
            refine ⟨lead.tail, fun address found => ?_⟩
            exact Option.some.inj found ▸ lead branch List.mem_cons_self loop
          · exact ih lead.tail

namespace ScopeStack.LeadsTo

variable {stack after : ScopeStack} {scope : Scope} {value : Value} {address : Address} {ceiling : Nat}

theorem empty : ScopeStack.empty.LeadsTo known := by
  intro scope mem
  cases Array.not_mem_empty scope mem

theorem innermost (leads : stack.LeadsTo known) (here : stack.innermost? = some scope) : scope.LeadsTo known :=
  leads scope (Array.mem_of_back? here)

theorem mem_of_mem_pop {scopes : Array Scope} (mem : scope ∈ scopes.pop) : scope ∈ scopes := by
  rw [← Array.mem_toList_iff] at mem ⊢
  exact List.mem_of_mem_dropLast (Array.toList_pop ▸ mem)

theorem setInnermost (leads : stack.LeadsTo known) (new : scope.LeadsTo known) :
    (stack.setInnermost scope).LeadsTo known := by
  intro other mem
  obtain old | rfl := Array.mem_push.mp mem
  · exact leads other (mem_of_mem_pop old)
  · exact new

theorem popScope (leads : stack.LeadsTo known) : stack.popScope.LeadsTo known :=
  fun scope mem => leads scope (mem_of_mem_pop mem)

theorem pushScope {opened : Nat} (leads : stack.LeadsTo known)
    (pushed : stack.pushScope ceiling = .ok (opened, after)) : after.LeadsTo known := by
  unfold ScopeStack.pushScope at pushed
  dsimp only at pushed
  split at pushed
  · cases pushed
  · obtain ⟨-, rfl⟩ := Prod.mk.inj (Except.ok.inj pushed)
    intro scope mem
    obtain old | rfl := Array.mem_push.mp mem
    · exact leads scope old
    · exact ⟨nofun, nofun⟩

theorem createVariable {name : String} {place : VariableRef} (leads : stack.LeadsTo known) (new : value.LeadsTo known)
    (created : stack.createVariable name value ceiling = .ok (place, after)) : after.LeadsTo known := by
  unfold ScopeStack.createVariable at created
  split at created
  · cases created
  · next scope here =>
    dsimp only at created
    split at created
    · cases created
    · obtain ⟨-, rfl⟩ := Prod.mk.inj (Except.ok.inj created)
      refine leads.setInnermost ⟨fun binding mem => ?_, (leads.innermost here).branches⟩
      obtain old | rfl := Array.mem_push.mp mem
      · exact (leads.innermost here).bindings binding old
      · exact new

theorem setVariable (leads : stack.LeadsTo known) (place : VariableRef) (new : value.LeadsTo known) :
    (stack.setVariable place value).LeadsTo known := by
  intro scope mem
  obtain ⟨index, here⟩ := Array.getElem?_of_mem mem
  rw [ScopeStack.setVariable, Array.getElem?_modify] at here
  split at here
  · obtain ⟨before, there, rfl⟩ := Option.map_eq_some_iff.mp here
    have old := leads before (Array.mem_of_getElem? there)
    refine ⟨fun binding mem => ?_, old.branches⟩
    obtain ⟨index, here⟩ := Array.getElem?_of_mem mem
    rw [Array.getElem?_modify] at here
    split at here
    · obtain ⟨_, _, rfl⟩ := Option.map_eq_some_iff.mp here
      exact new
    · exact old.bindings binding (Array.mem_of_getElem? here)
  · exact leads scope (Array.mem_of_getElem? here)

theorem variableAt? (leads : stack.LeadsTo known) {place : VariableRef} {binding : Variable}
    (here : stack.variableAt? place = some binding) : binding.value.LeadsTo known := by
  obtain ⟨scope, outer, inner⟩ := Option.bind_eq_some_iff.mp here
  exact (leads scope (Array.mem_of_getElem? outer)).bindings binding (Array.mem_of_getElem? inner)

theorem branch? (leads : stack.LeadsTo known) (here : stack.branch? = some ⟨.loop, address⟩) : known address := by
  obtain ⟨scope, outer, inner⟩ := Option.bind_eq_some_iff.mp here
  exact (leads.innermost outer).branches _ (List.mem_of_mem_head? inner) rfl

theorem modifyBranches (leads : stack.LeadsTo known) {change : List Branch → List Branch}
    (changed : ∀ branches, Branch.LeadTo known branches → Branch.LeadTo known (change branches)) :
    (stack.modifyBranches change).LeadsTo known := by
  unfold ScopeStack.modifyBranches
  split
  · next scope here =>
    exact leads.setInnermost ⟨(leads.innermost here).bindings, changed _ (leads.innermost here).branches⟩
  · exact leads

theorem setAction (leads : stack.LeadsTo known) {action : BranchAction} (still : action ≠ .loop) :
    (stack.setAction action).LeadsTo known := by
  refine leads.modifyBranches fun branches lead => ?_
  cases branches with
  | nil => exact lead
  | cons branch outer => exact lead.tail.cons fun loop => absurd loop still

theorem pushBranch {action : BranchAction} (leads : stack.LeadsTo known) (header : action = .loop → known address)
    (pushed : stack.pushBranch action address ceiling = .ok after) : after.LeadsTo known := by
  have opened (scope : Scope) (here : stack.innermost? = some scope) :
      Branch.LeadTo known (⟨action, address⟩ :: scope.branches) :=
    (leads.innermost here).branches.cons header
  unfold ScopeStack.pushBranch at pushed
  split at pushed
  · cases pushed
  · next scope here =>
    have old := (leads.innermost here).bindings
    dsimp only at pushed
    split at pushed
    · rw [← Except.ok.inj pushed]
      exact leads.setInnermost ⟨old, opened scope here⟩
    · split at pushed
      · cases pushed
      · rw [← Except.ok.inj pushed]
        exact leads.setInnermost ⟨old, opened scope here⟩

theorem popBranch (leads : stack.LeadsTo known) : stack.popBranch.2.LeadsTo known := by
  unfold ScopeStack.popBranch
  split
  · next scope here =>
    have old := leads.innermost here
    split
    · next branch next outer branches =>
      exact leads.setInnermost ⟨old.bindings, (branches ▸ old.branches).tail⟩
    · exact leads
  · exact leads

theorem breakLoop (leads : stack.LeadsTo known) : stack.breakLoop.2.LeadsTo known := by
  unfold ScopeStack.breakLoop
  split
  · next scope here =>
    exact leads.setInnermost ⟨(leads.innermost here).bindings, (leads.innermost here).branches.breakLoop⟩
  · exact leads

theorem continueLoop (leads : stack.LeadsTo known) : stack.continueLoop.2.LeadsTo known ∧
    ∀ address, stack.continueLoop.1 = some address → known address := by
  unfold ScopeStack.continueLoop
  split
  · next scope here =>
    have lead := (leads.innermost here).branches.continueLoop
    exact ⟨leads.setInnermost ⟨(leads.innermost here).bindings, lead.1⟩, lead.2⟩
  · exact ⟨leads, nofun⟩

end ScopeStack.LeadsTo

namespace MemoryM

variable {α β : Type} {operation : MemoryM α} {next : α → MemoryM β} {good good' : α → Prop}

/-- Memory leads to known code after an operation if it did before, and what the
    operation results in is good. -/
def Leads (known : Address → Prop) (operation : MemoryM α) (good : α → Prop) : Prop :=
  ∀ memory, memory.LeadsTo known →
    Ends operation memory (fun result after => after.LeadsTo known ∧ good result) fun _ after => after.LeadsTo known

namespace Leads

theorem bind {good' : β → Prop} (first : Leads known operation good)
    (rest : ∀ result, good result → Leads known (next result) good') : Leads known (operation >>= next) good' :=
  fun memory holds => .bind ((first memory holds).mono (fun result after kept => rest result kept.2 after kept.1)
    fun _ _ kept => kept)

theorem pure {result : α} (holds : good result) : Leads known (Pure.pure result) good :=
  fun _ kept => ⟨kept, holds⟩

theorem throw (error : MemoryError) : Leads known (throw error : MemoryM α) good :=
  fun _ kept => kept

theorem look {view : Memory → Except MemoryError α}
    (found : ∀ memory result, memory.LeadsTo known → view memory = .ok result → good result) :
    Leads known (Memory.look view) good :=
  fun memory kept => .look (fun result seen => ⟨kept, found memory result kept seen⟩) fun _ _ => kept

/-- A look of which the result does not matter here. -/
theorem lookAny (view : Memory → Except MemoryError α) : Leads known (Memory.look view) fun _ => True :=
  look fun _ _ _ _ => trivial

theorem onHeap {operation : Heap → Nat → Except MemoryError (α × Heap)}
    (ran : ∀ heap floor result after, heap.LeadsTo known → operation heap floor = .ok (result, after) →
      after.LeadsTo known) : Leads known (Memory.onHeap operation) fun _ => True :=
  fun _ kept => .onHeap (fun result heap ended => ⟨⟨ran _ _ result heap kept.heap ended, kept.stack⟩, trivial⟩)
    fun _ _ => kept

theorem onStack {operation : ScopeStack → Nat → Except MemoryError (α × ScopeStack)}
    (ran : ∀ stack ceiling result after, stack.LeadsTo known → operation stack ceiling = .ok (result, after) →
      after.LeadsTo known) : Leads known (Memory.onStack operation) fun _ => True :=
  fun _ kept => .onStack (fun result stack ended => ⟨⟨kept.heap, ran _ _ result stack kept.stack ended⟩, trivial⟩)
    fun _ _ => kept

end Leads

end MemoryM

namespace Memory

open MemoryM (Leads)

variable {cell : Handle} {value : Value} {values : List Value} {payload : Payload}

theorem leadsTo_reset (memory : Memory) : memory.reset.LeadsTo known := by
  refine ⟨fun slot object here => ?_, ScopeStack.LeadsTo.empty⟩
  have nothing := Heap.node?_eq_none_iff.mp (Heap.node?_reset memory.heap slot)
  exact nomatch nothing.symm.trans here

theorem LeadsTo.collect {memory : Memory} (leads : memory.LeadsTo known) : memory.collect.2.LeadsTo known :=
  ⟨leads.heap.collect, leads.stack⟩

theorem leads_payload {memory : Memory} (leads : memory.LeadsTo known) (found : memory.payload cell = .ok payload) :
    payload.LeadsTo known := by
  unfold Memory.payload at found
  split at found
  · next object here =>
    obtain ⟨target, -, there⟩ := Option.bind_eq_some_iff.mp here
    exact Except.ok.inj found ▸ leads.heap.of_get? there
  · cases found

theorem leads_list {memory : Memory} (leads : memory.LeadsTo known) (found : memory.list cell = .ok values) :
    ∀ value ∈ values, value.LeadsTo known := by
  have here : memory.payload cell = .ok (.values values) := list_eq_ok_iff.mp found
  exact leads_payload leads here

theorem leads_lookList (cell : Handle) :
    Leads known (look (·.list cell)) fun values => ∀ value ∈ values, value.LeadsTo known :=
  .look fun _ _ leads found => leads_list leads found

theorem leads_lookElement (cell : Handle) (index : Nat) :
    Leads known (look (·.element cell index)) (·.LeadsTo known) := by
  refine .look fun memory value leads found => ?_
  unfold Memory.element at found
  cases listed : memory.list cell with
  | error error => simp [listed, bind, Except.bind] at found
  | ok values =>
      simp only [listed, bind, Except.bind] at found
      split at found
      · next here => exact Except.ok.inj found ▸ leads_list leads listed _ (List.mem_of_getElem? here)
      · cases found

theorem leads_variableValue? {memory : Memory} {place : VariableRef} (leads : memory.LeadsTo known)
    (found : memory.variableValue? place = some value) : value.LeadsTo known := by
  obtain ⟨binding, here, rfl⟩ := Option.map_eq_some_iff.mp found
  exact leads.stack.variableAt? here

theorem leads_allocate (size : Nat) (new : payload.LeadsTo known) : Leads known (allocate size payload) fun _ => True :=
  .onHeap fun _ _ _ _ leads => leads.allocate new

theorem leads_resize (handle : Handle) (size : Nat) : Leads known (resize handle size) fun _ => True :=
  .onHeap fun _ _ _ _ leads => leads.resize

theorem leads_setTarget (cell object : Handle) : Leads known (setTarget cell object) fun _ => True :=
  fun _ kept => ⟨⟨kept.heap.setTarget cell object, kept.stack⟩, trivial⟩

theorem leads_setPayload (cell : Handle) (new : payload.LeadsTo known) :
    Leads known (setPayload cell payload) fun _ => True := by
  refine fun memory kept => .modify ⟨?_, trivial⟩
  split
  · exact ⟨kept.heap.modify _ fun _ _ => new, kept.stack⟩
  · exact kept

theorem leads_createSequence (size : Nat) (new : payload.LeadsTo known) :
    Leads known (createSequence size payload) fun _ => True :=
  (leads_allocate pointerSize (Payload.leadsTo_target _)).bind fun cell _ =>
    (leads_allocate size new).bind fun object _ => (leads_setTarget cell object).bind fun _ _ => .pure trivial

theorem leads_createString (bytes : List UInt8) : Leads known (createString bytes) fun _ => True :=
  leads_createSequence _ (Payload.leadsTo_bytes bytes)

theorem leads_createList (lead : ∀ value ∈ values, value.LeadsTo known) :
    Leads known (createList values) fun _ => True :=
  leads_createSequence _ lead

theorem leads_resizePayload (cell : Handle) (needed grown : Nat) :
    Leads known (resizePayload cell needed grown) fun _ => True := by
  refine (Leads.lookAny _).bind fun capacity _ => ?_
  split
  · have here : Leads known get fun _ => True := fun _ kept => ⟨kept, trivial⟩
    refine here.bind fun memory _ => ?_
    split
    · exact (leads_resize _ grown).bind fun moved _ => leads_setTarget cell moved
    · exact .throw _
  · exact .pure trivial

theorem leads_setByte (cell : Handle) (index : Nat) (byte : UInt8) :
    Leads known (setByte cell index byte) fun _ => True := by
  refine (Leads.lookAny _).bind fun bytes _ => ?_
  split
  · exact leads_setPayload cell (Payload.leadsTo_bytes _)
  · exact .throw _

theorem leads_setElement (cell : Handle) (index : Nat) (new : value.LeadsTo known) :
    Leads known (setElement cell index value) fun _ => True := by
  refine (leads_lookList cell).bind fun values lead => ?_
  split
  · refine leads_setPayload cell fun other mem => ?_
    obtain old | rfl := List.mem_or_eq_of_mem_set mem
    · exact lead other old
    · exact new
  · exact .throw _

theorem leads_insertBytes (cell : Handle) (index : Int) (part : List UInt8) :
    Leads known (insertBytes cell index part) fun _ => True :=
  (Leads.lookAny _).bind fun _ _ => (Leads.lookAny _).bind fun _ _ =>
    (leads_resizePayload cell _ _).bind fun _ _ => leads_setPayload cell (Payload.leadsTo_bytes _)

theorem leads_insertValues (cell : Handle) (index : Int) (new : ∀ value ∈ values, value.LeadsTo known) :
    Leads known (insertValues cell index values) fun _ => True := by
  refine (leads_lookList cell).bind fun old lead => (Leads.lookAny _).bind fun index _ => ?_
  refine (leads_resizePayload cell _ _).bind fun _ _ => leads_setPayload cell fun value mem => ?_
  simp only [spliced, List.mem_append] at mem
  obtain (mem | mem) | mem := mem
  · exact lead value (List.mem_of_mem_take mem)
  · exact new value mem
  · exact lead value (List.mem_of_mem_drop mem)

theorem leads_insertElement (sequence : Value) (index : Int) (new : value.LeadsTo known) :
    Leads known (insertElement sequence index value) fun _ => True := by
  unfold insertElement
  split
  · exact leads_insertBytes _ index _
  · refine leads_insertValues _ index fun other mem => ?_
    exact List.mem_singleton.mp mem ▸ new
  · exact .throw _

theorem leads_insertSequence (sequence : Value) (index : Int) (other : Value) :
    Leads known (insertSequence sequence index other) fun _ => True := by
  unfold insertSequence
  split
  · exact (Leads.lookAny _).bind fun part _ => leads_insertBytes _ index part
  · exact (leads_lookList _).bind fun part lead => leads_insertValues _ index lead
  · exact .throw _

theorem leads_removeSlice (sequence : Value) (start finish : Int) :
    Leads known (removeSlice sequence start finish) fun _ => True := by
  unfold removeSlice
  split
  · next cell =>
    exact (Leads.lookAny _).bind fun _ _ => (Leads.lookAny _).bind fun _ _ =>
      (leads_setPayload cell (Payload.leadsTo_bytes _)).bind fun _ _ => leads_resizePayload cell _ _
  · next cell =>
    refine (leads_lookList cell).bind fun values lead => (Leads.lookAny _).bind fun _ _ => ?_
    refine (leads_setPayload cell fun value mem => ?_).bind fun _ _ => leads_resizePayload cell _ _
    obtain mem | mem := List.mem_append.mp mem
    · exact lead value (List.mem_of_mem_take mem)
    · exact lead value (List.mem_of_mem_drop mem)
  · exact .throw _

theorem leads_copySlice (sequence : Value) (start finish : Int) :
    Leads known (copySlice sequence start finish) (·.LeadsTo known) := by
  unfold copySlice
  split
  · exact (Leads.lookAny _).bind fun _ _ => (Leads.lookAny _).bind fun _ _ =>
      (leads_createString _).bind fun _ _ => .pure trivial
  · refine (leads_lookList _).bind fun values lead => (Leads.lookAny _).bind fun _ _ => ?_
    refine (leads_createList fun value mem => ?_).bind fun _ _ => .pure trivial
    exact lead value (List.mem_of_mem_take (List.mem_of_mem_drop mem))
  · exact .throw _

theorem leads_copySequence (sequence : Value) : Leads known (copySequence sequence) (·.LeadsTo known) := by
  unfold copySequence
  split
  · exact (Leads.lookAny _).bind fun _ _ => (leads_createString _).bind fun _ _ => .pure trivial
  · exact (leads_lookList _).bind fun values lead => (leads_createList lead).bind fun _ _ => .pure trivial
  · exact .throw _

theorem leads_concatenate (left right : Handle) : Leads known (concatenate left right) (·.LeadsTo known) :=
  (Leads.lookAny _).bind fun _ _ => (Leads.lookAny _).bind fun _ _ =>
    (leads_createString _).bind fun _ _ => .pure trivial

theorem leads_setVariable (place : VariableRef) (new : value.LeadsTo known) :
    Leads known (setVariable place value) fun _ => True := by
  intro memory kept
  unfold MemoryM.Ends setVariable
  cases memory.stack.variableAt? place with
  | none => exact kept
  | some binding => exact ⟨⟨kept.heap, kept.stack.setVariable place new⟩, trivial⟩

theorem leads_createVariable (name : String) (new : value.LeadsTo known) :
    Leads known (createVariable name value) fun _ => True :=
  .onStack fun _ _ _ _ leads => leads.createVariable new

theorem leads_pushScope : Leads known pushScope fun _ => True :=
  .onStack fun _ _ _ _ leads => leads.pushScope

theorem leads_pushBranch {action : BranchAction} {address : Address} (header : action = .loop → known address) :
    Leads known (pushBranch action address) fun _ => True := by
  refine .onStack fun stack ceiling result after leads ended => ?_
  cases pushed : stack.pushBranch action address ceiling with
  | error error => simp [pushed, Except.map] at ended
  | ok opened =>
      obtain ⟨-, rfl⟩ : () = result ∧ opened = after := by simpa [pushed, Except.map] using ended
      exact leads.pushBranch header pushed

end Memory

end PocketScript
