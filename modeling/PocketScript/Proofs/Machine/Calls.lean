import PocketScript.Machine.Call
import PocketScript.Proofs.Machine.Literals

/-! # Calls keep memory sound

Arguments are registered one by one, the scope of a call is registered while its
body runs, and a call gives back the scope and every registration that it made.
What a function answers with is live when it is left, and is registered at once.
-/

namespace PocketScript

namespace ScopeStack

variable {stack : ScopeStack} {place : VariableRef}

theorem isSome_scope (there : (stack.variableAt? place).isSome) : place.scope < stack.scopes.size := by
  by_contra outside
  simp [variableAt?, Array.getElem?_eq_none (Nat.le_of_not_lt outside)] at there

/-- A scope that was just opened has no variables. -/
theorem variableAt?_push (base : Nat) (place : VariableRef) :
    (ScopeStack.mk (stack.scopes.push (.opened base))).variableAt? place = stack.variableAt? place := by
  simp only [variableAt?, Array.getElem?_push]
  split
  · next last =>
    rw [last, Array.getElem?_eq_none (Nat.le_refl _)]
    simp [Scope.opened]
  · rfl

theorem variableAt?_popScope (stack : ScopeStack) (place : VariableRef) : stack.popScope.variableAt? place =
    if place.scope < stack.scopes.size - 1 then stack.variableAt? place else none := by
  simp only [variableAt?, popScope, Array.getElem?_pop]
  split
  · rfl
  · rfl

end ScopeStack

/-- A scope was opened. -/
structure Machine.Opened {κ : Type} (machine opened : Machine κ) : Prop where
  steady : opened.Steady
  heap : opened.memory.heap = machine.memory.heap
  roots : opened.memory.roots = machine.memory.roots
  depth : opened.memory.stack.scopes.size = machine.memory.stack.scopes.size + 1
  places : ∀ place, (machine.memory.stack.variableAt? place).isSome →
    (opened.memory.stack.variableAt? place).isSome

namespace Machine

open Eval (Keeps KeepsFrom)

variable {κ β : Type} {machine opened after : Machine κ} {inner : Inner κ} {expression : Expression}
  {value : Value}

theorem Steady.pushScope (steady : machine.Steady) (address : Address) :
    (∃ after, Eval.onMemory address Memory.pushScope machine = .error .quit after ∧ after.Ended) ∨
      ∃ opened, Eval.onMemory address Memory.pushScope machine =
          .ok machine.memory.stack.scopes.size opened ∧ machine.Opened opened := by
  unfold Eval.onMemory Eval.onMemoryAs Memory.pushScope Memory.onStack ScopeStack.pushScope
  by_cases room : machine.memory.heap.boundary < machine.memory.stack.boundary + Scope.headerSize
  · simp only [room, if_true]
    refine .inl ⟨_, rfl, fun address same => ?_, steady.sound.heap⟩
    simp at same
  · simp only [room, if_false]
    have bound : ∀ place binding,
        (ScopeStack.mk (machine.memory.stack.scopes.push (.opened machine.memory.stack.boundary))).variableAt? place =
          some binding → machine.memory.Live binding.value := by
      intro place binding here
      rw [ScopeStack.variableAt?_push] at here
      exact steady.sound.bound place binding here
    refine .inr ⟨_, rfl, ⟨steady.harmless, steady.sound.heap, steady.sound.consistent, bound, steady.sound.registered⟩,
      rfl, rfl, Array.size_push _, fun place there => ?_⟩
    simpa only [ScopeStack.variableAt?_push] using there

/-- The first block of a scope is opened and the scope is registered. -/
theorem Opened.enter (opens : machine.Opened opened) (tracked : machine.memory.Tracked) (address : Address)
    {next : Eval κ β} {done : β → Machine κ → Prop}
    (rest : ∀ entered, opened.Follows entered → entered.Ready → opened.memory.Evolves entered.memory →
      Keeps next entered done) :
    Keeps (do
      Eval.onMemory address (Memory.pushBranch .run 0)
      Eval.modifyRoots (·.push (.scope machine.memory.stack.scopes.size))
      next) opened done := by
  refine (Keeps.onMemory opens.steady (opens.steady.sound.pushBranch .run 0)).bind ?_
  rintro _ branched follows ⟨evolves, -⟩
  have none : (Root.scope machine.memory.stack.scopes.size).registered = [] := rfl
  refine (Keeps.pushRoot follows.steady none).bind ?_
  rintro _ entered follows' ⟨evolves', roots⟩
  refine rest entered (follows.trans follows') ⟨follows'.steady, fun index inside => ?_⟩ (evolves.trans evolves')
  rw [evolves'.depth, evolves.depth, opens.depth] at inside
  rw [roots]
  rcases Nat.lt_succ_iff_lt_or_eq.mp inside with before | rfl
  · refine Array.mem_push_of_mem _ (evolves.roots.mem_scope ?_)
    rw [opens.roots]
    exact tracked index before
  · exact Array.mem_push_self

/-- Closing the scope gives back what follows the machine before. -/
theorem Opened.close (opens : machine.Opened opened) (follows : opened.Follows after) :
    machine.Follows { after with memory := { after.memory with stack := after.memory.stack.popScope } } := by
  obtain ⟨harmless, sound, depth, places, roots⟩ := follows
  rw [opens.depth] at depth
  refine ⟨harmless, ⟨sound.heap, sound.consistent, fun place binding here => ?_, sound.registered⟩, ?_,
    fun place there => ?_, ?_⟩
  · rw [ScopeStack.variableAt?_popScope] at here
    split at here
    · exact sound.bound place binding here
    · simp at here
  · simp only [ScopeStack.popScope, Array.size_pop]
    omega
  · have inside := ScopeStack.isSome_scope there
    rw [ScopeStack.variableAt?_popScope, if_pos (by omega)]
    exact places place (opens.places place there)
  · rw [← opens.roots]
    exact roots

theorem keeps_readArguments (inside : inner.Sound) (start : Address) {array : Nat} (ready : machine.Ready)
    (collects : machine.memory.roots.Collects array) (count : Nat) (address : Address) :
    Keeps (readArguments inner start array count address) machine fun result after =>
      ∀ value ∈ result.1, after.memory.roots.Registered value := by
  induction count generalizing machine address with
  | zero => exact .pure ready.toSteady (by simp)
  | succ count ih =>
      refine (inside.argument ready _).bind ?_
      intro argument evaluated follows fresh
      split
      · exact .raise follows.steady _
      · have collects := follows.memory.roots.collects collects
        refine (Keeps.trackIn follows.steady fresh.value collects).bind ?_
        rintro - tracked follows' ⟨evolves, registered⟩
        refine .byteAt_bind ?_
        refine (ih ((follows.trans follows').ready ready) (evolves.roots.collects collects) _).bind ?_
        rintro ⟨rest, after⟩ last follows'' all
        refine .pure follows''.steady fun value mem => ?_
        rcases List.mem_cons.mp mem with rfl | mem
        · exact follows''.memory.roots.registered registered
        · exact all value mem

theorem keeps_bindParameters (start : Address) {arguments : List Value} (steady : machine.Steady)
    (live : ∀ value ∈ arguments, machine.memory.Live value) (address : Address) :
    Keeps (bindParameters start arguments address) machine fun _ _ => True := by
  induction arguments generalizing machine address with
  | nil => exact .pure steady trivial
  | cons argument rest ih =>
      refine .get_bind ?_
      dsimp only
      split
      · exact .raise steady _
      · refine (Keeps.onMemory steady (steady.sound.createVariable (live argument (by simp)) _)).bind ?_
        rintro place bound follows ⟨evolves, -⟩
        exact ih follows.steady (fun value mem => evolves.keeps value (live value (by simp [mem]))) _

theorem keeps_runBody {body : Address → Eval κ Value} (inside : ∀ {machine : Machine κ}, machine.Ready →
      ∀ address, Keeps (body address) machine fun value after => after.memory.Live value)
    (ready : machine.Ready) {arguments : List Value} (live : ∀ value ∈ arguments, machine.memory.Live value)
    (header start : Address) :
    Keeps (runBody body header arguments start) machine fun value after => after.memory.Live value := by
  obtain ⟨after, ran, ended⟩ | ⟨opened, ran, opens⟩ := ready.toSteady.pushScope start
  · exact .bind_ended ran ended
  · refine .bind_ran ran ?_
    refine .always (?_ : KeepsFrom opened _ opened fun value after => after.memory.Live value) (fun _ => rfl)
      (fun _ => rfl) (fun _ follows => opens.close follows) fun _ _ _ live => live
    refine opens.enter ready.tracked start fun entered follows entered_ready evolves => .get_bind ?_
    have live : ∀ value ∈ arguments, entered.memory.Live value := by
      intro value mem
      refine evolves.keeps value ?_
      rw [Memory.Live, opens.heap]
      exact live value mem
    refine (keeps_bindParameters start entered_ready.toSteady live _).bind ?_
    intro code bound follows' _
    exact inside (follows'.ready entered_ready) code

theorem keeps_applyCall (inside : inner.Sound) (ready : machine.Ready)
    (valid : expression.Valid machine.memory) :
    Keeps (applyCall inner expression) machine fun result after => result.Valid after.memory := by
  unfold applyCall
  dsimp only
  split
  · exact .raise ready.toSteady _
  · next header _ =>
    refine .get_bind (.get_bind ?_)
    refine KeepsFrom.bind (Keeps.trackValues ready.toSteady) ?_
    rintro array tracked follows ⟨-, collects⟩
    refine KeepsFrom.bind ((keeps_readArguments inside _ (follows.ready ready) collects _ _).from follows) ?_
    rintro ⟨arguments, code⟩ evaluated follows registered
    have steady := follows.steady
    dsimp only
    split
    · exact (Keeps.raise steady _).from follows
    · next body some_body =>
      have live : ∀ value ∈ arguments, evaluated.memory.Live value :=
        fun value mem => steady.sound.registered value (registered value mem)
      have deeper := follows.trans (.enter steady)
      have runs := keeps_runBody (inside.body some_body) (deeper.ready ready) live header expression.start
      refine KeepsFrom.bind (?_ : KeepsFrom machine _ evaluated fun value after => after.memory.Live value) ?_
      · refine .always (.nested runs fun _ _ live => live) (fun _ => rfl) (fun _ => rfl) ?_ fun _ _ _ live => live
        exact fun _ follows' => (deeper.trans follows').release
      intro value returned follows live
      refine KeepsFrom.bind ((Keeps.track follows.steady live).from follows) ?_
      rintro - after follows' ⟨evolves, -⟩
      refine (Keeps.pure follows'.steady ?_).from follows'
      refine ⟨evolves.keeps _ live, fun destination same => ?_⟩
      exact (valid.destination destination same).outlast follows'.memory
  · exact .raise ready.toSteady _

end Machine

end PocketScript
