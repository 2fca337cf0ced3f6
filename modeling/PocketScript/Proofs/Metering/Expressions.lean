import PocketScript.Proofs.Metering.Advancing
import PocketScript.Proofs.Metering.Measuring

/-! # Expressions are measured

What an expression evaluates further in begins a bounded number of other expressions:
each element of a list and each argument is one, and a call goes through the body of a
function. Elements and arguments cannot be read without going forward in the store.
-/

namespace PocketScript

variable {κ : Type} {cost : Nat} {metered : Inner (Metered κ)} {inner : Inner κ} {machine : Machine (Metered κ)}
  {expression : Expression}

/-- The code of an expression that was read from an address is not before it, and behind
    it unless the address was at the end of a line. -/
structure Expression.Advances (store : Store) (start : Address) (result : Expression) : Prop where
  le : start ≤ result.code
  lt : Store.endsLine (store.byte start) = false → start < result.code

/-- What can be evaluated one level further in is measured: an expression costs at most
    `cost`, and code as much for each byte of the store. -/
structure Inner.Measured (cost : Nat) (metered : Inner (Metered κ)) (inner : Inner κ) : Prop where
  expression : ∀ {machine : Machine (Metered κ)}, machine.Watched → ∀ start ceiling isStatement,
    Eval.Measured cost (metered.expression start ceiling isStatement) (inner.expression start ceiling isStatement)
      machine (Eval.Calmly (·.Advances machine.store start))
  code : ∀ {machine : Machine (Metered κ)}, machine.Settled → ∀ address,
    Eval.Measured (Store.capacity * cost) (metered.code address) (inner.code address) machine
      fun _ after => after.memory.Loopless
  none : metered.body? = none → inner.body? = none
  body : ∀ body', metered.body? = some body' → ∃ body, inner.body? = some body ∧
    ∀ {machine : Machine (Metered κ)}, machine.Settled → ∀ address,
      Eval.Measured (Store.capacity * cost) (body' address) (body address) machine fun _ after => after.memory.Loopless

theorem Inner.Measured.argument (measured : Inner.Measured cost metered inner) (settled : machine.Settled)
    (start : Address) : Eval.Measured cost (metered.argument start) (inner.argument start) machine
      (Eval.Calmly (·.Advances machine.store start)) :=
  measured.expression settled.watched start _ false

namespace Machine

open Eval (Measured Calmly Gives)

theorem measured_readElements (measured : Inner.Measured cost metered inner) (start : Address) (list : Value)
    (steps : Nat) (address : Address) (index : Nat) (settled : machine.Settled)
    (enough : machine.console.looped = false → Store.capacity - address < steps) :
    Measured (steps * cost) (readElements metered start list steps address index)
      (readElements inner start list steps address index) machine (Calmly (address < ·)) := by
  induction steps generalizing machine address index with
  | zero =>
      refine (Measured.unfinished (Bool.eq_true_of_not_eq_false fun none => ?_)).free
      exact Nat.not_lt_zero _ (enough none)
  | succ steps ih =>
      unfold readElements
      refine .byteAt_bind ?_
      split
      · exact (Measured.raise _ _).free
      next inside =>
      have inside := Bool.eq_false_of_not_eq_true inside
      have below : address < Store.capacity := Store.lt_capacity fun zero => by
        rw [zero] at inside
        exact absurd inside (by decide)
      split
      · exact (Measured.pure fun none => ⟨settled none, Nat.lt_succ_self _⟩).free
      rw [Nat.succ_mul, Nat.add_comm]
      refine (measured.argument settled _).bind fun element after read => ?_
      -- A comma was consumed, or a byte of the element that is not the end of a line.
      have further (advances : element.Advances machine.store
          (if machine.store.byte address = 0x2c then address + 1 else address)) : address < element.code := by
        split at advances
        · exact advances.le
        · exact advances.lt inside
      split
      · exact (Measured.raise _ _).free
      refine .seq (.passing (.onMemory _ (Memory.loopless_insertElement _ _ _)) fun none => (read none).2.1) ?_
      intro _ last kept
      refine (ih _ _ (fun none => (kept none).2) fun none => ?_).imp fun none code _ calm => ?_
      · obtain ⟨before, -, advances⟩ := read (kept none).1
        exact Store.enough_behind (further advances) below (enough before)
      · obtain ⟨-, -, advances⟩ := read (kept none).1
        exact ⟨calm.1, Nat.lt_trans (further advances) calm.2⟩

theorem measured_readListLiteral (measured : Inner.Measured cost metered inner) (settled : machine.Settled) :
    Measured ((Store.capacity + 1) * cost) (readListLiteral metered expression) (readListLiteral inner expression)
      machine (Calmly fun result => expression.start < result.code) := by
  unfold readListLiteral
  refine .seq (.passing (.onMemory _ (Memory.loopless_createList _)) settled) fun cell created kept => ?_
  refine .seq (.passing (.track _) fun none => (kept none).2) fun _ tracked kept => ?_
  refine (measured_readElements measured _ _ _ _ _ (fun none => (kept none).2) fun _ => ?_).bind_free ?_
  · exact Nat.lt_succ_of_le (Nat.sub_le _ _)
  · intro code after read
    exact .pure fun none => ⟨(read none).2.1, Nat.lt_of_succ_lt (read none).2.2⟩

/-- Registering a value leaves the blocks alone, whatever they are. -/
theorem measured_track (value : Value) : Measured 0 (Eval.track value) (Eval.track value) machine fun _ after =>
    after.memory.stack = machine.memory.stack :=
  ⟨rfl, .of_same ⟨rfl, rfl⟩, fun _ => rfl⟩

theorem Watched.tracked {after : Machine (Metered κ)} (watched : machine.Watched)
    (kept : after.console.looped = false → machine.console.looped = false ∧
      after.memory.stack = machine.memory.stack) : after.Watched := by
  intro none
  obtain ⟨before, same⟩ := kept none
  rw [Noticeable, Memory.Loopless, same]
  exact watched before

theorem measured_applyBinary (measured : Inner.Measured cost metered inner) (operator : BinaryOperator)
    (watched : machine.Watched) :
    Measured cost (applyBinary metered operator expression) (applyBinary inner operator expression)
      machine (Calmly fun result => expression.code < result.code) := by
  unfold applyBinary
  refine .seq (measured_track _) fun _ tracked kept => ?_
  refine (measured.expression (watched.tracked kept) _ _ _).bind_free fun right after read => ?_
  refine .seq (.passing (.track _) fun none => (read none).2.1) fun _ last kept => ?_
  have settled : last.Settled := fun none => (kept none).2
  have behind (none : last.console.looped = false) : expression.code < right.code := (read (kept none).1).2.2.le
  split
  · exact .raise _ _
  cases operator with
  | assign =>
      refine (Measured.passing_gives (passes_assign _ _) settled (gives_assign_code _)).imp fun none result _ calm => ?_
      exact ⟨calm.1, Nat.lt_of_lt_of_eq (behind none) calm.2.symm⟩
  | update operator =>
      refine (Measured.passing_gives (passes_update _ _ _) settled (gives_update_code _ _)).imp ?_
      exact fun none result _ calm => ⟨calm.1, Nat.lt_of_lt_of_eq (behind none) calm.2.symm⟩
  | combine operator =>
      refine .seq (.passing (passes_combine _ _ _ _) settled) fun value _ kept => ?_
      exact .pure fun none => ⟨(kept none).2, behind (kept none).1⟩
  | compare operator =>
      refine .seq (.passing (passes_compare _ _ _ _) settled) fun value _ kept => ?_
      exact .pure fun none => ⟨(kept none).2, behind (kept none).1⟩

theorem measured_applyUnary (measured : Inner.Measured cost metered inner) (operator : UnaryOperator)
    (settled : machine.Settled) :
    Measured cost (applyUnary metered operator expression) (applyUnary inner operator expression)
      machine (Calmly fun result => expression.code < result.code) := by
  unfold applyUnary
  refine (measured.expression settled.watched _ _ _).bind_free fun operand after read => ?_
  have settled : after.Settled := fun none => (read none).2.1
  have behind (none : after.console.looped = false) : expression.code < operand.code := (read none).2.2.le
  dsimp only
  cases operand.value with
  | missing => exact .raise _ _
  | number number =>
      cases operator with
      | negate | not | complement => exact .pure fun none => ⟨settled none, behind none⟩
      | step direction =>
          cases operand.destination? with
          | none => exact .raise _ _
          | some destination =>
              refine .seq (.passing (Destination.passes_write _ _ _ _) settled) fun _ written kept => ?_
              refine .seq (.passing (Destination.passes_read _ _ _) fun none => (kept none).2) ?_
              intro value last kept'
              exact .pure fun none => ⟨(kept' none).2, behind (kept (kept' none).1).1⟩
  | string _ | list _ | function _ => exact .raise _ _

theorem measured_readParenthesis (measured : Inner.Measured cost metered inner) (settled : machine.Settled) :
    Measured cost (readParenthesis metered expression) (readParenthesis inner expression)
      machine (Calmly fun result => expression.start < result.code) := by
  unfold readParenthesis
  refine (measured.argument settled _).bind_free fun inside after read => .byteAt_bind ?_
  split
  · exact .raise _ _
  · exact .pure fun none => ⟨(read none).2.1, Nat.lt_succ_of_lt (read none).2.2.le⟩

theorem measured_applyIndex (measured : Inner.Measured cost metered inner) (settled : machine.Settled) :
    Measured cost (applyIndex metered expression) (applyIndex inner expression)
      machine (Calmly fun result => expression.code < result.code) := by
  unfold applyIndex
  dsimp only
  split
  · exact (Measured.raise _ _).free
  refine (measured.argument settled _).bind_free fun index after read => ?_
  have settled : after.Settled := fun none => (read none).2.1
  split
  · exact .raise _ _
  refine .byteAt_bind ?_
  split
  · exact .raise _ _
  cases index.value with
  | number number =>
      refine .seq (.passing (passes_select _ _ _) settled) fun destination selected kept => ?_
      refine .seq (.passing (.track _) fun none => (kept none).2) fun _ tracked kept' => ?_
      refine .seq (.passing (Destination.passes_read _ _ _) fun none => (kept' none).2) fun value last kept'' => ?_
      refine .pure fun none => ⟨(kept'' none).2, ?_⟩
      exact Nat.lt_succ_of_lt (read (kept (kept' (kept'' none).1).1).1).2.2.le
  | missing | string _ | list _ | function _ => exact .raise _ _

theorem measured_readArguments (measured : Inner.Measured cost metered inner) (start : Address) (array count : Nat)
    (address : Address) (settled : machine.Settled) :
    Measured (count * cost) (readArguments metered start array count address)
      (readArguments inner start array count address) machine (Calmly fun read => address ≤ read.2) := by
  induction count generalizing machine address with
  | zero => exact (Measured.pure fun none => ⟨settled none, Nat.le_refl _⟩).free
  | succ count ih =>
      unfold readArguments
      rw [Nat.succ_mul, Nat.add_comm]
      refine (measured.argument settled _).bind fun argument after read => ?_
      split
      · exact (Measured.raise _ _).free
      refine .seq (.passing (.modifyRoots _) fun none => (read none).2.1) fun _ tracked kept => .byteAt_bind ?_
      refine (ih _ fun none => (kept none).2).bind_free fun rest last calm => .pure fun none => ?_
      obtain ⟨before, loopless, further⟩ := calm none
      refine ⟨loopless, Nat.le_trans (read (kept before).1).2.2.le (Nat.le_trans ?_ further)⟩
      split
      · exact Nat.le_succ _
      · exact Nat.le_refl _

theorem measured_runBody {body' : Address → Eval (Metered κ) Value} {body : Address → Eval κ Value}
    (measured : ∀ {machine : Machine (Metered κ)}, machine.Settled → ∀ address,
      Measured cost (body' address) (body address) machine fun _ after => after.memory.Loopless)
    (header : Address) (arguments : List Value) (start : Address) (settled : machine.Settled) :
    Measured cost (runBody body' header arguments start) (runBody body header arguments start) machine
      fun _ after => after.memory.Loopless := by
  unfold runBody
  refine .seq (.passing (.onMemory _ Memory.loopless_pushScope) settled) fun scope opened kept => ?_
  refine .always (fun memory => { memory with stack := memory.stack.popScope })
    (fun _ loopless => ScopeStack.Loopless.popScope loopless) ?_ fun _ _ loopless =>
      ScopeStack.Loopless.popScope loopless
  have still : (BranchAction.run : BranchAction) ≠ .loop := by decide
  refine .seq (.passing (.onMemory _ (Memory.loopless_pushBranch still _)) fun none => (kept none).2) ?_
  intro _ entered kept
  refine .seq (.passing (.modifyRoots _) fun none => (kept none).2) fun _ rooted kept => .get_bind ?_
  refine .seq (.passing (passes_bindParameters _ _ _) fun none => (kept none).2) fun code bound kept => ?_
  exact measured (fun none => (kept none).2) code

theorem measured_applyCall (measured : Inner.Measured cost metered inner) (settled : machine.Settled) :
    Measured (2 * Store.capacity * cost) (applyCall metered expression) (applyCall inner expression) machine
      (Calmly fun result => expression.code < result.code) := by
  unfold applyCall
  dsimp only
  cases expression.value with
  | function header =>
      refine .get_bind (.get_bind (.seq (.passing .trackValues settled) fun array tracked kept => ?_))
      have fewer : machine.store.parameterCount header * cost + Store.capacity * cost ≤ 2 * Store.capacity * cost := by
        rw [← Nat.add_mul]
        refine Nat.mul_le_mul_right _ ?_
        have := machine.store.parameterCount_lt header
        omega
      refine Measured.le (.bind (measured_readArguments measured _ _ _ _ fun none => (kept none).2) ?_) fewer
      intro arguments after read
      have settled : after.Settled := fun none => (read none).2.1
      cases some_body : metered.body? with
      | none =>
          rw [measured.none some_body]
          exact (Measured.raise _ _).free
      | some body' =>
          obtain ⟨body, here, runs⟩ := measured.body body' some_body
          rw [here]
          refine Measured.bind_free (?_ : Measured _ _ _ after fun _ returned => returned.memory.Loopless) ?_
          · exact .always (fun memory => { memory with
              roots := Roots.release memory.roots machine.memory.roots.size }) (fun _ loopless => loopless)
              (.nested (measured_runBody runs _ _ _ settled) fun _ _ loopless => loopless) fun _ _ loopless => loopless
          intro value returned kept
          refine .seq (.passing (.track _) fun none => (kept none).2) fun _ last kept' => .pure fun none => ?_
          exact ⟨(kept' none).2, (read (kept (kept' none).1).1).2.2⟩
  | missing | number _ | string _ | list _ => exact (Measured.raise _ _).free

end Machine

end PocketScript
