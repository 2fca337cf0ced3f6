import PocketScript.Console.Script
import PocketScript.Proofs.Bytes
import PocketScript.Proofs.Machine.Operands
import PocketScript.Proofs.Machine.Runs

/-! # What can be written to

The operators that write to an operand look at nothing but the place it has its
value from. Without one they fail, with one exception: `=` looks for a name where
the operand starts, whatever else the operand consists of.
-/

namespace PocketScript

namespace Machine

variable {κ : Type} {machine after last : Machine κ} {inner : Inner κ} {left : Expression}
  {ceiling : Nat} {start : Address}

/-- A program ends with a fault, and everything it works on is as it was. -/
structure Refused (machine : Machine κ) (kind : FaultKind) (address : Address) (after : Machine κ) : Prop where
  store : after.store = machine.store
  console : after.console = machine.console
  stack : after.memory.stack = machine.memory.stack
  heap : after.memory.heap = machine.memory.heap
  draws : after.draws = machine.draws
  fault : after.fault? = some ⟨.program kind, address⟩

/-- The right operand of an operator that binds to a left one. -/
def rightOperand (inner : Inner κ) (operator : BinaryOperator) (left : Expression) : Eval κ Expression := do
  Eval.track left.value
  Eval.track left.value
  inner.expression (left.code + 1) operator.precedence false

theorem readName_nameless (nameless : Symbol.startsName (machine.store.byte start) = false) :
    readName start machine = Eval.raise .badDestination start machine := by
  unfold readName
  simp only [Bind.bind, EStateM.bind, get, getThe, MonadStateOf.get, EStateM.get, Store.name?, nameless,
    Bool.false_eq_true, if_false]

/-- Whatever is stored, there is no place for it. -/
theorem assign_refused (nowhere : left.destination? = none)
    (nameless : Symbol.startsName (machine.store.byte left.start) = false) (value : Value) :
    assign left value machine = Eval.raise .badDestination left.start machine := by
  unfold assign
  simp only [nowhere, Bind.bind, EStateM.bind, readName_nameless nameless]
  rfl

theorem readRest_step {direction : Step} (here : Step.ofByte? (machine.store.byte left.code) = some direction)
    (inner : Inner κ) (ceiling steps : Nat) :
    readRest inner ceiling (steps + 1) left machine = (do
      Eval.track left.value
      let next ← applyStep direction left
      readRest inner ceiling steps next) machine := by
  simp only [readRest, Eval.byteAt, Bind.bind, EStateM.bind, get, getThe, MonadStateOf.get, EStateM.get, Pure.pure,
    EStateM.pure, Eval.track, Eval.modifyRoots, Eval.modifyMemory, modify, modifyGet, MonadStateOf.modifyGet,
    EStateM.modifyGet, here]

theorem readRest_operator {operator : BinaryOperator}
    (here : BinaryOperator.ofByte? (machine.store.byte left.code) = some operator)
    (binds : operator.precedence < ceiling) (inner : Inner κ) (steps : Nat) :
    readRest inner ceiling (steps + 1) left machine =
      ((do Eval.track left.value; applyBinary inner operator left) >>= readRest inner ceiling steps) machine := by
  obtain ⟨step, index, call, -⟩ := BinaryOperator.ofByte?_spec (machine.store.byte left.code) (by simp [here])
  simp only [readRest, Eval.byteAt, Bind.bind, EStateM.bind, get, getThe, MonadStateOf.get, EStateM.get, Pure.pure,
    EStateM.pure, Eval.track, Eval.modifyRoots, Eval.modifyMemory, modify, modifyGet, MonadStateOf.modifyGet,
    EStateM.modifyGet, step, index, call, here, binds, if_false, if_true]

/-- An evaluation ends with one of some faults, and leaves everything as it is
    at `reached`. -/
def Refuses (evaluation : Eval κ Expression) (machine reached : Machine κ) (kinds : List FaultKind)
    (address : Address) : Prop :=
  ∃ kind ∈ kinds, ∃ last, evaluation machine = .error .quit last ∧ reached.Refused kind address last

/-- A step behind an operand that is at no place. -/
theorem step_refused {direction : Step} (here : Step.ofByte? (machine.store.byte left.code) = some direction)
    (nowhere : left.destination? = none) (inner : Inner κ) (ceiling steps : Nat) :
    Refuses (readRest inner ceiling (steps + 1) left) machine machine [.badDestination, .badOperandType]
      left.start := by
  unfold Refuses
  rw [readRest_step here]
  simp only [Bind.bind, EStateM.bind, applyStep, nowhere]
  cases left.value with
  | number number => exact ⟨.badDestination, by simp, _, rfl, rfl, rfl, rfl, rfl, rfl, rfl⟩
  | missing | string _ | list _ | function _ =>
      exact ⟨.badOperandType, by simp, _, rfl, rfl, rfl, rfl, rfl, rfl, rfl⟩

theorem applyBinary_refused {operator : BinaryOperator} (writing : Production.ofOperator operator = .writing)
    (nowhere : left.destination? = none) {right : Expression}
    (ran : rightOperand inner operator left machine = .ok right after)
    (nameless : operator = .assign → Symbol.startsName (after.store.byte left.start) = false) :
    ∃ kind ∈ [.badDestination, .missingValue],
      (do Eval.track left.value; applyBinary inner operator left) machine =
        (do Eval.track right.value; Eval.raise kind left.start) after := by
  simp only [rightOperand, Eval.track, Eval.modifyRoots, Eval.modifyMemory, modify, modifyGet, MonadStateOf.modifyGet,
    EStateM.modifyGet, Bind.bind, EStateM.bind] at ran
  simp only [applyBinary, Eval.track, Eval.modifyRoots, Eval.modifyMemory, modify, modifyGet, MonadStateOf.modifyGet,
    EStateM.modifyGet, Bind.bind, EStateM.bind, ran]
  cases right.value.isMissing with
  | true => exact ⟨.missingValue, by simp, rfl⟩
  | false =>
      refine ⟨.badDestination, by simp, ?_⟩
      rw [if_neg Bool.false_ne_true]
      cases operator with
      | assign =>
          refine assign_refused ?_ ?_ right.value
          · exact nowhere
          · exact nameless rfl
      | update operator => simp only [update, nowhere]
      | combine operator | compare operator => cases writing

/-- A writing operator behind an operand that is at no place fails once its right
    operand is evaluated. -/
theorem writing_refused {operator : BinaryOperator}
    (here : BinaryOperator.ofByte? (machine.store.byte left.code) = some operator)
    (writing : Production.ofOperator operator = .writing) (binds : operator.precedence < ceiling)
    (nowhere : left.destination? = none) (steps : Nat) {right : Expression}
    (ran : rightOperand inner operator left machine = .ok right after)
    (nameless : operator = .assign → Symbol.startsName (after.store.byte left.start) = false) :
    Refuses (readRest inner ceiling (steps + 1) left) machine after [.badDestination, .missingValue] left.start := by
  obtain ⟨kind, mem, refused⟩ := applyBinary_refused writing nowhere ran nameless
  have failed : readRest inner ceiling (steps + 1) left machine =
      (do Eval.track right.value; Eval.raise kind left.start) after := by
    rw [readRest_operator here binds]
    change EStateM.bind _ _ machine = _
    unfold EStateM.bind
    rw [refused]
    rfl
  exact ⟨kind, mem, _, failed, rfl, rfl, rfl, rfl, rfl, rfl⟩

theorem readRest_error {operator : BinaryOperator} {interrupt : Interrupt}
    (here : BinaryOperator.ofByte? (machine.store.byte left.code) = some operator)
    (binds : operator.precedence < ceiling) (steps : Nat)
    (ran : rightOperand inner operator left machine = .error interrupt last) :
    readRest inner ceiling (steps + 1) left machine = .error interrupt last := by
  rw [readRest_operator here binds]
  simp only [rightOperand, Eval.track, Eval.modifyRoots, Eval.modifyMemory, modify, modifyGet, MonadStateOf.modifyGet,
    EStateM.modifyGet, Bind.bind, EStateM.bind] at ran
  simp only [applyBinary, Eval.track, Eval.modifyRoots, Eval.modifyMemory, modify, modifyGet, MonadStateOf.modifyGet,
    EStateM.modifyGet, Bind.bind, EStateM.bind, ran]

/-- A step in front of an operand that is at no place. -/
theorem prefix_refused {direction : Step} {operand : Expression} (nowhere : operand.destination? = none)
    (ran : inner.expression (start + 1) Inner.operandCeiling false machine = .ok operand after) :
    Refuses (applyUnary inner (.step direction) (.starting start)) machine after
      [.badDestination, .missingValue, .badOperandType] start := by
  unfold Refuses applyUnary
  simp only [Expression.starting, Bind.bind, EStateM.bind, ran]
  cases operand.value with
  | missing => exact ⟨.missingValue, by simp, _, rfl, rfl, rfl, rfl, rfl, rfl, rfl⟩
  | number number =>
      simp only [nowhere]
      exact ⟨.badDestination, by simp, _, rfl, rfl, rfl, rfl, rfl, rfl, rfl⟩
  | string _ | list _ | function _ => exact ⟨.badOperandType, by simp, _, rfl, rfl, rfl, rfl, rfl, rfl, rfl⟩

variable [Console κ]

theorem readPrimary_step (opens : Production.ofByte? (machine.store.byte start) = some .step) (inner : Inner κ)
    (isStatement : Bool) : ∃ direction,
      readPrimary inner (.starting start) isStatement machine =
        applyUnary inner (.step direction) (.starting start) machine := by
  unfold Production.ofByte? at opens
  split at opens
  · cases opens
  next digit =>
  split at opens
  · cases opens
  next name =>
  split at opens
  · cases opens
  next literal =>
  split at opens
  · cases opens
  next parenthesis =>
  obtain ⟨character, string, list⟩ := not_or.mp literal |>.imp_right not_or.mp
  split at opens
  · cases opens
  · next direction builtin unary =>
    refine ⟨direction, ?_⟩
    unfold readPrimary
    simp only [Bind.bind, EStateM.bind, Eval.byteAt, Expression.starting, get, getThe, MonadStateOf.get, EStateM.get,
      Pure.pure, EStateM.pure, digit, name, character, string, list, parenthesis, builtin, unary, Bool.false_eq_true,
      if_false]
  · cases opens
  · cases opens

/-- What binds to an operand from behind does not write to it: a step fails, and
    a writing operator does once its right operand is evaluated. Only `=` may
    find a name where the operand starts. -/
structure Unwritable (inner : Inner κ) (ceiling : Nat) (left : Expression) (machine : Machine κ) : Prop where
  step : ∀ steps direction, Step.ofByte? (machine.store.byte left.code) = some direction →
    Refuses (readRest inner ceiling (steps + 1) left) machine machine [.badDestination, .badOperandType] left.start
  writing : ∀ steps operator, BinaryOperator.ofByte? (machine.store.byte left.code) = some operator →
    Production.ofOperator operator = .writing → operator.precedence < ceiling →
      (∃ interrupt last, rightOperand inner operator left machine = .error interrupt last ∧
        readRest inner ceiling (steps + 1) left machine = .error interrupt last) ∨
      ∃ right after, rightOperand inner operator left machine = .ok right after ∧
        ((operator = .assign → Symbol.startsName (after.store.byte left.start) = false) →
          Refuses (readRest inner ceiling (steps + 1) left) machine after [.badDestination, .missingValue] left.start)

omit [Console κ] in
theorem unwritable_of_nowhere (inner : Inner κ) (ceiling : Nat) (machine : Machine κ)
    (nowhere : left.destination? = none) : Unwritable inner ceiling left machine := by
  refine ⟨fun steps direction here => step_refused here nowhere _ _ _, fun steps operator here writing binds => ?_⟩
  cases ran : rightOperand inner operator left machine with
  | ok right after => exact .inr ⟨right, after, rfl, writing_refused here writing binds nowhere steps ran⟩
  | error interrupt last => exact .inl ⟨interrupt, last, rfl, readRest_error here binds steps ran⟩

/-- What is written to needs a place. An operand whose outermost operation is a
    literal, a built-in function, a sign or a combination has none, so it cannot
    be written to from behind or by a step in front of it; and other than that,
    only a name without a variable has none. -/
theorem writing_needs_place (limit levels : Nat) (machine : Machine κ) (production : Production)
    (left : Expression) (reached : Machine κ) :
    (∀ start ceiling isStatement, ReadsTo limit levels start ceiling isStatement machine production left reached →
      (production.isDetached = true → Unwritable (innerOf limit levels) ceiling left reached) ∧
      (production.isDetached = false → left.destination? = none → production = .name)) ∧
    (∀ front isStatement after, Production.ofByte? (machine.store.byte front) = some .step →
      ReadsTo limit levels (front + 1) Inner.operandCeiling false machine production left reached →
      evaluate limit (levels + 1) (front + 1) Inner.operandCeiling false machine = .ok left after →
      production.isDetached = true →
        Refuses (readPrimary (innerOf limit (levels + 1)) (.starting front) isStatement) machine after
          [.badDestination, .missingValue, .badOperandType] front) := by
  refine ⟨fun start ceiling isStatement reads => ⟨fun detached => ?_, fun attached none => ?_⟩, ?_⟩
  · exact unwritable_of_nowhere _ _ _ (reads.fits.detached detached)
  · obtain ⟨-, detached | name⟩ := reads.fits.nowhere none
    · simp [attached] at detached
    · exact name
  · intro front isStatement after opens reads whole detached
    obtain ⟨direction, read⟩ := readPrimary_step opens (innerOf limit (levels + 1)) isStatement
    unfold Refuses
    rw [read]
    exact prefix_refused (reads.fits.detached detached) whole

omit [Console κ] in
theorem ran_of_run' {α : Type} {evaluation : Eval κ α} {result : α}
    (ran : EStateM.run' evaluation machine = some result) : ∃ after, evaluation machine = .ok result after := by
  simp only [EStateM.run', EStateM.run] at ran
  cases evaluated : evaluation machine with
  | ok result' after =>
      rw [evaluated] at ran
      exact ⟨after, by rw [Option.some.inj ran]⟩
  | error interrupt after => simp [evaluated] at ran

omit [Console κ] in
theorem run'_bind {α β : Type} {evaluation : Eval κ α} {next : α → Eval κ β} {result : α}
    (ran : evaluation machine = .ok result after) :
    EStateM.run' (evaluation >>= next) machine = EStateM.run' (next result) after := by
  simp only [EStateM.run', EStateM.run, Bind.bind, EStateM.bind, ran]

/-- A program that steps a character literal, from behind and from the front:

        'a'++
        ++'a'
-/
def slotOfSteppedLiterals : List UInt8 :=
  [1, 77, 65, 73, 78] ++ List.replicate 12 0 ++ [9, 0] ++ [39, 97, 39, 133, 10, 133, 39, 97, 39, 0]

/-- A machine in front of that program. -/
def steppingLiterals : Machine Script :=
  Machine.start (Store.ofImage slotOfSteppedLiterals.toArray) (Script.ofAnswers []) Configuration.standard

theorem steppingLiterals_isRunning : steppingLiterals.memory.stack.action.isIgnored = false := by
  decide +kernel

theorem opens_steppingLiterals : Production.ofByte? (steppingLiterals.store.byte 19) = some .literal ∧
    Production.ofByte? (steppingLiterals.store.byte 24) = some .step ∧
    Production.ofByte? (steppingLiterals.store.byte 25) = some .literal := by
  unfold steppingLiterals
  rw [ofImage_toArray slotOfSteppedLiterals (by decide +kernel)]
  decide +kernel

/-- The first literal is read, with a step behind it. -/
theorem reads_steppingLiterals : ∃ left reached,
    ReadsTo 9 9 19 Inner.statementCeiling true steppingLiterals .literal left reached ∧
      reached.store.byte left.code = 133 := by
  have ran : (EStateM.run' (readPrimary (innerOf 9 9) (.starting 19) true) steppingLiterals).isSome = true ∧
      EStateM.run' (do
        let left ← readPrimary (innerOf 9 9) (.starting 19) true
        Eval.byteAt left.code) steppingLiterals = some 133 := by
    unfold steppingLiterals
    rw [ofImage_toArray slotOfSteppedLiterals (by decide +kernel)]
    decide +kernel
  obtain ⟨some_left, next⟩ := ran
  obtain ⟨left, ran⟩ := Option.isSome_iff_exists.mp some_left
  obtain ⟨reached, ran⟩ := ran_of_run' ran
  refine ⟨left, reached, .opened steppingLiterals_isRunning opens_steppingLiterals.1 ran, ?_⟩
  rw [run'_bind ran] at next
  exact Option.some.inj next

/-- The second literal is read, with nothing behind it. -/
theorem evaluates_steppingLiterals : ∃ operand reached after,
    ReadsTo 9 9 25 Inner.operandCeiling false steppingLiterals .literal operand reached ∧
      evaluate 9 10 25 Inner.operandCeiling false steppingLiterals = .ok operand after := by
  have ran : (EStateM.run' (readPrimary (innerOf 9 9) (.starting 25) false) steppingLiterals).isSome = true ∧
      EStateM.run' (evaluate 9 10 25 Inner.operandCeiling false) steppingLiterals =
        EStateM.run' (readPrimary (innerOf 9 9) (.starting 25) false) steppingLiterals := by
    unfold steppingLiterals
    rw [ofImage_toArray slotOfSteppedLiterals (by decide +kernel)]
    decide +kernel
  obtain ⟨some_left, same⟩ := ran
  obtain ⟨operand, ran⟩ := Option.isSome_iff_exists.mp some_left
  obtain ⟨after, whole⟩ := ran_of_run' (same.trans ran)
  obtain ⟨reached, ran⟩ := ran_of_run' ran
  exact ⟨operand, reached, after, .opened steppingLiterals_isRunning opens_steppingLiterals.2.2 ran, whole⟩

/-- Both steps are refused. -/
theorem refuses_steppingLiterals :
    (∃ left reached, ReadsTo 9 9 19 Inner.statementCeiling true steppingLiterals .literal left reached ∧
      Refuses (readRest (innerOf 9 9) Inner.statementCeiling 9 left) reached reached
        [.badDestination, .badOperandType] left.start) ∧
    ∃ after, Refuses (readPrimary (innerOf 9 10) (.starting 24) true) steppingLiterals after
      [.badDestination, .missingValue, .badOperandType] 24 := by
  constructor
  · obtain ⟨left, reached, reads, here⟩ := reads_steppingLiterals
    have unwritable := ((writing_needs_place 9 9 steppingLiterals .literal left reached).1 _ _ _ reads).1 rfl
    exact ⟨left, reached, reads, unwritable.step 8 .up (by rw [here]; rfl)⟩
  · obtain ⟨operand, reached, after, reads, whole⟩ := evaluates_steppingLiterals
    have refused := (writing_needs_place 9 9 steppingLiterals .literal operand reached).2 24 true after
    exact ⟨after, refused opens_steppingLiterals.2.1 reads whole rfl⟩

/-- A program that assigns to a sum:

        A=1
        A+1=5
        print:A
-/
def slotOfAssignedSum : List UInt8 :=
  [1, 77, 65, 73, 78] ++ List.replicate 12 0 ++ [12, 0] ++
    [65, 61, 49, 10, 65, 43, 49, 61, 53, 10, 186, 65, 0]

/-- The sum is at no place, but a new variable takes the name in front of it. -/
theorem runSlot_assignedSum :
    let run := (Machine.start (Store.ofImage slotOfAssignedSum.toArray) (Script.ofAnswers [])
      { Configuration.standard with seed? := some 1 }).runSlot 20 0
    run.1 = .finished ∧ run.2.console.printed = ["5"] := by
  rw [ofImage_toArray slotOfAssignedSum (by decide +kernel)]
  decide +kernel

end Machine

end PocketScript
