import PocketScript.Proofs.Flow.Arms
import PocketScript.Proofs.Flow.Locating
import PocketScript.Proofs.Flow.Precedence
import PocketScript.Proofs.Machine.Targets
import PocketScript.Proofs.Memory.Appending
import PocketScript.Proofs.Number.Divisors

/-! # Operators that update

`D*=(R)` stands for `D=D*(R)`, and so do all updates but one: a string that is added
to a string grows in place. The two are evaluated in different ways. An update reads
its destination again once the right operand is evaluated, and has checks of its own.
-/

namespace PocketScript

open Eval (Gives)
open Machine (evaluate innerOf frame readPrimary readRest applyBinary)

variable {κ : Type} {machine after last : Machine κ} {current right : Value} {destination : Destination}
  {operator : Combination}

/-- An operand in parentheses. -/
def parenthesized (operand : List UInt8) : List UInt8 :=
  0x28 :: (operand ++ [0x29])

namespace Combination

/-- The combination of a place with an operand. -/
def text (operator : Combination) (place operand : List UInt8) : List UInt8 :=
  place ++ (Connective.combine operator).byte :: parenthesized operand

/-- The same combination, assigned to the place. -/
def assignmentText (operator : Combination) (place operand : List UInt8) : List UInt8 :=
  place ++ Code.assignByte none :: operator.text place operand

/-- The update of the place that stands for it. -/
def updateText (operator : Combination) (place operand : List UInt8) : List UInt8 :=
  place ++ Code.assignByte (some operator) :: parenthesized operand

/-- What two values come to, unless they are strings that are joined. -/
def outcome (operator : Combination) : (left right : Value) → Except FaultKind Float32
  | .number a, .number b =>
    match operator.apply a b with
    | some number => .ok number
    | none => .error .divideByZero
  | _, _ => .error .badOperandType

/-- Two strings are joined. -/
def Joins (operator : Combination) (left right : Value) : Prop :=
  operator = .add ∧ ∃ cell source, left = .string cell ∧ right = .string source

/-- Combinations bind tighter than assignments. -/
theorem precedence_lt (operator : Combination) :
    (BinaryOperator.combine operator).precedence < BinaryOperator.assign.precedence := by
  cases operator <;> decide

end Combination

/-- Where a text ends that has a byte in it. -/
theorem end_behind (start : Nat) (place : List UInt8) (byte : UInt8) (rest : List UInt8) :
    start + place.length + 1 + rest.length = start + (place ++ byte :: rest).length := by
  simp only [List.length_append, List.length_cons]
  omega

namespace Machine

/-- What an operator does once its right operand is evaluated. -/
def conclude (operator : BinaryOperator) (left : Expression) (right : Value) : Eval κ Expression :=
  match operator with
  | .assign => assign left right
  | .update operator => update operator left right
  | .combine operator => do
    let value ← combine operator left.value right left.start
    return { left with value, destination? := none }
  | .compare operator => do
    let value ← compare operator left.value right left.start
    return { left with value, destination? := none }

variable {inner : Inner κ} {left operand : Expression} {connective : BinaryOperator} {start : Address}

theorem applyBinary_eq
    (ran : inner.expression (left.code + 1) connective.precedence false (machine.tracking left.value) =
      .ok operand after)
    (present : operand.value.isMissing = false) :
    applyBinary inner connective left machine =
      conclude connective { left with code := operand.code, hold := left.hold.outlast } operand.value
        (after.tracking operand.value) := by
  have track : ∀ (machine : Machine κ) (value : Value), Eval.track value machine = .ok () (machine.tracking value) :=
    fun _ _ => rfl
  refine (Eval.bind_of_ok (track _ _)).trans ?_
  refine (Eval.bind_of_ok ran).trans ?_
  refine (Eval.bind_of_ok (track _ _)).trans ?_
  rw [present, if_neg Bool.false_ne_true]
  cases connective <;> rfl

theorem applyBinary_error {interrupt : Interrupt}
    (ran : inner.expression (left.code + 1) connective.precedence false (machine.tracking left.value) =
      .error interrupt after) :
    applyBinary inner connective left machine = .error interrupt after := by
  have track : Eval.track left.value machine = .ok () (machine.tracking left.value) := rfl
  exact (Eval.bind_of_ok track).trans (Eval.bind_of_error ran)

theorem tooComplex_applyBinary (complex :
      Eval.TooComplex (inner.expression (left.code + 1) connective.precedence false) (machine.tracking left.value)) :
    Eval.TooComplex (applyBinary inner connective left) machine := by
  obtain ⟨last, address, ran, fault⟩ := complex
  exact ⟨last, address, applyBinary_error ran, fault⟩

theorem combine_eq (apart : ¬ operator.Joins current right) (present : current.isMissing = false) (start : Address) :
    (combine operator current right start : Eval κ Value) =
      match operator.outcome current right with
      | .ok number => pure (.number number)
      | .error kind => Eval.raise kind start := by
  cases current with
  | missing => cases present
  | number a =>
      cases right with
      | number b =>
          simp only [combine, Combination.outcome]
          cases operator.apply a b <;> rfl
      | missing | string _ | list _ | function _ => rfl
  | string cell =>
      cases right with
      | string source =>
          have other : operator ≠ .add := fun add => apart ⟨add, cell, source, rfl, rfl⟩
          simp only [combine, if_neg other]
          rfl
      | missing | number _ | list _ | function _ => rfl
  | list _ | function _ => cases right <;> rfl

theorem update_eq (apart : ¬ operator.Joins current right) (place : left.destination? = some destination)
    (held : machine.memory.valueAt destination = .ok current) :
    update operator left right machine =
      match operator.outcome current right with
      | .ok number => (do destination.write left.hold (.number number) left.start; return left) machine
      | .error kind => Eval.raise kind left.start machine := by
  simp only [update, place]
  rw [Eval.bind_of_ok (Destination.read_eq held _ _)]
  cases current with
  | number a =>
      cases right with
      | number b =>
          simp only [Combination.update_eq_apply, Combination.outcome]
          cases operator.apply a b <;> rfl
      | missing | string _ | list _ | function _ => rfl
  | string cell =>
      cases right with
      | string source =>
          have other : operator ≠ .add := fun add => apart ⟨add, cell, source, rfl, rfl⟩
          simp only [if_neg other]
          rfl
      | missing | number _ | list _ | function _ => rfl
  | missing | list _ | function _ => cases right <;> rfl

theorem readParenthesis_eq {inside : Expression} (ran : inner.argument (start + 1) machine = .ok inside after)
    (closes : after.store.byte inside.code = 0x29) :
    readParenthesis inner (.starting start) machine =
      .ok { inside with start, code := inside.code + 1, hold := inside.hold.handOver } after := by
  have byte : Eval.byteAt inside.code after = .ok 0x29 after := by
    rw [← closes]
    rfl
  exact (Eval.bind_of_ok ran).trans ((Eval.bind_of_ok byte).trans rfl)

variable [Console κ] {early : Machine κ} {limit levels start ceiling : Nat} {isStatement : Bool}
  {place text : List UInt8}

omit [Console κ] in
/-- Being too complex does not depend on registrations. -/
theorem tooComplex_of_withRoots {evaluation evaluation' : Eval κ Expression} {roots : Roots}
    (same : evaluation machine = Eval.withRoots roots (evaluation' after))
    (complex : Eval.TooComplex evaluation' after) : Eval.TooComplex evaluation machine := by
  obtain ⟨last, address, ran, fault⟩ := complex
  refine ⟨last.withRoots roots, address, ?_, fault⟩
  rw [same, ran]
  rfl

/-- A value in parentheses. -/
theorem Supplies.evaluate_parenthesized (supplies : machine.Supplies limit text right after)
    (running : machine.memory.stack.action.isIgnored = false) (registers : machine.Registers early)
    (has : machine.store.Has start (parenthesized text))
    (stops : StopsAt ceiling (machine.store.byte (start + (parenthesized text).length))) :
    Eval.TooComplex (evaluate limit levels start ceiling isStatement) early ∨
      ∃ result,
        evaluate limit levels start ceiling isStatement early = .ok result (after.withRoots early.memory.roots) ∧
          result.value = right ∧ result.code = start + (parenthesized text).length := by
  obtain ⟨opens, has⟩ := has
  obtain ⟨has, closes, -⟩ := Store.has_append.mp has
  have total : start + 1 + text.length + 1 = start + (parenthesized text).length := by
    simp only [parenthesized, List.length_append, List.length_cons, List.length_nil]
    omega
  rw [← registers.stack] at running
  rw [← registers.store] at opens
  cases levels with
  | zero => exact .inl tooComplex_zero
  | succ levels =>
      have same := evaluate_eq_withRoots limit levels start ceiling isStatement early
      rw [frame_eq running] at same
      have opened := readPrimary_parenthesis opens (innerOf limit levels) isStatement
      rcases supplies.computes levels (start + 1) early registers has (by rw [closes]; decide) with
        complex | ⟨inside, ran, known, code⟩
      · have complex : Eval.TooComplex (readParenthesis (innerOf limit levels) (.starting start)) early :=
          complex.bind _
        exact .inl (tooComplex_of_withRoots same ((complex.of_eq opened).bind _))
      · have store : (after.withRoots early.memory.roots).store = machine.store := supplies.idles.store
        have here : (after.withRoots early.memory.roots).store.byte inside.code = 0x29 := by
          rw [store, code]
          exact closes
        have behind : inside.code + 1 = start + (parenthesized text).length := by rw [code, total]
        rw [Eval.bind_of_ok (opened.trans (readParenthesis_eq ran here)), readRest_of_stopsAt] at same
        · exact .inr ⟨_, same, known, behind⟩
        · rw [store]
          exact behind ▸ stops

/-- An expression that starts with a place comes to the operator behind it. -/
theorem Locates.evaluate_operator (locates : machine.Locates limit place destination current)
    (tracked : machine.memory.Tracked) (registers : machine.Registers early) (has : machine.store.Has start place)
    (here : BinaryOperator.ofByte? (machine.store.byte (start + place.length)) = some connective)
    (binds : connective.precedence < ceiling) (levels : Nat) (isStatement : Bool) :
    Eval.TooComplex (evaluate limit (levels + 1) start ceiling isStatement) early ∨
      ∃ left late room, machine.Registers late ∧ machine.Registers (late.tracking current) ∧ left.value = current ∧
        left.destination? = some destination ∧ left.code = start + place.length ∧
        evaluate limit (levels + 1) start ceiling isStatement early = Eval.withRoots early.memory.roots
          ((applyBinary (innerOf limit levels) connective left >>= readRest (innerOf limit levels) ceiling (room + 1))
            late) := by
  rcases locates.reads levels start ceiling isStatement early registers has (endsAtom_of_operator here).name with
    complex | ⟨left, late, room, ran, registers', -, known, place, code⟩
  · exact .inl (tooComplex_evaluate complex)
  have registers'' := locates.registers tracked registers'
  rw [← code, ← registers'.store] at here
  refine .inr ⟨left, late.tracking current, room, registers'', locates.registers tracked registers'', known, place, code,
    ?_⟩
  rw [evaluate_eq_withRoots, ran, readRest_operator here binds]
  rw [← known]
  rfl

/-- A whole ends as a part of it does, registrations apart, if nothing binds to the
    result from behind. -/
structure EndsAs (roots : Roots) (ceiling : Nat)
    (part whole : EStateM.Result Interrupt (Machine κ) Expression) : Prop where
  ok : ∀ result last, part = .ok result last → StopsAt ceiling (last.store.byte result.code) →
    whole = .ok result (last.withRoots roots)
  error : ∀ interrupt last, part = .error interrupt last → whole = .error interrupt (last.withRoots roots)

/-- An operator behind a place ends the expression as it ends itself, once its right
    operand is evaluated. -/
theorem Locates.evaluate_conclude (locates : machine.Locates limit place destination current)
    (tracked : machine.memory.Tracked) (registers : machine.Registers early) (has : machine.store.Has start place)
    (here : BinaryOperator.ofByte? (machine.store.byte (start + place.length)) = some connective)
    (binds : connective.precedence < ceiling) (levels : Nat) (isStatement : Bool) (present : right.isMissing = false)
    {finish : Nat}
    (operand : ∀ late, machine.Registers late →
      Eval.TooComplex (evaluate limit levels (start + place.length + 1) connective.precedence false) late ∨
        ∃ result, evaluate limit levels (start + place.length + 1) connective.precedence false late =
          .ok result (after.withRoots late.memory.roots) ∧ result.value = right ∧ result.code = finish) :
    Eval.TooComplex (evaluate limit (levels + 1) start ceiling isStatement) early ∨
      ∃ left roots, left.value = current ∧ left.destination? = some destination ∧ left.code = finish ∧
        EndsAs early.memory.roots ceiling (conclude connective left right (after.withRoots roots))
          (evaluate limit (levels + 1) start ceiling isStatement early) := by
  rcases locates.evaluate_operator tracked registers has here binds levels isStatement with
    complex | ⟨left, late, room, registers', again, rfl, place, code, same⟩
  · exact .inl complex
  rw [← code] at operand
  rcases operand _ again with complex | ⟨result, ran, rfl, rfl⟩
  · exact .inl (tooComplex_of_withRoots same ((tooComplex_applyBinary complex).bind _))
  have applied : applyBinary (innerOf limit levels) connective left late = _ := applyBinary_eq ran present
  refine .inr ⟨{ left with code := result.code, hold := left.hold.outlast },
    (late.tracking left.value).memory.roots.track result.value, rfl, place, rfl, ?_, ?_⟩
  · intro result last concluded stops
    rw [same, Eval.bind_of_ok (applied.trans concluded), readRest_of_stopsAt _ stops]
    rfl
  · intro interrupt last concluded
    rw [same, Eval.bind_of_error (applied.trans concluded)]
    rfl

omit [Console κ] in
theorem onMemory_ok {α : Type} {operation : MemoryM α} {found : α}
    (ran : Eval.onMemory start operation machine = .ok found last) :
    ∃ memory, operation machine.memory = .ok found memory ∧ last = { machine with memory } := by
  unfold Eval.onMemory Eval.onMemoryAs at ran
  cases operated : operation machine.memory with
  | error error memory => simp [operated, Eval.fail] at ran
  | ok found' memory =>
      simp only [operated] at ran
      obtain ⟨rfl, rfl⟩ := EStateM.Result.ok.inj ran
      exact ⟨memory, rfl, rfl⟩

omit [Console κ] in
theorem store_combine {value : Value} (ran : combine operator current right start machine = .ok value after) :
    after.store = machine.store := by
  unfold combine at ran
  split at ran
  · cases ran
  · next a b =>
    cases applied : operator.apply a b with
    | none => simp [applied, Eval.raise, Eval.fail] at ran
    | some number =>
        simp only [applied] at ran
        cases ran
        rfl
  · split at ran
    · obtain ⟨memory, -, rfl⟩ := onMemory_ok ran
      rfl
    · cases ran
  · cases ran

/-- The machine with a fault of the program. -/
def failed (machine : Machine κ) (kind : FaultKind) (address : Address) : Machine κ :=
  { machine with fault? := some ⟨.program kind, address⟩ }

/-- What an update comes to: it fails and nothing else is done, or the number is
    stored at the destination and nothing else is done. -/
inductive Comes (destination : Destination) (reached : Machine κ) :
    Except FaultKind Float32 → EStateM.Result Interrupt (Machine κ) Expression → Prop where
  | failed (kind : FaultKind) (address : Address) :
      Comes destination reached (.error kind) (.error .quit (reached.failed kind address))
  | stored {number : Float32} {last : Machine κ} (result : Expression)
      (written : ∀ hold address, destination.write hold (.number number) address reached = .ok () last) :
      Comes destination reached (.ok number) (.ok result last)

namespace Comes

variable {whole : EStateM.Result Interrupt (Machine κ) Expression} {roots : Roots} {number : Float32}

omit [Console κ] in
theorem of_raise {kind : FaultKind}
    (ends : EndsAs after.memory.roots ceiling (Eval.raise kind start (after.withRoots roots)) whole) :
    Comes destination after (.error kind) whole := by
  rw [ends.error _ _ rfl]
  exact .failed kind start

omit [Console κ] in
theorem of_write (held : after.memory.valueAt destination = .ok current)
    (stops : StopsAt ceiling (after.store.byte left.code))
    (ends : EndsAs after.memory.roots ceiling
      ((do destination.write left.hold (.number number) left.start; return left) (after.withRoots roots)) whole) :
    Comes destination after (.ok number) whole := by
  obtain ⟨stored, store, roots', writes⟩ := Destination.exists_write held number
  have same : stored.withRoots after.memory.roots = stored := by
    rw [← roots']
    rfl
  have written : (do destination.write left.hold (.number number) left.start; return left) (after.withRoots roots) =
      .ok left (stored.withRoots roots) := Eval.bind_of_ok (writes _ _ _)
  have stored_stops : StopsAt ceiling ((stored.withRoots roots).store.byte left.code) := by
    rw [show (stored.withRoots roots).store = stored.store from rfl, store]
    exact stops
  have ended := ends.ok _ _ written stored_stops
  rw [ended, show (stored.withRoots roots).withRoots after.memory.roots = stored from same]
  refine .stored left fun hold address => ?_
  have writes := writes hold address after.memory.roots
  rw [same] at writes
  exact writes

end Comes

section

variable (locates : machine.Locates limit place destination current)
  (supplies : machine.Supplies limit text right after) (tracked : machine.memory.Tracked)
  (running : machine.memory.stack.action.isIgnored = false)

include locates supplies tracked running

/-- The combination of a place with a value. -/
theorem Locates.evaluate_text (registers : machine.Registers early)
    (has : machine.store.Has start (operator.text place text))
    (stops : StopsAt ceiling (machine.store.byte (start + (operator.text place text).length)))
    (binds : operator.precedence < ceiling) (levels : Nat) (isStatement : Bool) :
    Eval.TooComplex (evaluate limit levels start ceiling isStatement) early ∨ ∃ address roots,
      (∀ value last, combine operator current right address (after.withRoots roots) = .ok value last →
        ∃ result,
          evaluate limit levels start ceiling isStatement early = .ok result (last.withRoots early.memory.roots) ∧
            result.value = value ∧ result.code = start + (operator.text place text).length) ∧
      ∀ interrupt last, combine operator current right address (after.withRoots roots) = .error interrupt last →
        evaluate limit levels start ceiling isStatement early =
          .error interrupt (last.withRoots early.memory.roots) := by
  cases levels with
  | zero => exact .inl tooComplex_zero
  | succ levels =>
      obtain ⟨has_place, here, has_operand⟩ := Store.has_append.mp has
      have total : start + place.length + 1 + (parenthesized text).length = start + (operator.text place text).length :=
        end_behind ..
      have found := (Connective.combine operator).ofByte?_byte
      rw [← here] at found
      rw [← total] at stops ⊢
      rcases locates.evaluate_conclude tracked registers has_place found binds levels isStatement supplies.present
        (fun late registers => supplies.evaluate_parenthesized running registers has_operand
          (stops.mono (Nat.le_of_lt binds))) with complex | ⟨left, roots, rfl, -, code, ends⟩
      · exact .inl complex
      refine .inr ⟨left.start, roots, fun value last ran => ?_, fun interrupt last ran => ?_⟩
      · have concluded : conclude (.combine operator) left right (after.withRoots roots) =
            .ok { left with value, destination? := none } last := Eval.bind_of_ok ran
        refine ⟨_, ends.ok _ _ concluded ?_, rfl, code⟩
        rw [store_combine ran, show (after.withRoots roots).store = machine.store from supplies.idles.store]
        exact code ▸ stops
      · exact ends.error _ _ (Eval.bind_of_error ran)

section

variable (apart : ¬ operator.Joins current right) (registers : machine.Registers early)
  (has : machine.store.Has start (operator.text place text))
  (stops : StopsAt ceiling (machine.store.byte (start + (operator.text place text).length)))
  (binds : operator.precedence < ceiling) (levels : Nat) (isStatement : Bool)

include apart registers has stops binds

theorem Locates.evaluate_text_ok {number : Float32} (outcome : operator.outcome current right = .ok number) :
    Eval.TooComplex (evaluate limit levels start ceiling isStatement) early ∨ ∃ result,
      evaluate limit levels start ceiling isStatement early = .ok result (after.withRoots early.memory.roots) ∧
        result.value = .number number ∧ result.code = start + (operator.text place text).length := by
  rcases locates.evaluate_text supplies tracked running registers has stops binds levels isStatement with
    complex | ⟨address, roots, yields, -⟩
  · exact .inl complex
  simp only [combine_eq apart locates.present, outcome] at yields
  exact .inr (yields (.number number) (after.withRoots roots) rfl)

theorem Locates.evaluate_text_error {kind : FaultKind} (outcome : operator.outcome current right = .error kind) :
    Eval.TooComplex (evaluate limit levels start ceiling isStatement) early ∨ ∃ address,
      evaluate limit levels start ceiling isStatement early =
        .error .quit ((after.failed kind address).withRoots early.memory.roots) := by
  rcases locates.evaluate_text supplies tracked running registers has stops binds levels isStatement with
    complex | ⟨address, roots, -, fails⟩
  · exact .inl complex
  simp only [combine_eq apart locates.present, outcome] at fails
  exact .inr ⟨address, fails .quit ((after.withRoots roots).failed kind address) rfl⟩

end

/-- A combination of a place with a value has a value. -/
theorem Locates.supplies_text (apart : ¬ operator.Joins current right) {number : Float32}
    (outcome : operator.outcome current right = .ok number) :
    machine.Supplies limit (operator.text place text) (.number number) after := by
  refine ⟨supplies.idles, rfl, fun levels start early registers has closes => ?_⟩
  have binds : operator.precedence < Inner.statementCeiling := operator.precedence_lt.trans (by decide)
  exact locates.evaluate_text_ok supplies tracked running apart registers has (Symbol.closes_spec closes).2 binds levels
    false outcome

/-- The update of a place, once its right operand is evaluated. -/
theorem Locates.evaluate_updateText (has : machine.store.Has start (operator.updateText place text))
    (stops : StopsAt ceiling (machine.store.byte (start + (operator.updateText place text).length)))
    (binds : BinaryOperator.assign.precedence < ceiling) (levels : Nat) (isStatement : Bool) :
    Eval.TooComplex (evaluate limit levels start ceiling isStatement) machine ∨
      ∃ left roots, left.destination? = some destination ∧ StopsAt ceiling (after.store.byte left.code) ∧
        EndsAs after.memory.roots ceiling (update operator left right (after.withRoots roots))
          (evaluate limit levels start ceiling isStatement machine) := by
  cases levels with
  | zero => exact .inl tooComplex_zero
  | succ levels =>
      obtain ⟨has_place, here, has_operand⟩ := Store.has_append.mp has
      obtain ⟨-, -, -, -, found, -⟩ := Code.assignByte_spec (some operator)
      have total : start + place.length + 1 + (parenthesized text).length =
          start + (operator.updateText place text).length := end_behind ..
      rw [← here] at found
      rw [← total] at stops
      refine (locates.evaluate_conclude tracked (.refl machine) has_place found binds levels isStatement
        supplies.present fun late registers => supplies.evaluate_parenthesized running registers has_operand
          (stops.mono (Nat.le_of_lt binds))).imp_right ?_
      rintro ⟨left, roots, -, place, code, ends⟩
      refine ⟨left, roots, place, ?_, supplies.idles.roots ▸ ends⟩
      rw [code, supplies.idles.store]
      exact stops

/-- Unless strings are joined, an update comes to what the combination does. -/
theorem Locates.comes_updateText (has : machine.store.Has start (operator.updateText place text))
    (stops : StopsAt ceiling (machine.store.byte (start + (operator.updateText place text).length)))
    (binds : BinaryOperator.assign.precedence < ceiling) (apart : ¬ operator.Joins current right) (levels : Nat)
    (isStatement : Bool) :
    Eval.TooComplex (evaluate limit levels start ceiling isStatement) machine ∨
      Comes destination after (operator.outcome current right)
        (evaluate limit levels start ceiling isStatement machine) := by
  have held := supplies.idles.valueAt locates.reached locates.held
  refine (locates.evaluate_updateText supplies tracked running has stops binds levels isStatement).imp_right ?_
  rintro ⟨left, roots, place, stops, ends⟩
  rw [update_eq apart place ((valueAt_withRoots after roots destination).trans held)] at ends
  cases outcome : operator.outcome current right with
  | error kind =>
      rw [outcome] at ends
      exact .of_raise ends
  | ok number =>
      rw [outcome] at ends
      exact .of_write held stops ends

/-- So does the assignment of the combination. -/
theorem Locates.comes_assignmentText (has : machine.store.Has start (operator.assignmentText place text))
    (stops : StopsAt ceiling (machine.store.byte (start + (operator.assignmentText place text).length)))
    (binds : BinaryOperator.assign.precedence < ceiling) (apart : ¬ operator.Joins current right) (levels : Nat)
    (isStatement : Bool) :
    Eval.TooComplex (evaluate limit levels start ceiling isStatement) machine ∨
      Comes destination after (operator.outcome current right)
        (evaluate limit levels start ceiling isStatement machine) := by
  cases levels with
  | zero => exact .inl tooComplex_zero
  | succ levels =>
      obtain ⟨has_place, here, has_text⟩ := Store.has_append.mp has
      obtain ⟨-, -, -, -, found, -⟩ := Code.assignByte_spec none
      have total : start + place.length + 1 + (operator.text place text).length =
          start + (operator.assignmentText place text).length := end_behind ..
      rw [← here] at found
      rw [← total] at stops
      have stops' := stops.mono (Nat.le_of_lt binds)
      cases outcome : operator.outcome current right with
      | error kind =>
          rcases locates.evaluate_operator tracked (.refl machine) has_place found binds levels isStatement with
            complex | ⟨left, late, room, -, again, rfl, -, code, same⟩
          · exact .inl complex
          have fails := locates.evaluate_text_error supplies tracked running apart again has_text stops'
            operator.precedence_lt levels false outcome
          rw [← code] at fails
          rcases fails with complex | ⟨address, fails⟩
          · exact .inl (tooComplex_of_withRoots same ((tooComplex_applyBinary complex).bind _))
          · rw [same, Eval.bind_of_error (applyBinary_error fails), ← supplies.idles.roots]
            exact .inr (.failed kind address)
      | ok number =>
          rcases locates.evaluate_conclude tracked (.refl machine) has_place found binds levels isStatement rfl
            fun late registers => locates.evaluate_text_ok supplies tracked running apart registers has_text stops'
              operator.precedence_lt levels false outcome with complex | ⟨left, roots, -, place, code, ends⟩
          · exact .inl complex
          have assigned : conclude (Code.assignOperator none) left (.number number) =
              ((do destination.write left.hold (.number number) left.start; return left) : Eval κ Expression) := by
            simp only [Code.assignOperator, conclude, assign, place]
          rw [assigned, ← supplies.idles.roots] at ends
          have held := supplies.idles.valueAt locates.reached locates.held
          exact .inr (.of_write held (by rw [code, supplies.idles.store]; exact stops) ends)

end

section Joining

variable {cell source : Handle}

omit [Console κ] in
/-- Where one string is put behind another, everything that holds strings holds what
    it held. -/
theorem valueAt_refilled {memory memory' : Memory} {front : List UInt8} {payload : Payload} {held : Handle}
    (refilled : memory.Refilled cell payload memory') (string : memory.string cell = .ok front)
    (there : memory.valueAt destination = .ok (.string held)) : memory'.valueAt destination = .ok (.string held) := by
  match destination with
  | .variable place =>
      obtain ⟨binding, here, same⟩ := Memory.valueAt_variable.mp there
      have stack : memory'.stack = memory.stack := by rw [refilled.rest]
      exact Memory.valueAt_variable.mpr ⟨binding, stack ▸ here, same⟩
  | .element list index =>
      obtain ⟨values, reads, here⟩ := Memory.valueAt_element.mp there
      exact Memory.valueAt_element.mpr ⟨values, refilled.list_eq string reads, here⟩
  | .character string index =>
      obtain ⟨_, _, -, -, same⟩ := Memory.valueAt_character.mp there
      cases same

omit [Console κ] in
/-- A string that is updated by a string grows in place. -/
theorem gives_update_add (place : left.destination? = some destination)
    (wellFormed : machine.memory.heap.WellFormed) (held : machine.memory.valueAt destination = .ok (.string cell)) :
    Gives (update .add left (.string source)) machine fun result last =>
      result = left ∧ last.store = machine.store ∧ ∃ front back, machine.memory.string cell = .ok front ∧
        machine.memory.string source = .ok back ∧ last.memory.valueAt destination = .ok (.string cell) ∧
        last.memory.string cell = .ok (front ++ back) := by
  have reads : Gives (destination.read left.hold left.start) machine fun value after =>
      value = .string cell ∧ after = machine := by
    intro value after ran
    rw [Destination.read_eq held] at ran
    cases ran
    exact ⟨rfl, rfl⟩
  have measures : Gives (Eval.viewMemory left.start (·.length (.string cell))) machine fun length after =>
      after = machine ∧ machine.memory.length (.string cell) = .ok length := by
    intro length after ran
    obtain ⟨memory, looked, rfl⟩ := onMemory_ok ran
    cases measured : machine.memory.length (.string cell) with
    | error error => simp [Memory.look, measured] at looked
    | ok count =>
        simp only [Memory.look, measured] at looked
        cases looked
        exact ⟨rfl, rfl⟩
  unfold update
  simp only [place]
  refine reads.bind ?_
  rintro _ _ ⟨rfl, rfl⟩
  simp only [if_true]
  refine measures.bind ?_
  rintro length _ ⟨rfl, measured⟩
  refine Gives.bind (fun _ _ ran => ran : Gives _ _ fun result after =>
    Eval.onMemory left.start (Memory.insertSequence (.string cell) length (.string source)) _ = .ok result after) ?_
  intro _ after ran
  obtain ⟨memory, inserted, rfl⟩ := onMemory_ok ran
  obtain ⟨front, back, string, string', refilled⟩ := Memory.refilled_of_append wellFormed measured inserted
  exact .pure ⟨rfl, rfl, front, back, string, string', valueAt_refilled refilled string held,
    Memory.string_eq_ok_iff.mpr refilled.payload_eq⟩

omit [Console κ] in
/-- A combination of two strings is a new one. -/
theorem gives_combine_add (wellFormed : machine.memory.heap.WellFormed) :
    Gives (combine .add (.string cell) (.string source) start) machine fun value last =>
      ∃ front back copy, machine.memory.string cell = .ok front ∧ machine.memory.string source = .ok back ∧
        value = .string copy ∧ last.memory.string copy = .ok (front ++ back) := by
  intro value last ran
  obtain ⟨memory, joined, rfl⟩ := onMemory_ok (show Eval.onMemory start (Memory.concatenate cell source) machine = _
    from ran)
  exact Memory.reads_of_concatenate wellFormed joined

/-- Where a string was updated by a string, both are in a row at the destination. -/
theorem Locates.grows (locates : machine.Locates limit place destination (.string cell))
    (supplies : machine.Supplies limit text (.string source) after) (tracked : machine.memory.Tracked)
    (running : machine.memory.stack.action.isIgnored = false)
    (has : machine.store.Has start (Combination.add.updateText place text))
    (stops : StopsAt ceiling (machine.store.byte (start + (Combination.add.updateText place text).length)))
    (binds : BinaryOperator.assign.precedence < ceiling) (levels : Nat) (isStatement : Bool) :
    Gives (evaluate limit levels start ceiling isStatement) machine fun _ last =>
      ∃ front back, after.memory.string cell = .ok front ∧ after.memory.string source = .ok back ∧
        last.memory.valueAt destination = .ok (.string cell) ∧ last.memory.string cell = .ok (front ++ back) := by
  intro result last ran
  rcases locates.evaluate_updateText supplies tracked running has stops binds levels isStatement with
    complex | ⟨left, roots, place, stops, ends⟩
  · exact absurd ran complex.not_ok
  have held : (after.withRoots roots).memory.valueAt destination = .ok (.string cell) :=
    (valueAt_withRoots after roots destination).trans (supplies.idles.valueAt locates.reached locates.held)
  have wellFormed : (after.withRoots roots).memory.heap.WellFormed := supplies.idles.ready.sound.heap
  cases updated : update .add left (.string source) (after.withRoots roots) with
  | error interrupt middle => cases ran.symm.trans (ends.error _ _ updated)
  | ok left' middle =>
      obtain ⟨rfl, store, front, back, string, string', held, grown⟩ :=
        gives_update_add place wellFormed held _ _ updated
      obtain ⟨-, rfl⟩ := EStateM.Result.ok.inj (ran.symm.trans (ends.ok _ _ updated (by rw [store]; exact stops)))
      exact ⟨front, back, string, string', (valueAt_withRoots middle _ destination).trans held, grown⟩

/-- The combination of two strings has both in a row. -/
theorem Locates.joins (locates : machine.Locates limit place destination (.string cell))
    (supplies : machine.Supplies limit text (.string source) after) (tracked : machine.memory.Tracked)
    (running : machine.memory.stack.action.isIgnored = false)
    (has : machine.store.Has start (Combination.add.text place text))
    (stops : StopsAt ceiling (machine.store.byte (start + (Combination.add.text place text).length)))
    (binds : Combination.add.precedence < ceiling) (levels : Nat) (isStatement : Bool) :
    Gives (evaluate limit levels start ceiling isStatement) machine fun sum last =>
      ∃ front back copy, after.memory.string cell = .ok front ∧ after.memory.string source = .ok back ∧
        sum.value = .string copy ∧ last.memory.string copy = .ok (front ++ back) := by
  intro sum last ran
  rcases locates.evaluate_text supplies tracked running (.refl machine) has stops binds levels isStatement with
    complex | ⟨address, roots, yields, fails⟩
  · exact absurd ran complex.not_ok
  have wellFormed : (after.withRoots roots).memory.heap.WellFormed := supplies.idles.ready.sound.heap
  cases combined : combine .add (.string cell) (.string source) address (after.withRoots roots) with
  | error interrupt middle => cases ran.symm.trans (fails _ _ combined)
  | ok value middle =>
      obtain ⟨front, back, copy, string, string', rfl, joined⟩ := gives_combine_add wellFormed _ _ combined
      obtain ⟨result, ended, known, -⟩ := yields _ _ combined
      obtain ⟨rfl, rfl⟩ := EStateM.Result.ok.inj (ran.symm.trans ended)
      exact ⟨front, back, copy, string, string', known, joined⟩

end Joining

/-- Two evaluations come to the same. Both fail with a fault of the same kind and do
    nothing else, or both store the same number at the destination and do nothing else. -/
inductive ComeToSame (destination : Destination) (reached : Machine κ) :
    (first second : EStateM.Result Interrupt (Machine κ) Expression) → Prop where
  | failed (kind : FaultKind) (address address' : Address) :
      ComeToSame destination reached (.error .quit (reached.failed kind address))
        (.error .quit (reached.failed kind address'))
  | stored {number : Float32} {last : Machine κ} (result result' : Expression)
      (written : ∀ hold address, destination.write hold (.number number) address reached = .ok () last) :
      ComeToSame destination reached (.ok result last) (.ok result' last)

omit [Console κ] in
theorem Comes.same {outcome : Except FaultKind Float32} {first second : EStateM.Result Interrupt (Machine κ) Expression}
    (comes : Comes destination after outcome first) (comes' : Comes destination after outcome second) :
    ComeToSame destination after first second := by
  cases comes with
  | failed kind address =>
      cases comes' with
      | failed _ address' => exact .failed kind address address'
  | stored result written =>
      cases comes' with
      | stored result' written' =>
          obtain ⟨-, rfl⟩ := EStateM.Result.ok.inj ((written .kept 0).symm.trans (written' .kept 0))
          exact .stored result result' written

/-- A program that updates a character and a string, and does the same in assignments:

        S="AB"
        S[0]*=(S[1]-(9))
        S[0]=S[0]*(S[1]-(9))
        S+=("C")
        S=S+("C")
-/
def slotOfUpdates : List UInt8 :=
  [1, 77, 65, 73, 78] ++ List.replicate 12 0 ++ [62, 0] ++
    [83, 61, 34, 65, 66, 34, 10] ++
    [83, 91, 48, 93, 141, 40, 83, 91, 49, 93, 45, 40, 57, 41, 41, 10] ++
    [83, 91, 48, 93, 61, 83, 91, 48, 93, 42, 40, 83, 91, 49, 93, 45, 40, 57, 41, 41, 10] ++
    [83, 139, 40, 34, 67, 34, 41, 10] ++
    [83, 61, 83, 43, 40, 34, 67, 34, 41, 0]

/-- A machine that runs that program. -/
def inUpdates : Machine Script :=
  { inFirstArm with store := Store.ofImage slotOfUpdates.toArray }

/-- The machine behind the first line of it. -/
def lettered : Machine Script :=
  Eval.last (evaluate 9 9 19 Inner.statementCeiling true inUpdates)

theorem ready_lettered : lettered.Ready := by
  have ran : (EStateM.run' (evaluate 9 9 19 Inner.statementCeiling true) inUpdates).isSome = true := by
    unfold inUpdates
    rw [ofImage_toArray slotOfUpdates (by decide +kernel)]
    decide +kernel
  obtain ⟨expression, ran⟩ := Option.isSome_iff_exists.mp ran
  obtain ⟨after, ran⟩ := ran_of_run' ran
  have same : lettered = after := congrArg Eval.last ran
  rw [same]
  exact ready_of_evaluate (ready_inFirstArm.ofStore _) ran

/-- The name of the string. -/
def letters : Name :=
  ⟨[83], by decide, by decide, by decide⟩

/-- The text of a character of it. -/
def letterText (index : UInt8) : List UInt8 :=
  letters.bytes ++ 0x5b :: ([index] ++ [0x5d])

/-- What the character is multiplied by. -/
def factorText : List UInt8 :=
  Combination.subtract.text (letterText 49) [57]

/-- The other lines, and where they stand. -/
def updateLines : List (Nat × List UInt8) :=
  [(26, Combination.multiply.updateText (letterText 48) factorText),
    (42, Combination.multiply.assignmentText (letterText 48) factorText),
    (63, Combination.add.updateText letters.bytes (Symbol.asBytes (Symbol.quoted [67]))),
    (71, Combination.add.assignmentText letters.bytes (Symbol.asBytes (Symbol.quoted [67])))]

theorem lettered_spec : lettered.memory.stack.action.isIgnored = false ∧
    lettered.memory.stack.find? letters.text = some ⟨0, 0⟩ ∧
    lettered.memory.variableValue? ⟨0, 0⟩ = some (.string (.entry 0 0)) ∧
    lettered.memory.string (.entry 0 0) = .ok [65, 66] ∧
    ∀ line ∈ updateLines, lettered.store.Has line.1 line.2 ∧
      Store.endsLine (lettered.store.byte (line.1 + line.2.length)) = true := by
  unfold lettered inUpdates
  rw [ofImage_toArray slotOfUpdates (by decide +kernel)]
  decide +kernel

/-- No line fails, and neither does the sum in the last one. -/
theorem ran_lettered : (∀ start ∈ [26, 42, 63, 73],
    (EStateM.run' (evaluate 9 9 start Inner.statementCeiling false) lettered).isSome = true) ∧
    (EStateM.run' (Memory.createString [67]) lettered.memory).isSome = true := by
  unfold lettered inUpdates
  rw [ofImage_toArray slotOfUpdates (by decide +kernel)]
  decide +kernel

theorem locates_letters : lettered.Locates 9 letters.bytes (.variable ⟨0, 0⟩) (.string (.entry 0 0)) := by
  obtain ⟨running, found, held, -⟩ := lettered_spec
  exact locates_name 9 running found held rfl

theorem supplies_digit (byte : UInt8) (digit : Symbol.isDigit byte = true) :
    lettered.Supplies 9 [byte] (.number (readNumber [byte])) lettered :=
  supplies_digits 9 ready_lettered lettered_spec.1
    ⟨[byte], List.cons_ne_nil _ _, by simp [digit], by simp [Store.numberLiteralLimit]⟩

theorem locates_letter (position : Nat) (index : UInt8) {letter : UInt8} (here : [65, 66][position]? = some letter)
    (digit : Symbol.isDigit index = true) (whole : (truncate (readNumber [index])).toInt = position) :
    lettered.Locates 9 (letterText index) (.character (.entry 0 0) position) (.number letter.toFloat32) := by
  obtain ⟨-, -, -, string, -⟩ := lettered_spec
  exact locates_letters.character ready_lettered.tracked (supplies_digit index digit) string whole here

end Machine

end PocketScript
