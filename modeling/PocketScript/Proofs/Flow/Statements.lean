import PocketScript.Proofs.Flow.Standing

/-! # Statements that run

What one line of structured code does when statements are not skipped: to the
variables, to what was shown and to the open blocks, and where the program goes
on.
-/

namespace PocketScript

open Eval (Yields Keeps)

/-- Nothing binds to an expression from behind at such a byte. -/
structure StopsAt (ceiling : Nat) (byte : UInt8) : Prop where
  step : Step.ofByte? byte = none
  index : byte ≠ 0x5b
  call : ¬ (byte = 0x3a ∨ byte = 0x3b)
  operator : ∀ operator, BinaryOperator.ofByte? byte = some operator → ceiling ≤ operator.precedence

theorem stopsAt_of_none {byte : UInt8} (ceiling : Nat)
    (none : Step.ofByte? byte = none ∧ byte ≠ 0x5b ∧ ¬ (byte = 0x3a ∨ byte = 0x3b) ∧
      BinaryOperator.ofByte? byte = none) : StopsAt ceiling byte :=
  ⟨none.1, none.2.1, none.2.2.1, fun operator found => by simp [none.2.2.2] at found⟩

theorem stopsAt_of_endsLine (ceiling : Nat) {byte : UInt8} (ends : Store.endsLine byte = true) :
    StopsAt ceiling byte := by
  refine stopsAt_of_none ceiling ?_
  have : byte = 0x0a ∨ byte = 0 := by simpa [Store.endsLine] using ends
  rcases this with rfl | rfl
  · decide
  · decide

/-- The byte of a built-in function starts nothing else. -/
theorem Builtin.byte_spec (builtin : Builtin) : (Symbol.isDigit builtin.byte || builtin.byte == 0x2e) = false ∧
    Symbol.startsName builtin.byte = false ∧ builtin.byte ≠ 0x27 ∧ builtin.byte ≠ 0x22 ∧
    builtin.byte ≠ 0x5b ∧ builtin.byte ≠ 0x28 ∧ Symbol.builtin? builtin.byte = some builtin := by
  cases builtin with
  | control function | math function | value function | console function | file function =>
      cases function <;> decide

theorem Builtin.stopsAt (builtin : Builtin) (ceiling : Nat) : StopsAt ceiling builtin.byte := by
  refine stopsAt_of_none ceiling ?_
  cases builtin with
  | control function | math function | value function | console function | file function =>
      cases function <;> decide

theorem Builtin.endsLine_byte (builtin : Builtin) : Store.endsLine builtin.byte = false := by
  cases builtin with
  | control function | math function | value function | console function | file function =>
      cases function <;> decide

namespace Machine

variable {κ : Type} {machine after : Machine κ} {inner : Inner κ} {expression : Expression}
  {address : Nat} {done : Expression → Machine κ → Prop}

/-- Registering roots disturbs nothing. -/
theorem yields_track (value : Value) : Yields (Eval.track value) machine fun _ after => machine.Undisturbed after :=
  ⟨rfl, rfl, rfl, rfl⟩

theorem yields_trackIn (array : Nat) (value : Value) :
    Yields (Eval.modifyRoots (·.trackIn array value)) machine fun _ after => machine.Undisturbed after :=
  ⟨rfl, rfl, rfl, rfl⟩

theorem yields_trackValues : Yields Eval.trackValues machine fun _ after => machine.Undisturbed after :=
  ⟨rfl, rfl, rfl, rfl⟩

theorem yields_readRest {ceiling : Nat} (steps : Nat) (stops : StopsAt ceiling (machine.store.byte expression.code)) :
    Yields (readRest inner ceiling (steps + 1) expression) machine fun result after =>
      result = expression ∧ machine.Undisturbed after := by
  refine (yields_track expression.value).bind ?_
  intro _ tracked same
  refine .byteAt_bind ?_
  rw [same.store, stops.step, if_neg stops.index, if_neg stops.call]
  cases found : BinaryOperator.ofByte? (machine.store.byte expression.code) with
  | none => exact .pure ⟨rfl, same⟩
  | some operator =>
      dsimp only
      rw [if_neg (Nat.not_lt.mpr (stops.operator operator found))]
      exact .pure ⟨rfl, same⟩

/-- One binary operator, and nothing behind its right operand. -/
theorem yields_readRest_binary {ceiling : Nat} {operator : BinaryOperator} (steps : Nat) (ready : machine.Ready)
    (valid : expression.Valid machine.memory) (step : Step.ofByte? (machine.store.byte expression.code) = none)
    (index : machine.store.byte expression.code ≠ 0x5b)
    (call : ¬ (machine.store.byte expression.code = 0x3a ∨ machine.store.byte expression.code = 0x3b))
    (found : BinaryOperator.ofByte? (machine.store.byte expression.code) = some operator)
    (below : operator.precedence < ceiling)
    (applies : ∀ tracked, machine.Undisturbed tracked → tracked.Ready → expression.Valid tracked.memory →
      Yields (applyBinary inner operator expression) tracked fun result after =>
        StopsAt ceiling (after.store.byte result.code) ∧ done result after)
    (stable : ∀ expression after last, Undisturbed after last → done expression after → done expression last) :
    Yields (readRest inner ceiling (steps + 2) expression) machine done := by
  refine Yields.bind ((yields_track expression.value).keeps (Keeps.track ready.toSteady valid.value)) ?_
  rintro _ tracked ⟨same, follows, evolves, -⟩
  refine .byteAt_bind ?_
  rw [same.store, step, if_neg index, if_neg call, found]
  dsimp only
  rw [if_pos below]
  refine (applies tracked same (follows.ready ready) (valid.evolves evolves)).bind ?_
  rintro result after ⟨stops, holds⟩
  refine (yields_readRest steps stops).mono ?_
  rintro result last ⟨rfl, same⟩
  exact stable result after last same holds

variable [Console κ]

/-- An expression gives up if no level is left for it. -/
theorem yields_evaluate {steps levels ceiling : Nat} {isStatement : Bool}
    (yields : ∀ deeper, levels = deeper + 1 →
      Yields (frame (innerOf steps deeper) address ceiling isStatement) machine done)
    (stable : ∀ expression after last, Undisturbed after last → done expression after → done expression last) :
    Yields (evaluate steps levels address ceiling isStatement) machine done := by
  cases levels with
  | zero =>
      rw [evaluate_zero]
      exact .raise _ (.inr rfl)
  | succ deeper =>
      rw [evaluate_succ]
      exact (yields deeper rfl).releasing fun expression after holds roots =>
        stable expression after _ ⟨rfl, rfl, rfl, rfl⟩ holds

theorem yields_frame {ceiling : Nat} {isStatement : Bool} (running : machine.memory.stack.action.isIgnored = false)
    (primary : Yields (readPrimary inner (.starting address) isStatement) machine
      fun expression after => StopsAt ceiling (after.store.byte expression.code) ∧ done expression after)
    (stable : ∀ expression after last, Undisturbed after last → done expression after → done expression last) :
    Yields (frame inner address ceiling isStatement) machine done := by
  refine .get_bind ?_
  rw [running, if_neg Bool.false_ne_true]
  refine primary.bind ?_
  rintro expression after ⟨stops, holds⟩
  refine (yields_readRest _ stops).mono ?_
  rintro result last ⟨rfl, same⟩
  exact stable result after last same holds

theorem readPrimary_builtin {builtin : Builtin} {isStatement : Bool}
    (here : machine.store.byte expression.start = builtin.byte) :
    readPrimary inner expression isStatement machine = applyBuiltin inner builtin expression isStatement machine := by
  obtain ⟨digit, name, apostrophe, quote, bracket, parenthesis, found⟩ := builtin.byte_spec
  unfold readPrimary
  simp only [Bind.bind, EStateM.bind, Eval.byteAt, get, getThe, MonadStateOf.get, EStateM.get, pure, EStateM.pure,
    here, digit, name, apostrophe, quote, bracket, parenthesis, found, Bool.false_eq_true, if_false]

/-- A built-in function runs with its arguments, which disturb nothing. -/
theorem yields_arguments {steps levels count : Nat} {isDefinition : Bool}
    {rest : List Value × Address → Eval κ Expression} (accepts : List Value → Prop) (behind : Nat)
    (ready : machine.Ready)
    (reads : ∀ array tracked, machine.Undisturbed tracked → tracked.Ready →
      Yields (readFunctionArguments (innerOf steps levels) address array isDefinition count (address + 1)) tracked
        fun result after => accepts result.1 ∧ result.2 = behind ∧ tracked.Undisturbed after)
    (runs : ∀ arguments after, accepts arguments → machine.Undisturbed after →
      Yields (rest (arguments, behind)) after done) :
    Yields (do
      let array ← Eval.trackValues
      let arguments ← readFunctionArguments (innerOf steps levels) address array isDefinition count (address + 1)
      rest arguments) machine done := by
  refine Yields.bind (yields_trackValues.keeps (Keeps.trackValues ready.toSteady)) ?_
  rintro array tracked ⟨same, follows, -⟩
  refine Yields.bind (reads array tracked same (follows.ready ready)) ?_
  rintro ⟨arguments, code⟩ after ⟨accepted, rfl, same'⟩
  exact runs arguments after accepted (same.trans same')

end Machine

/-- The only argument of a built-in function. -/
theorem Scene.Stands.yields_formula {κ : Type} [Console κ] {scene : Scene κ} {machine : Machine κ}
    {course : Course} {branch : Branch} {branches : List Branch} {steps levels address : Nat} {formula : Formula}
    {value : Float32} (stands : scene.Stands machine course (branch :: branches)) (ready : machine.Ready)
    (running : branch.action.isIgnored = false) (has : scene.store.Has (address + 1) formula.text)
    (ends : Store.endsLine (scene.store.byte (address + (formula.text.length + 1))) = true)
    (apart : ∀ read ∈ formula.names, read ∉ scene.functions) (means : formula.meaning course.env = some value)
    (array : Nat) :
    Yields (Machine.readFunctionArguments (Machine.innerOf steps levels) address array false 1 (address + 1)) machine
      fun result after => result.1 = [.number value] ∧ result.2 = address + (formula.text.length + 1) ∧
        machine.Undisturbed after := by
  have behind : address + 1 + formula.text.length = address + (formula.text.length + 1) := by omega
  rw [← stands.action] at running
  rw [← stands.store] at has ends
  rw [← behind] at ends
  refine (formula.computes steps levels ready running has ends (stands.reads apart) means (by decide)).bind ?_
  rintro argument evaluated ⟨yields, code, same⟩
  rw [yields]
  refine (Machine.yields_trackIn array _).bind ?_
  intro _ after same'
  exact .pure ⟨rfl, code.trans behind, same.trans same'⟩

end PocketScript
