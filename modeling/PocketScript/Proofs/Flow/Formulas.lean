import PocketScript.Proofs.Flow.Storing

/-! # Formulas

Numeric expressions without effects that are spelled out: a variable or a number
literal, alone or on each side of an operator.
-/

namespace PocketScript

open Eval (Yields Keeps)
open Machine (evaluate innerOf readNumberLiteral)

variable {κ : Type} {machine : Machine κ} {steps levels address : Nat}

namespace Machine

/-- Whether a byte is a digit or the point. -/
def isNumeric (byte : UInt8) : Bool :=
  Symbol.isDigit byte || byte == 0x2e

theorem isNumeric_spec : ∀ byte : UInt8, isNumeric byte = true → Store.endsLine byte = false ∧ byte ≠ 0x65 :=
  forall_byte (by decide +kernel)

theorem isNumeric_of_isDigit {byte : UInt8} (digit : Symbol.isDigit byte = true) : isNumeric byte = true := by
  rw [isNumeric, digit, Bool.true_or]

/-- No digit is an exponent mark, so a minus sign behind digits is an operator. -/
theorem restOfNumber?_eq {store : Store} {rest : List UInt8} {room : Nat} {last : UInt8} (fits : rest.length < room)
    (has : store.Has address rest) (numeric : ∀ byte ∈ rest, isNumeric byte = true) (mark : last ≠ 0x65)
    (stops : ∀ last, last ≠ 0x65 → Store.continuesNumber last (store.byte (address + rest.length)) = false) :
    store.restOfNumber? room last address = some rest := by
  induction rest generalizing address room last with
  | nil =>
      cases room with
      | zero => simp at fits
      | succ room =>
          rw [List.length_nil, Nat.add_zero] at stops
          rw [Store.restOfNumber?, stops last mark]
          rfl
  | cons byte rest ih =>
      obtain ⟨here, behind⟩ := has
      cases room with
      | zero => simp at fits
      | succ room =>
          rw [List.length_cons] at fits stops
          have numeral := numeric byte (List.mem_cons_self ..)
          have goes : Store.continuesNumber last byte = true := by
            rw [Store.continuesNumber, Bool.or_eq_true, Bool.or_eq_true]
            exact .inl (.inl numeral)
          rw [← Nat.add_assoc, Nat.add_right_comm] at stops
          have found : store.restOfNumber? room byte (address + 1) = some rest := ih (by omega) behind
            (fun other mem => numeric other (List.mem_cons_of_mem _ mem)) (isNumeric_spec byte numeral).2 stops
          rw [Store.restOfNumber?]
          simp only [here, goes, if_true, found, Option.map_some]

theorem readNumberLiteral_eq {first : UInt8} {rest : List UInt8} (has : machine.store.Has address (first :: rest))
    (numeric : ∀ byte ∈ rest, isNumeric byte = true) (short : rest.length < Store.numberLiteralLimit - 1)
    (stops : ∀ last, last ≠ 0x65 →
      Store.continuesNumber last (machine.store.byte (address + (first :: rest).length)) = false) :
    readNumberLiteral (.starting address) machine = .ok { Expression.starting address with
      code := address + (first :: rest).length
      value := .number (readNumber (first :: rest)) } machine := by
  obtain ⟨here, behind⟩ := has
  have after : address + (first :: rest).length = address + 1 + rest.length := by
    rw [List.length_cons]
    omega
  rw [after] at stops ⊢
  have found := restOfNumber?_eq short behind numeric (by decide : (0 : UInt8) ≠ 0x65) stops
  unfold readNumberLiteral
  simp only [Bind.bind, EStateM.bind, get, getThe, MonadStateOf.get, EStateM.get, Expression.starting, found, here]
  rfl

/-- An expression that starts with a number literal. -/
theorem readPrimary_number [Console κ] {inner : Inner κ} {isStatement : Bool}
    (numeric : isNumeric (machine.store.byte address) = true) :
    readPrimary inner (.starting address) isStatement machine = readNumberLiteral (.starting address) machine := by
  rw [isNumeric] at numeric
  unfold readPrimary
  simp only [Bind.bind, EStateM.bind, Eval.byteAt, get, getThe, MonadStateOf.get, EStateM.get, pure, EStateM.pure,
    Expression.starting, numeric, if_true]

end Machine

/-- The digits of a number literal. -/
structure Digits where
  bytes : List UInt8
  nonempty : bytes ≠ []
  digits : bytes.all Symbol.isDigit = true
  short : bytes.length < Store.numberLiteralLimit

namespace Digits

variable {digits : Digits} {store : Store}

theorem numeric (digits : Digits) : ∀ byte ∈ digits.bytes, Machine.isNumeric byte = true :=
  fun byte mem => Machine.isNumeric_of_isDigit (List.all_eq_true.mp digits.digits byte mem)

theorem plain (digits : Digits) : Store.Plain digits.bytes :=
  fun byte mem => (Machine.isNumeric_spec byte (digits.numeric byte mem)).1

theorem exists_cons (digits : Digits) :
    ∃ first rest, digits.bytes = first :: rest ∧ Machine.isNumeric first = true ∧
      (∀ byte ∈ rest, Machine.isNumeric byte = true) ∧ rest.length < Store.numberLiteralLimit - 1 := by
  have numeric : ∀ byte ∈ digits.bytes, Machine.isNumeric byte = true := digits.numeric
  obtain ⟨bytes, nonempty, all, short⟩ := digits
  cases bytes with
  | nil => exact absurd rfl nonempty
  | cons first rest =>
      rw [List.length_cons] at short
      exact ⟨first, rest, rfl, numeric first (List.mem_cons_self ..),
        fun byte mem => numeric byte (List.mem_cons_of_mem _ mem), by omega⟩

end Digits

/-- What an operator stands between. -/
inductive Atom where
  | read (name : Name)
  | literal (digits : Digits)

/-- Neither a name nor a number goes on with such a byte. -/
structure EndsAtom (byte : UInt8) : Prop where
  name : Symbol.continuesName byte = false
  number : ∀ last, last ≠ 0x65 → Store.continuesNumber last byte = false

theorem endsAtom_of_endsLine {byte : UInt8} (ends : Store.endsLine byte = true) : EndsAtom byte := by
  have : byte = 0x0a ∨ byte = 0 := by simpa [Store.endsLine] using ends
  rcases this with rfl | rfl
  · exact ⟨by decide, fun last _ => by simp [Store.continuesNumber, Symbol.isDigit]⟩
  · exact ⟨by decide, fun last _ => by simp [Store.continuesNumber, Symbol.isDigit]⟩

namespace Atom

def text : Atom → List UInt8
  | read name => name.bytes
  | literal digits => digits.bytes

def names : Atom → List String
  | read name => [name.text]
  | literal _ => []

def meaning (env : Environment) : Atom → Option Float32
  | read name => env name.text
  | literal digits => some (readNumber digits.bytes)

theorem plain : ∀ atom : Atom, Store.Plain atom.text
  | read name => name.plain
  | literal digits => digits.plain

/-- What an expression that starts with an atom starts with. -/
theorem yields_readPrimary [Console κ] {inner : Inner κ} {env : Environment} {atom : Atom} {value : Float32}
    {isStatement : Bool} (has : machine.store.Has address atom.text)
    (ends : EndsAtom (machine.store.byte (address + atom.text.length))) (reads : machine.Reads atom.names env)
    (means : atom.meaning env = some value) :
    Yields (Machine.readPrimary inner (.starting address) isStatement) machine fun expression after =>
      expression.start = address ∧ expression.value = .number value ∧
        expression.code = address + atom.text.length ∧ after = machine := by
  cases atom with
  | read name =>
      have named := Name.readName_eq has ends.name
      have there := reads name.text (List.mem_singleton_self _)
      change env name.text = some value at means
      rw [means, ScopeStack.value?] at there
      unfold Yields
      rw [Machine.readPrimary_name has]
      unfold Machine.readVariable
      simp only [Bind.bind, EStateM.bind, Expression.starting, named, get, getThe, MonadStateOf.get, EStateM.get]
      cases found : machine.memory.stack.find? name.text with
      | none => simp [found] at there
      | some place =>
          rw [found] at there
          have here : machine.memory.variableValue? place = some (.number value) := there
          exact ⟨rfl, by simp [here], rfl, rfl⟩
  | literal digits =>
      obtain ⟨first, rest, bytes, digit, all, short⟩ := digits.exists_cons
      have has : machine.store.Has address digits.bytes := has
      have stops := ends.number
      rw [text, bytes] at stops
      rw [bytes] at has
      have reads := Machine.readNumberLiteral_eq has all short stops
      rw [← bytes] at reads
      unfold Yields
      rw [Machine.readPrimary_number (has.1 ▸ digit), reads]
      obtain rfl := Option.some.inj means
      exact ⟨rfl, rfl, rfl, rfl⟩

end Atom

/-- The number of an operator between two numbers; none if it fails or writes. -/
def BinaryOperator.value? : BinaryOperator → (left right : Float32) → Option Float32
  | .combine operator, left, right => operator.apply left right
  | .compare operator, left, right => some (ofTruth (operator.holds left right))
  | .assign, _, _ | .update _, _, _ => none

/-- Operators that do not write bind tighter than those that do. -/
theorem BinaryOperator.precedence_lt_of_value? {operator : BinaryOperator} {left right value : Float32}
    (applied : operator.value? left right = some value) :
    operator.precedence < BinaryOperator.assign.precedence := by
  cases operator with
  | combine operator => cases operator <;> decide
  | compare operator => cases operator <;> decide
  | assign | update operator => simp [value?] at applied

theorem endsAtom_of_operator {byte : UInt8} {operator : BinaryOperator}
    (spelled : BinaryOperator.ofByte? byte = some operator) : EndsAtom byte := by
  obtain ⟨-, -, -, -, -, name, digit, point, mark⟩ := BinaryOperator.ofByte?_spec byte (by rw [spelled]; rfl)
  refine ⟨name, fun last other => ?_⟩
  simp [Store.continuesNumber, digit, point, mark, other]

namespace Atom

variable [Console κ] {env : Environment} {value : Float32}

/-- Where nothing binds to it, an atom is all of an expression. -/
theorem yields_evaluate {atom : Atom} {ceiling : Nat} (running : machine.memory.stack.action.isIgnored = false)
    (has : machine.store.Has address atom.text) (ends : EndsAtom (machine.store.byte (address + atom.text.length)))
    (stops : StopsAt ceiling (machine.store.byte (address + atom.text.length))) (reads : machine.Reads atom.names env)
    (means : atom.meaning env = some value) :
    Yields (evaluate steps levels address ceiling false) machine fun expression after =>
      expression.value = .number value ∧ expression.code = address + atom.text.length ∧
        machine.Undisturbed after := by
  refine Machine.yields_evaluate (fun deeper _ => Machine.yields_frame running ?_ ?_) ?_
  · refine (yields_readPrimary has ends reads means).mono ?_
    rintro expression _ ⟨-, number, code, rfl⟩
    refine ⟨?_, number, code, .refl _⟩
    rw [code]
    exact stops
  · rintro expression after last same ⟨number, code, before⟩
    exact ⟨number, code, before.trans same⟩
  · rintro expression after last same ⟨number, code, before⟩
    exact ⟨number, code, before.trans same⟩

/-- An atom alone. -/
def formula (atom : Atom) : Formula where
  text := atom.text
  names := atom.names
  meaning env := atom.meaning env
  plain := atom.plain
  computes := by
    intro κ _ steps levels machine address ceiling env value ready running has ends reads means below
    exact yields_evaluate running has (endsAtom_of_endsLine ends) (stopsAt_of_endsLine _ ends) reads means

/-- An operator, and an atom as its right operand. -/
theorem yields_applyBinary {right : Atom} {operator : BinaryOperator} {left : Expression} {number other : Float32}
    (running : machine.memory.stack.action.isIgnored = false) (known : left.value = .number number)
    (has : machine.store.Has (left.code + 1) right.text)
    (ends : Store.endsLine (machine.store.byte (left.code + 1 + right.text.length)) = true)
    (reads : machine.Reads right.names env) (means : right.meaning env = some other)
    (applied : operator.value? number other = some value) :
    Yields (Machine.applyBinary (innerOf steps levels) operator left) machine fun result after =>
      result.value = .number value ∧ result.code = left.code + 1 + right.text.length ∧
        machine.Undisturbed after := by
  refine (Machine.yields_track left.value).bind fun _ tracked same => ?_
  have evaluates : Yields (evaluate steps levels (left.code + 1) operator.precedence false) tracked
      fun expression after => expression.value = .number other ∧
        expression.code = left.code + 1 + right.text.length ∧ tracked.Undisturbed after := by
    rw [← same.stack] at running
    rw [← same.store] at has ends
    have reads : tracked.Reads right.names env := by
      intro name mem
      rw [same.stack]
      exact reads name mem
    exact yields_evaluate running has (endsAtom_of_endsLine ends) (stopsAt_of_endsLine _ ends) reads means
  refine evaluates.bind ?_
  rintro operand after ⟨yields, code, same'⟩
  refine (Machine.yields_track operand.value).bind fun _ kept same'' => ?_
  have undisturbed := (same.trans same').trans same''
  rw [yields]
  cases operator with
  | combine operator =>
      simp only [Value.isMissing, Bool.false_eq_true, if_false, Machine.combine, known,
        show operator.apply number other = some value from applied]
      exact ⟨rfl, code, undisturbed⟩
  | compare operator =>
      obtain rfl := Option.some.inj applied
      simp only [Value.isMissing, Bool.false_eq_true, if_false, Machine.compare, known]
      exact ⟨rfl, code, undisturbed⟩
  | assign | update operator => simp [BinaryOperator.value?] at applied

theorem plain_between (left right : Atom) {byte : UInt8} {operator : BinaryOperator}
    (spelled : BinaryOperator.ofByte? byte = some operator) : Store.Plain (left.text ++ byte :: right.text) := by
  have spec := BinaryOperator.ofByte?_spec byte (by rw [spelled]; rfl)
  intro other mem
  rcases List.mem_append.mp mem with mem | mem
  · exact left.plain other mem
  · rcases List.mem_cons.mp mem with rfl | mem
    · simp [Store.endsLine, spec.2.2.2.1, spec.2.2.2.2.1]
    · exact right.plain other mem

theorem computes_between (left right : Atom) {byte : UInt8} {operator : BinaryOperator}
    (spelled : BinaryOperator.ofByte? byte = some operator) :
    Computes (left.text ++ byte :: right.text) (left.names ++ right.names)
      (fun env => do operator.value? (← left.meaning env) (← right.meaning env)) := by
  obtain ⟨step, index, call, -⟩ :=
    BinaryOperator.ofByte?_spec byte (by rw [spelled]; rfl)
  intro κ _ steps levels machine address ceiling env value ready running has ends reads means below
  obtain ⟨number, means_left, other, means_right, applied⟩ :
      ∃ number, left.meaning env = some number ∧ ∃ other, right.meaning env = some other ∧
        operator.value? number other = some value := by
    simpa [Option.bind_eq_some_iff] using means
  have length : address + (left.text ++ byte :: right.text).length =
      address + left.text.length + 1 + right.text.length := by
    simp
    omega
  rw [length] at ends ⊢
  obtain ⟨first, here, behind⟩ := Store.has_append.mp has
  refine Machine.yields_evaluate (fun deeper _ => ?_) fun expression after last same holds =>
    ⟨holds.1, holds.2.1, holds.2.2.trans same⟩
  refine .get_bind ?_
  rw [running, if_neg Bool.false_ne_true]
  have inside : (innerOf steps deeper).Sound := Machine.sound_innerOf (κ := κ) steps deeper
  have ends_left : EndsAtom (machine.store.byte (address + left.text.length)) := by
    rw [here]
    exact endsAtom_of_operator spelled
  have starts : Yields (Machine.readPrimary (innerOf steps deeper) (.starting address) false) machine _ :=
    yields_readPrimary first ends_left
    (fun name mem => reads name (List.mem_append_left _ mem)) means_left
  refine (starts.keeps (Machine.keeps_readPrimary inside ready (Expression.bare_starting address) false)).bind ?_
  rintro expression _ ⟨⟨start, known, code, rfl⟩, -, valid⟩
  rw [← here, ← code] at step index call spelled
  refine Machine.yields_readRest_binary (Store.capacity - 1) ready valid step index call spelled
    (lt_of_lt_of_le (BinaryOperator.precedence_lt_of_value? applied) below) (fun tracked same _ _ => ?_)
    fun expression after last same holds => ⟨holds.1, holds.2.1, holds.2.2.trans same⟩
  rw [← code] at behind ends ⊢
  rw [← same.store] at behind ends
  rw [← same.stack] at running
  have reads : tracked.Reads right.names env := by
    intro name mem
    rw [same.stack]
    exact reads name (List.mem_append_right _ mem)
  refine (yields_applyBinary running known behind ends reads means_right applied).mono ?_
  rintro result after ⟨number, code, same'⟩
  rw [code, same'.store]
  exact ⟨stopsAt_of_endsLine _ ends, number, rfl, same.trans same'⟩

/-- An operator between two atoms. -/
def formulaWith (left right : Atom) (byte : UInt8) (operator : BinaryOperator)
    (spelled : BinaryOperator.ofByte? byte = some operator) : Formula where
  text := left.text ++ byte :: right.text
  names := left.names ++ right.names
  meaning env := do operator.value? (← left.meaning env) (← right.meaning env)
  plain := plain_between left right spelled
  computes := computes_between left right spelled

end Atom

end PocketScript
