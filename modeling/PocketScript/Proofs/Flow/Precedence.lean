import PocketScript.Console.Script
import PocketScript.Machine.Run
import PocketScript.Proofs.Flow.OperatorTree
import PocketScript.Proofs.Machine.Operands
import PocketScript.Proofs.Store.Bytes

/-! # Precedence

Evaluation reads the text of an operator tree in one pass, with a ceiling for the
operators it takes. What it yields is what the tree yields from its leaves up.
-/

namespace PocketScript

open Machine (evaluate innerOf readPrimary readRest)

namespace Eval

variable {κ α β : Type} {evaluation : Eval κ α} {machine after : Machine κ} {few : Prop} {number? : Option Float32}
  {done : Float32 → α → Machine κ → Prop} {done' : Float32 → β → Machine κ → Prop}

/-- Evaluation computes the number that it should. If it does not go on, the
    program divided by zero and there is no number, or there were too few levels. -/
def Settles (evaluation : Eval κ α) (machine : Machine κ) (few : Prop) (number? : Option Float32)
    (done : Float32 → α → Machine κ → Prop) : Prop :=
  match evaluation machine with
  | .ok result after => ∃ number, number? = some number ∧ done number result after
  | .error .quit after => ∃ fault, after.fault? = some fault ∧
    (fault.cause = .program .divideByZero ∧ number? = none ∨ fault.cause = .program .expressionTooComplex ∧ few)
  | .error _ _ => False

namespace Settles

theorem of_ran {result : α} {number : Float32} (ran : evaluation machine = .ok result after)
    (holds : done number result after) : Settles evaluation machine few (some number) done := by
  unfold Settles
  rw [ran]
  exact ⟨number, rfl, holds⟩

theorem of_eq {evaluation' : Eval κ α} (same : evaluation machine = evaluation' machine)
    (settles : Settles evaluation' machine few number? done) : Settles evaluation machine few number? done := by
  unfold Settles at settles ⊢
  rwa [same]

theorem divided {address : Address} : Settles (raise .divideByZero address : Eval κ α) machine few none done :=
  ⟨⟨.program .divideByZero, address⟩, rfl, .inl ⟨rfl, rfl⟩⟩

theorem mono {done' : Float32 → α → Machine κ → Prop} {more : Prop}
    (settles : Settles evaluation machine few number? done) (still : few → more)
    (imp : ∀ number result after, done number result after → done' number result after) :
    Settles evaluation machine more number? done' := by
  unfold Settles at settles ⊢
  cases ran : evaluation machine with
  | ok result after =>
      simp only [ran] at settles
      obtain ⟨number, known, holds⟩ := settles
      exact ⟨number, known, imp number result after holds⟩
  | error interrupt after =>
      simp only [ran] at settles
      cases interrupt with
      | answer value | unfinished => exact settles
      | quit =>
          obtain ⟨fault, failed, cause⟩ := settles
          exact ⟨fault, failed, cause.imp_right fun complex => ⟨complex.1, still complex.2⟩⟩

theorem bind {next : α → Eval κ β} {next? : Float32 → Option Float32}
    (first : Settles evaluation machine few number? done)
    (rest : ∀ number result after, done number result after → Settles (next result) after few (next? number) done') :
    Settles (evaluation >>= next) machine few (number?.bind next?) done' := by
  unfold Settles at first
  cases ran : evaluation machine with
  | ok result middle =>
      simp only [ran] at first
      obtain ⟨number, rfl, holds⟩ := first
      have rest := rest number result middle holds
      unfold Settles at rest ⊢
      simpa only [Bind.bind, EStateM.bind, ran, Option.bind_some] using rest
  | error interrupt middle =>
      simp only [ran] at first
      unfold Settles
      simp only [Bind.bind, EStateM.bind, ran]
      cases interrupt with
      | answer value | unfinished => exact first
      | quit =>
          obtain ⟨fault, failed, cause⟩ := first
          refine ⟨fault, failed, cause.imp_left fun divided => ⟨divided.1, ?_⟩⟩
          rw [divided.2, Option.bind_none]

/-- Behind a part of which the result is known. -/
theorem bind_ran {next : α → Eval κ β} {result : α} (ran : evaluation machine = .ok result after)
    (rest : Settles (next result) after few number? done') :
    Settles (evaluation >>= next) machine few number? done' := by
  unfold Settles at rest ⊢
  simpa only [Bind.bind, EStateM.bind, ran] using rest

theorem releasing (settles : Settles evaluation machine few number? done)
    (stable : ∀ number result after, done number result after →
      ∀ roots, done number result { after with memory := { after.memory with roots } }) :
    Settles (releasing evaluation) machine few number? done := by
  unfold Settles at settles ⊢
  simp only [Eval.releasing, Eval.always, Bind.bind, EStateM.bind, get, getThe, MonadStateOf.get, EStateM.get]
  cases ran : evaluation machine with
  | ok result after =>
      simp only [ran] at settles
      obtain ⟨number, known, holds⟩ := settles
      exact ⟨number, known, stable number result after holds _⟩
  | error interrupt after =>
      simp only [ran] at settles
      cases interrupt with
      | answer value | unfinished | quit => exact settles

end Settles

end Eval

theorem StopsAt.mono {ceiling ceiling' : Nat} {byte : UInt8} (stops : StopsAt ceiling byte)
    (below : ceiling' ≤ ceiling) : StopsAt ceiling' byte :=
  ⟨stops.step, stops.index, stops.call, fun operator found => below.trans (stops.operator operator found)⟩

/-- Reading a text and what is behind it computes the number of the tree first.
    The operators of a text that starts an expression are read together with those
    behind it, so what is behind it is part of the statement. -/
def ReadsAs (ceiling : Nat) (tree : OperatorTree) (text : List UInt8) : Prop :=
  ∀ {κ : Type} [Console κ] (steps levels outer : Nat) (isStatement : Bool) {machine : Machine κ} {address room : Nat}
    {few : Prop} {next? : Float32 → Option Float32} {done : Float32 → Expression → Machine κ → Prop},
    machine.memory.stack.action.isIgnored = false → machine.store.Has address text →
    EndsAtom (machine.store.byte (address + text.length)) →
    StopsAt (ceiling - 1) (machine.store.byte (address + text.length)) →
    ceiling ≤ outer → text.length < room → (levels + 1 < text.length → few) →
    (∀ number expression after left, machine.Undisturbed after → expression.value = .number number →
      expression.code = address + text.length → room ≤ left + text.length →
      (readRest (innerOf steps levels) outer left expression).Settles after few (next? number) done) →
    Eval.Settles (readPrimary (innerOf steps levels) (.starting address) isStatement >>=
      readRest (innerOf steps levels) outer room) machine few (tree.value?.bind next?) done

variable {κ : Type} [Console κ] {machine : Machine κ} {steps levels address ceiling : Nat} {tree : OperatorTree}
  {text : List UInt8} {few : Prop}

omit [Console κ] in
theorem settles_readRest {inner : Inner κ} {expression : Expression} {number : Float32} (room : Nat)
    (stops : StopsAt ceiling (machine.store.byte expression.code)) (known : expression.value = .number number) :
    (readRest inner ceiling (room + 1) expression).Settles machine few (some number) fun number result after =>
      result.value = .number number ∧ result.code = expression.code ∧ machine.Undisturbed after := by
  refine .bind_ran rfl ?_
  refine .bind_ran rfl ?_
  rw [stops.step]
  dsimp only
  rw [if_neg stops.index, if_neg stops.call]
  cases found : BinaryOperator.ofByte? (machine.store.byte expression.code) with
  | none => exact .of_ran rfl ⟨known, rfl, ⟨rfl, rfl, rfl, rfl⟩⟩
  | some operator =>
      dsimp only
      rw [if_neg (Nat.not_lt.mpr (stops.operator operator found))]
      exact .of_ran rfl ⟨known, rfl, ⟨rfl, rfl, rfl, rfl⟩⟩

/-- An expression of which the text is all. -/
theorem ReadsAs.evaluate (steps levels : Nat) (isStatement : Bool) (reads : ReadsAs ceiling tree text)
    (written : Written ceiling tree text) (running : machine.memory.stack.action.isIgnored = false)
    (has : machine.store.Has address text)
    (ends : EndsAtom (machine.store.byte (address + text.length)))
    (stops : StopsAt ceiling (machine.store.byte (address + text.length))) :
    (evaluate steps levels address ceiling isStatement).Settles machine (levels < text.length) tree.value?
      fun number expression after => expression.value = .number number ∧ expression.code = address + text.length ∧
        machine.Undisturbed after := by
  cases levels with
  | zero =>
      rw [Machine.evaluate_zero]
      exact ⟨_, rfl, .inr ⟨rfl, written.length_pos⟩⟩
  | succ levels =>
      rw [Machine.evaluate_succ]
      refine Eval.Settles.releasing ?_ fun number expression after holds roots =>
        ⟨holds.1, holds.2.1, holds.2.2.trans ⟨rfl, rfl, rfl, rfl⟩⟩
      refine .bind_ran rfl ?_
      rw [running, if_neg Bool.false_ne_true]
      have fits := Store.length_le_of_has has written.plain
      rw [← Option.bind_fun_some tree.value?]
      refine reads steps levels ceiling isStatement running has ends (stops.mono (Nat.sub_le ..)) (Nat.le_refl _)
        (by omega) id ?_
      intro number expression after left same known code room
      obtain ⟨left, rfl⟩ : ∃ smaller, left = smaller + 1 := Nat.exists_eq_add_one.mpr (by omega)
      rw [← code, ← same.store] at stops
      refine (settles_readRest left stops known).mono id fun number result last holds => ?_
      exact ⟨holds.1, holds.2.1.trans code, same.trans holds.2.2⟩

namespace Sign

theorem byte_spec (sign : Sign) : (Symbol.isDigit sign.byte || sign.byte == 0x2e) = false ∧
    Symbol.startsName sign.byte = false ∧ sign.byte ≠ 0x27 ∧ sign.byte ≠ 0x22 ∧ sign.byte ≠ 0x5b ∧
    sign.byte ≠ 0x28 ∧ Symbol.builtin? sign.byte = none ∧ UnaryOperator.ofByte? sign.byte = some sign.operator := by
  cases sign with
  | negate | not | complement => decide +kernel

theorem readPrimary_eq (sign : Sign) (here : machine.store.byte address = sign.byte) (inner : Inner κ)
    (isStatement : Bool) : readPrimary inner (.starting address) isStatement machine =
      Machine.applyUnary inner sign.operator (.starting address) machine := by
  obtain ⟨digit, name, apostrophe, quote, bracket, parenthesis, builtin, unary⟩ := sign.byte_spec
  unfold readPrimary
  simp only [Bind.bind, EStateM.bind, Eval.byteAt, get, getThe, MonadStateOf.get, EStateM.get, pure, EStateM.pure,
    Expression.starting, here, digit, name, apostrophe, quote, bracket, parenthesis, builtin, unary,
    Bool.false_eq_true, if_false]

end Sign

namespace Connective

theorem endsAtom (connective : Connective) : EndsAtom connective.byte :=
  endsAtom_of_operator connective.ofByte?_byte

/-- To the left of an operator, what binds as tightly comes first. -/
theorem stopsAt (connective : Connective) : StopsAt connective.operator.precedence connective.byte := by
  obtain ⟨step, index, call, -⟩ := BinaryOperator.ofByte?_spec connective.byte (by rw [connective.ofByte?_byte]; rfl)
  refine ⟨step, index, call, fun operator found => ?_⟩
  rw [connective.ofByte?_byte] at found
  rw [Option.some.inj found]

omit [Console κ] in
theorem settles_readRest (connective : Connective) {inner : Inner κ} {expression : Expression} {room : Nat}
    {number? : Option Float32} {done : Float32 → Expression → Machine κ → Prop}
    (here : machine.store.byte expression.code = connective.byte)
    (below : connective.operator.precedence < ceiling)
    (rest : ∀ tracked, machine.Undisturbed tracked →
      (Machine.applyBinary inner connective.operator expression >>= readRest inner ceiling room).Settles tracked few
        number? done) :
    (readRest inner ceiling (room + 1) expression).Settles machine few number? done := by
  have stops := connective.stopsAt
  refine .bind_ran rfl ?_
  refine .bind_ran rfl ?_
  rw [here, stops.step]
  dsimp only
  rw [if_neg stops.index, if_neg stops.call, connective.ofByte?_byte]
  dsimp only
  rw [if_pos below]
  exact rest _ ⟨rfl, rfl, rfl, rfl⟩

omit [Console κ] in
/-- The operator, after both of its operands. -/
theorem settles_applyBinary (connective : Connective) {inner : Inner κ} {left : Expression} {number : Float32}
    {number? : Option Float32} {behind : Nat} (known : left.value = .number number)
    (evaluates : ∀ tracked, machine.Undisturbed tracked →
      (inner.expression (left.code + 1) connective.operator.precedence false).Settles tracked few number?
        fun other right after => right.value = .number other ∧ right.code = behind ∧ tracked.Undisturbed after) :
    (Machine.applyBinary inner connective.operator left).Settles machine few
      (number?.bind (connective.operator.value? number)) fun value result after =>
        result.value = .number value ∧ result.code = behind ∧ machine.Undisturbed after := by
  refine .bind_ran rfl ?_
  have track : ∀ (tracked : Machine κ) (value : Value), tracked.Undisturbed
      { tracked with memory := { tracked.memory with roots := tracked.memory.roots.track value } } :=
    fun _ _ => ⟨rfl, rfl, rfl, rfl⟩
  refine (evaluates _ (track _ _)).bind ?_
  rintro other right after ⟨value, code, same⟩
  refine .bind_ran rfl ?_
  rw [value]
  have undisturbed := ((track machine left.value).trans same).trans (track after (.number other))
  cases connective with
  | combine combination =>
      simp only [operator, Value.isMissing, Bool.false_eq_true, if_false, Machine.combine, known, BinaryOperator.value?]
      cases applied : combination.apply number other with
      | none => exact .of_eq rfl .divided
      | some result => exact .of_ran rfl ⟨rfl, code, undisturbed⟩
  | compare comparison =>
      simp only [operator, Value.isMissing, Bool.false_eq_true, if_false, Machine.compare, known, BinaryOperator.value?]
      exact .of_ran rfl ⟨rfl, code, undisturbed⟩

end Connective

namespace ReadsAs

/-- A text that an expression starts with as a whole. -/
theorem of_primary (settles : ∀ {κ : Type} [Console κ] (steps levels : Nat) (isStatement : Bool) {machine : Machine κ}
      {address : Nat}, machine.memory.stack.action.isIgnored = false → machine.store.Has address text →
      EndsAtom (machine.store.byte (address + text.length)) → StopsAt 0 (machine.store.byte (address + text.length)) →
      (readPrimary (innerOf steps levels) (.starting address) isStatement).Settles machine (levels + 1 < text.length)
        tree.value? fun number expression after => expression.value = .number number ∧
          expression.code = address + text.length ∧ machine.Undisturbed after) :
    ReadsAs ceiling tree text := by
  intro κ _ steps levels outer isStatement machine address room few next? done running has ends stops _ _ low rest
  refine Eval.Settles.bind ((settles steps levels isStatement running has ends
    (stops.mono (Nat.zero_le _))).mono low fun _ _ _ => id) ?_
  rintro number expression after ⟨known, code, same⟩
  exact rest number expression after room same known code (Nat.le_add_right ..)

theorem literal (decimal : Decimal) : ReadsAs ceiling (.literal decimal) decimal.text := by
  refine of_primary fun steps levels isStatement machine address running has ends stops => ?_
  obtain ⟨first, rest, text, digit, all, short⟩ := decimal.exists_cons
  have continues := ends.number
  rw [text] at has continues
  have reads := Machine.readNumberLiteral_eq has all short continues
  rw [← text, decimal.readNumber_text] at reads
  refine .of_ran ((Machine.readPrimary_number ?_).trans reads) ⟨rfl, rfl, .refl _⟩
  rw [has.1]
  exact Machine.isNumeric_of_isDigit digit

/-- Nothing goes on with a closing parenthesis. -/
theorem endsAtom_parenthesis : EndsAtom 0x29 :=
  ⟨by decide, fun last _ => by simp [Store.continuesNumber, Symbol.isDigit]⟩

theorem parentheses (inside : ReadsAs Inner.statementCeiling tree text)
    (written : Written Inner.statementCeiling tree text) : ReadsAs ceiling tree (0x28 :: (text ++ [0x29])) := by
  refine of_primary fun steps levels isStatement machine address running has ends stops => ?_
  obtain ⟨opens, has⟩ := has
  obtain ⟨has, closes, -⟩ := Store.has_append.mp has
  have length : address + (0x28 :: (text ++ [0x29])).length = address + 1 + text.length + 1 := by
    simp
    omega
  have evaluates := inside.evaluate steps levels false written running has (closes ▸ endsAtom_parenthesis)
    (closes ▸ stopsAt_of_none _ (by decide))
  refine .of_eq (Machine.readPrimary_parenthesis opens _ isStatement) ?_
  rw [← Option.bind_fun_some tree.value?]
  refine Eval.Settles.bind (evaluates.mono (fun low => by simp; omega) fun _ _ _ => id) ?_
  rintro number expression after ⟨known, code, same⟩
  refine .bind_ran rfl ?_
  have closed : after.store.byte expression.code = 0x29 := by rw [code, same.store, closes]
  rw [closed, if_neg (by decide)]
  exact .of_ran rfl ⟨known, by rw [code, length], same⟩

theorem unary (sign : Sign) {operand : OperatorTree} (behind : ReadsAs Inner.operandCeiling operand text)
    (written : Written Inner.operandCeiling operand text) :
    ReadsAs ceiling (.unary sign operand) (sign.byte :: text) := by
  refine of_primary fun steps levels isStatement machine address running has ends stops => ?_
  obtain ⟨here, has⟩ := has
  have length : address + (sign.byte :: text).length = address + 1 + text.length := by
    simp
    omega
  rw [length] at ends stops ⊢
  have evaluates := behind.evaluate steps levels false written running has ends stops
  refine .of_eq (sign.readPrimary_eq here _ isStatement) ?_
  rw [OperatorTree.value?, Option.map_eq_bind]
  refine Eval.Settles.bind (evaluates.mono (fun low => by simp; omega) fun _ _ _ => id) ?_
  rintro number expression after ⟨known, code, same⟩
  rw [known]
  cases sign with
  | negate | not | complement => exact .of_ran rfl ⟨rfl, code, same⟩

theorem binary (connective : Connective) {left right : OperatorTree} {front back : List UInt8}
    (below : connective.operator.precedence < ceiling)
    (before : ReadsAs (connective.operator.precedence + 1) left front)
    (behind : ReadsAs connective.operator.precedence right back)
    (written : Written connective.operator.precedence right back) :
    ReadsAs ceiling (.binary connective left right) (front ++ connective.byte :: back) := by
  intro κ _ steps levels outer isStatement machine address room few next? done running has ends stops le fits low rest
  obtain ⟨first, here, has⟩ := Store.has_append.mp has
  have length : (front ++ connective.byte :: back).length = front.length + 1 + back.length := by
    simp
    omega
  have place : address + (front ++ connective.byte :: back).length = address + front.length + 1 + back.length := by
    omega
  rw [place] at ends stops
  rw [OperatorTree.value?, Option.bind_assoc]
  refine before steps levels outer isStatement running first (here ▸ connective.endsAtom)
    (here ▸ connective.stopsAt) (Nat.le_trans below le) (by omega) (fun _ => low (by omega)) ?_
  intro number expression after left same known code enough
  obtain ⟨left, rfl⟩ : ∃ smaller, left = smaller + 1 := Nat.exists_eq_add_one.mpr (by omega)
  have stays : after.store.byte expression.code = connective.byte := by rw [code, same.store, here]
  refine connective.settles_readRest stays (Nat.lt_of_lt_of_le below le) fun tracked tracks => ?_
  have undisturbed := same.trans tracks
  have applies : (Machine.applyBinary (innerOf steps levels) connective.operator expression).Settles tracked few
      (right.value?.bind (connective.operator.value? number)) fun value result after => result.value = .number value ∧
        result.code = address + front.length + 1 + back.length ∧ tracked.Undisturbed after := by
    refine connective.settles_applyBinary known fun tracked' tracks' => ?_
    have undisturbed := undisturbed.trans tracks'
    rw [← undisturbed.stack] at running
    rw [← undisturbed.store] at has ends stops
    rw [code]
    exact (behind.evaluate steps levels false written running has ends (stops.mono (Nat.le_sub_one_of_lt below))).mono
      (fun short => low (by omega)) fun _ _ _ => id
  refine applies.bind ?_
  rintro value result last ⟨known, code, same⟩
  exact rest value result last left (undisturbed.trans same) known (code.trans place.symm) (by omega)

end ReadsAs

theorem Written.readsAs (written : Written ceiling tree text) : ReadsAs ceiling tree text := by
  induction written with
  | literal decimal => exact ReadsAs.literal decimal
  | parentheses written inside => exact inside.parentheses written
  | unary sign written behind => exact behind.unary sign written
  | binary connective below _ written before behind =>
      rw [← connective.precedence_eq] at below written before behind
      exact ReadsAs.binary connective below before behind written

/-- Where it stands at the end of a line, a text is evaluated to the number of its
    tree, up to the end of the text, and nothing else comes of it. The program
    divides by zero exactly if the tree does, unless it runs out of levels, which
    takes fewer levels than the text has bytes. -/
theorem Machine.evaluate_written (steps levels address : Nat) (isStatement : Bool) (machine : Machine κ)
    (written : Written Inner.statementCeiling tree text) (running : machine.memory.stack.action.isIgnored = false)
    (has : machine.store.Has address text) (ends : Store.endsLine (machine.store.byte (address + text.length)) = true) :
    (evaluate steps levels address Inner.statementCeiling isStatement).Settles machine (levels < text.length)
      tree.value? fun number expression after => expression.value = .number number ∧
        expression.code = address + text.length ∧ machine.Undisturbed after :=
  ReadsAs.evaluate steps levels isStatement written.readsAs written running has (endsAtom_of_endsLine ends)
    (stopsAt_of_endsLine _ ends)

/-- The tree of `2-(3-4)*-5.5<6`. -/
def OperatorTree.sample : OperatorTree :=
  .binary (.compare .less)
    (.binary (.combine .subtract) (.literal ⟨[0x32], none, by decide, by decide +kernel, by decide⟩)
      (.binary (.combine .multiply)
        (.binary (.combine .subtract) (.literal ⟨[0x33], none, by decide, by decide +kernel, by decide⟩)
          (.literal ⟨[0x34], none, by decide, by decide +kernel, by decide⟩))
        (.unary .negate (.literal ⟨[0x35], some [0x35], by decide, by decide +kernel, by decide⟩))))
    (.literal ⟨[0x36], none, by decide, by decide +kernel, by decide⟩)

theorem Machine.evaluate_written_sample :
    let text : List UInt8 := [0x32, 0x2d, 0x28, 0x33, 0x2d, 0x34, 0x29, 0x2a, 0x2d, 0x35, 0x2e, 0x35, 0x3c, 0x36]
    let machine := Machine.start (Store.erased.write 0 (text ++ [0])) (Script.ofAnswers []) Configuration.standard
    Written Inner.statementCeiling .sample text ∧ machine.memory.stack.action.isIgnored = false ∧
      machine.store.Has 0 text ∧ Store.endsLine (machine.store.byte (0 + text.length)) = true ∧
      (evaluate 0 128 0 Inner.statementCeiling true).Settles machine (128 < text.length) OperatorTree.sample.value?
        fun number expression after => expression.value = .number number ∧ expression.code = 0 + text.length ∧
          machine.Undisturbed after := by
  intro text machine
  have written : Written Inner.statementCeiling .sample text := Written.ofTree _ _
  have running : machine.memory.stack.action.isIgnored = false := by decide
  have stored : machine.store = Store.erased.write 0 (text ++ [0]) := rfl
  have whole : (Store.erased.write 0 (text ++ [0])).Has 0 (text ++ [0]) :=
    Store.has_write (Nat.le_of_ble_eq_true rfl)
  rw [← stored] at whole
  obtain ⟨has, zero, -⟩ := Store.has_append.mp whole
  have ends : Store.endsLine (machine.store.byte (0 + text.length)) = true := by
    rw [zero]
    rfl
  clear_value machine
  exact ⟨written, running, has, ends, Machine.evaluate_written 0 128 0 true machine written running has ends⟩

end PocketScript
