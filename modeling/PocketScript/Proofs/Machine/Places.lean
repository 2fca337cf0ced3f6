import PocketScript.Proofs.Machine.Evaluations
import PocketScript.Proofs.Machine.Giving

/-! # Values that are at no place

Literals, built-in functions, signs and combinations make a value of their own.
It is at no place, and it is not a function, since only a definition makes one.
-/

namespace PocketScript

/-- A value that is not a function. -/
def Value.IsPlain (value : Value) : Prop :=
  ∀ header, value ≠ .function header

namespace Machine

open Eval (Gives)

variable {κ : Type} {machine : Machine κ} {inner : Inner κ} {expression : Expression} {isStatement : Bool}

/-- An expression that is at no place, and that cannot be called. -/
structure Placeless (expression : Expression) : Prop where
  destination : expression.destination? = none
  value : expression.value.IsPlain

theorem placeless_starting (start : Address) : Placeless (.starting start) :=
  ⟨rfl, fun _ => Value.noConfusion⟩

theorem gives_readNumberLiteral (placeless : Placeless expression) :
    Gives (readNumberLiteral expression) machine fun result _ => Placeless result := by
  refine .get_bind ?_
  dsimp only
  split
  · exact .raise _
  · exact .pure ⟨placeless.destination, fun _ => Value.noConfusion⟩

theorem gives_readCharacterLiteral (placeless : Placeless expression) :
    Gives (readCharacterLiteral expression) machine fun result _ => Placeless result := by
  refine .get_bind ?_
  dsimp only
  split
  all_goals
    split
    · exact .raise _
    · exact .pure ⟨placeless.destination, fun _ => Value.noConfusion⟩

theorem gives_readStringLiteral (placeless : Placeless expression) :
    Gives (readStringLiteral expression) machine fun result _ => Placeless result := by
  refine .get_bind ?_
  split
  · exact .raise _
  · exact Gives.any.bind fun cell _ _ => .pure ⟨placeless.destination, fun _ => Value.noConfusion⟩

theorem gives_readListLiteral (placeless : Placeless expression) :
    Gives (readListLiteral inner expression) machine fun result _ => Placeless result :=
  Gives.any.bind fun _ _ _ => Gives.any.bind fun _ _ _ => Gives.any.bind fun _ _ _ =>
    .pure ⟨placeless.destination, fun _ => Value.noConfusion⟩

theorem gives_closeBlock (placeless : Placeless expression) :
    Gives (closeBlock expression) machine fun result _ => Placeless result := by
  refine .get_bind (Gives.any.bind fun closed _ _ => ?_)
  split
  · split
    · exact .pure ⟨placeless.destination, placeless.value⟩
    · exact .pure placeless
  · refine .get_bind ?_
    split
    · exact .raise _
    · exact .throw _

theorem gives_define (placeless : Placeless expression) :
    Gives (define expression) machine fun result _ => Placeless result := by
  have finish : ∀ {named : Machine κ} {place : VariableRef},
      Gives (do
        (Destination.variable place).write .kept (.function expression.start) expression.start
        Eval.onMemory expression.start (Memory.pushBranch .ignoreHard 0)
        return expression) named fun result _ => Placeless result :=
    Gives.any.bind fun _ _ _ => Gives.any.bind fun _ _ _ => .pure placeless
  refine Gives.any.bind fun name _ _ => .get_bind ?_
  dsimp only
  split
  · exact finish
  · exact Gives.any.bind fun _ _ _ => finish

theorem gives_control (function : Control) (argument : Value) (placeless : Placeless expression) :
    Gives (control function argument expression) machine fun result _ => Placeless result := by
  cases function with
  | leave | answer | quit => exact .throw _
  | whenTrue | loop | otherwiseWhen | otherwise => exact Gives.any.bind fun _ _ _ => .pure placeless
  | close => exact gives_closeBlock placeless
  | define => exact gives_define placeless
  | leaveLoop =>
      refine Gives.any.bind fun found _ _ => ?_
      split
      · exact .pure placeless
      · exact .raise _
  | nextRound =>
      refine Gives.any.bind fun found _ _ => ?_
      split
      · exact .pure ⟨placeless.destination, placeless.value⟩
      · exact .raise _

theorem gives_applyMath (function : MathFunction) (arguments : List Value) (start : Address) :
    Gives (applyMath function arguments start) machine fun value _ => value.IsPlain := by
  cases function with
  | random | absolute | round | floor | ceiling | sine | cosine | tangent =>
      exact Gives.any.bind fun _ _ _ => .pure fun _ => Value.noConfusion
  | randomInteger =>
      exact Gives.any.bind fun _ _ _ => Gives.any.bind fun _ _ _ => Gives.any.bind fun _ _ _ =>
        .pure fun _ => Value.noConfusion
  | squareRoot =>
      refine Gives.any.bind fun _ _ _ => ?_
      split
      · exact .raise _
      · exact .pure fun _ => Value.noConfusion
  | power | logarithm =>
      refine Gives.any.bind fun _ _ _ => Gives.any.bind fun _ _ _ => ?_
      split
      · exact .raise _
      · exact .pure fun _ => Value.noConfusion

theorem gives_stringOf (text : String) (start : Address) :
    Gives (stringOf text start) machine fun value _ => value.IsPlain :=
  Gives.any.bind fun _ _ _ => .pure fun _ => Value.noConfusion

theorem plain_bind {α : Type} {operation : MemoryM α} {next : α → MemoryM Value}
    (rest : ∀ result memory value after, next result memory = .ok value after → value.IsPlain) :
    ∀ memory value after, (operation >>= next) memory = .ok value after → value.IsPlain := by
  intro memory value after ran
  simp only [Bind.bind, EStateM.bind] at ran
  split at ran
  · exact rest _ _ _ _ ran
  · cases ran

theorem plain_string (cell : Handle) :
    ∀ memory value after, (pure (.string cell) : MemoryM Value) memory = .ok value after → value.IsPlain := by
  rintro _ _ _ ⟨⟩ _
  exact Value.noConfusion

theorem plain_list (cell : Handle) :
    ∀ memory value after, (pure (.list cell) : MemoryM Value) memory = .ok value after → value.IsPlain := by
  rintro _ _ _ ⟨⟩ _
  exact Value.noConfusion

theorem gives_copySlice (sequence : Value) (first finish : Int) (start : Address) :
    Gives (Eval.onMemory start (Memory.copySlice sequence first finish)) machine fun value _ => value.IsPlain := by
  refine .onMemory ?_
  unfold Memory.copySlice
  split
  · exact plain_bind fun _ => plain_bind fun _ => plain_bind fun cell => plain_string cell
  · exact plain_bind fun _ => plain_bind fun _ => plain_bind fun cell => plain_list cell
  · rintro _ _ _ ⟨⟩

theorem gives_copySequence (sequence : Value) (start : Address) :
    Gives (Eval.onMemory start (Memory.copySequence sequence)) machine fun value _ => value.IsPlain := by
  refine .onMemory ?_
  unfold Memory.copySequence
  split
  · exact plain_bind fun _ => plain_bind fun cell => plain_string cell
  · exact plain_bind fun _ => plain_bind fun cell => plain_list cell
  · rintro _ _ _ ⟨⟩

theorem gives_concatenate (left right : Handle) (start : Address) :
    Gives (Eval.onMemory start (Memory.concatenate left right)) machine fun value _ => value.IsPlain :=
  .onMemory (plain_bind fun _ => plain_bind fun _ => plain_bind fun cell => plain_string cell)

theorem gives_applyValue (function : ValueFunction) (arguments : List Value) (start : Address) :
    Gives (applyValue function arguments start) machine fun value _ => value.IsPlain := by
  unfold applyValue
  dsimp only
  cases function with
  | number =>
      dsimp only
      split
      · next same => exact .pure fun _ wrong => by rw [same] at wrong; cases wrong
      · exact Gives.any.bind fun _ _ _ => .pure fun _ => Value.noConfusion
      · exact .raise _
  | string =>
      dsimp only
      split
      · exact gives_stringOf _ _
      · next same => exact .pure fun _ wrong => by rw [same] at wrong; cases wrong
      · exact .raise _
  | type => exact .pure fun _ => Value.noConfusion
  | length => exact Gives.any.bind fun _ _ _ => .pure fun _ => Value.noConfusion
  | copy => exact gives_copySequence _ _
  | insert | remove | insertSlice =>
      exact Gives.any.bind fun _ _ _ => Gives.any.bind fun _ _ _ => .pure fun _ => Value.noConfusion
  | removeSlice =>
      exact Gives.any.bind fun _ _ _ => Gives.any.bind fun _ _ _ => Gives.any.bind fun _ _ _ =>
        .pure fun _ => Value.noConfusion
  | slice => exact Gives.any.bind fun _ _ _ => Gives.any.bind fun _ _ _ => gives_copySlice _ _ _ _
  | sameReference =>
      dsimp only
      split
      · exact .pure fun _ => Value.noConfusion
      · exact .pure fun _ => Value.noConfusion
      · exact .raise _

theorem gives_applyFile (function : FileFunction) (arguments : List Value) (start : Address) :
    Gives (applyFile inner function arguments start) machine fun value _ => value.IsPlain := by
  refine Gives.any.bind fun name _ _ => .get_bind ?_
  split
  · exact .pure fun _ => Value.noConfusion
  · exact Gives.any.bind fun _ _ _ => .pure fun _ => Value.noConfusion
  · exact .raise _
  · exact .get_bind (.pure fun _ => Value.noConfusion)
  · exact Gives.any.bind fun _ _ _ => .pure fun _ => Value.noConfusion
  · exact Gives.any.bind fun _ _ _ => Gives.any.bind fun _ _ _ => .pure fun _ => Value.noConfusion
  · refine Gives.any.bind fun _ _ _ => Gives.any.bind fun _ _ _ => .get_bind ?_
    split
    · exact .throw _
    · exact Gives.any.bind fun _ _ _ => .pure fun _ => Value.noConfusion
  · exact Gives.any.bind fun _ _ _ => Gives.any.bind fun _ _ _ => .pure fun _ => Value.noConfusion
  · exact Gives.any.bind fun _ _ _ => .pure fun _ => Value.noConfusion

variable [Console κ]

theorem gives_showMenu (title options : Value) (start : Address) :
    Gives (showMenu title options start) machine fun value _ => value.IsPlain := by
  unfold showMenu
  dsimp only
  split
  · refine Gives.any.bind fun _ _ _ => ?_
    split
    · refine Gives.any.bind fun _ _ _ => ?_
      split
      · exact .raise _
      · refine Gives.any.bind fun _ _ _ => Gives.any.bind fun _ _ _ => ?_
        split
        · exact Gives.any.bind fun _ _ _ => .pure fun _ => Value.noConfusion
        · exact .throw _
        · exact .throw _
    · exact .raise _
  · exact .raise _

theorem gives_applyConsole (function : ConsoleFunction) (arguments : List Value) (start : Address) :
    Gives (applyConsole function arguments start) machine fun value _ => value.IsPlain := by
  cases function with
  | print =>
      refine Gives.any.bind fun _ _ _ => Gives.any.bind fun _ _ _ => ?_
      split
      · exact Gives.any.bind fun _ _ _ => .pure fun _ => Value.noConfusion
      · exact .throw _
  | askText =>
      refine Gives.any.bind fun _ _ _ => ?_
      split
      · exact Gives.any.bind fun _ _ _ => gives_stringOf _ _
      · exact .throw _
  | askNumber =>
      refine Gives.any.bind fun _ _ _ => ?_
      split
      · exact Gives.any.bind fun _ _ _ => .pure fun _ => Value.noConfusion
      · exact .throw _
  | menu => exact gives_showMenu _ _ _

theorem gives_applyBuiltin (builtin : Builtin) (placeless : Placeless expression) :
    Gives (applyBuiltin inner builtin expression isStatement) machine fun result _ => Placeless result := by
  have results : ∀ {evaluation : Eval κ Value} {evaluated : Machine κ} {code : Address},
      Gives evaluation evaluated (fun value _ => value.IsPlain) →
      Gives (do return { expression with code, value := ← evaluation }) evaluated fun result _ => Placeless result :=
    fun gives => gives.bind fun _ _ plain => .pure ⟨placeless.destination, plain⟩
  refine .get_bind (Gives.any.bind fun _ _ _ => Gives.any.bind fun arguments _ _ => ?_)
  dsimp only
  split
  · split
    · exact gives_control _ _ ⟨placeless.destination, placeless.value⟩
    · exact .raise _
  · exact results (gives_applyMath _ _ _)
  · exact results (gives_applyValue _ _ _)
  · exact results (gives_applyConsole _ _ _)
  · exact results (gives_applyFile _ _ _)

omit [Console κ] in
/-- A sign yields a number that is nowhere. -/
theorem gives_applyUnary {operator : UnaryOperator} (sign : ∀ direction, operator ≠ .step direction)
    (placeless : Placeless expression) :
    Gives (applyUnary inner operator expression) machine fun result _ => Placeless result := by
  refine Gives.any.bind fun operand _ _ => ?_
  dsimp only
  split
  · exact .raise _
  · cases operator with
    | negate | not | complement => exact .pure ⟨placeless.destination, fun _ => Value.noConfusion⟩
    | step direction => exact absurd rfl (sign direction)
  · exact .raise _

omit [Console κ] in
theorem gives_combine (operator : Combination) (left right : Value) (start : Address) :
    Gives (combine operator left right start) machine fun value _ => value.IsPlain := by
  unfold combine
  split
  · exact .raise _
  · split
    · exact .pure fun _ => Value.noConfusion
    · exact .raise _
  · split
    · exact gives_concatenate _ _ _
    · exact .raise _
  · exact .raise _

omit [Console κ] in
theorem gives_compare (operator : Comparison) (left right : Value) (start : Address) :
    Gives (compare operator left right start) machine fun value _ => value.IsPlain := by
  unfold compare
  dsimp only
  split
  · exact .raise _
  · exact .pure fun _ => Value.noConfusion
  · split
    · exact Gives.any.bind fun _ _ _ => Gives.any.bind fun _ _ _ => .pure fun _ => Value.noConfusion
    · exact Gives.any.bind fun _ _ _ => Gives.any.bind fun _ _ _ => .pure fun _ => Value.noConfusion
    · exact .raise _
  · exact .raise _

end Machine

end PocketScript
