import PocketScript.Proofs.Heeding.Erasing
import PocketScript.Proofs.Witness.Evaluations

/-! # Notice taken changes nothing

Whatever is evaluated, it is evaluated in the same way with notice taken of what keeps
destinations and without it, by induction on the levels that are left. What is noted of
an expression only decides what a refused access is put down to.
-/

namespace PocketScript

variable {κ α β : Type}

open Eval (Erases)

namespace Destination

variable {hold hold' : Hold}

theorem erases_read (excuses : ∀ error, (hold.cause error).Excuses (hold'.cause error)) (destination : Destination)
    (address : Address) : Erases (κ := κ) id (destination.read hold address) (destination.read hold' address) := by
  match destination with
  | .variable place => exact .onMemory _ _
  | .element list index => exact .onMemoryAs excuses _ _
  | .character string index => exact .bind_same (.onMemoryAs excuses _ _) fun _ => .pure rfl

theorem erases_write (excuses : ∀ error, (hold.cause error).Excuses (hold'.cause error)) (destination : Destination)
    (value : Value) (address : Address) :
    Erases (κ := κ) id (destination.write hold value address) (destination.write hold' value address) := by
  match destination with
  | .variable place => exact .onMemory _ _
  | .element list index => exact .onMemoryAs excuses _ _
  | .character string index =>
      cases value with
      | number number => exact .onMemoryAs excuses _ _
      | missing | string _ | list _ | function _ => exact .raise _ _

end Destination

namespace Machine

open Expression

variable {heeded : Inner (Heeded κ)} {plain : Inner κ}

@[grind ←]
theorem erases_readName (address : Address) : Erases (κ := κ) id (readName address) (readName address) := by
  unfold readName
  grind

theorem erases_readVariable (expression : Expression) :
    Erases (κ := κ) Expression.unheeded (readVariable expression) (readVariable expression.unheeded) := by
  unfold readVariable
  grind

theorem erases_readNumberLiteral (expression : Expression) :
    Erases (κ := κ) Expression.unheeded (readNumberLiteral expression) (readNumberLiteral expression.unheeded) := by
  unfold readNumberLiteral
  grind

theorem erases_readCharacterLiteral (expression : Expression) :
    Erases (κ := κ) Expression.unheeded (readCharacterLiteral expression)
      (readCharacterLiteral expression.unheeded) := by
  unfold readCharacterLiteral
  grind

theorem erases_readStringLiteral (expression : Expression) :
    Erases (κ := κ) Expression.unheeded (readStringLiteral expression) (readStringLiteral expression.unheeded) := by
  unfold readStringLiteral
  grind

theorem erases_combine (operator : Combination) (left right : Value) (start : Address) :
    Erases (κ := κ) id (combine operator left right start) (combine operator left right start) := by
  unfold combine
  grind

theorem erases_compare (operator : Comparison) (left right : Value) (start : Address) :
    Erases (κ := κ) id (compare operator left right start) (compare operator left right start) := by
  unfold compare
  split <;> grind

theorem erases_assign (expression : Expression) (value : Value) :
    Erases (κ := κ) Expression.unheeded (assign expression value) (assign expression.unheeded value) := by
  unfold assign
  simp only [start_unheeded, destination?_unheeded, hold_unheeded]
  split
  · exact .bind_same (Destination.erases_write (.cause _) _ _ _) fun _ => .pure rfl
  · refine .bind_same (erases_readName _) fun name => .bind_same (.onMemory _ _) fun place => ?_
    exact .bind_same (Destination.erases_write (.cause _) _ _ _) fun _ => .pure rfl

theorem erases_update (operator : Combination) (expression : Expression) (right : Value) :
    Erases (κ := κ) Expression.unheeded (update operator expression right)
      (update operator expression.unheeded right) := by
  unfold update
  simp only [start_unheeded, destination?_unheeded, hold_unheeded]
  split
  · exact .raise _ _
  · refine .bind_same (Destination.erases_read (.cause _) _ _) fun current => ?_
    split
    · split
      · exact .bind_same (.viewMemory _ _) fun _ => .bind_same (.onMemory _ _) fun _ => .pure rfl
      · exact .raise _ _
    · split
      · exact .bind_same (Destination.erases_write (.cause _) _ _ _) fun _ => .pure rfl
      · exact .raise _ _
    · exact .raise _ _

theorem erases_applyStep (direction : Step) (expression : Expression) :
    Erases (κ := κ) Expression.unheeded (applyStep direction expression) (applyStep direction expression.unheeded) := by
  unfold applyStep
  dsimp only [value_unheeded, destination?_unheeded, hold_unheeded]
  split
  · split
    · exact .raise _ _
    · exact .bind_same (Destination.erases_write (.cause _) _ _ _) fun _ => .pure rfl
  · exact .raise _ _

theorem erases_select (sequence : Value) (index : Float32) (start : Address) :
    Erases (κ := κ) id (select sequence index start) (select sequence index start) := by
  unfold select
  grind

/-- What can be evaluated one level further in is evaluated in the same way. -/
structure Inner.Erases (heeded : Inner (Heeded κ)) (plain : Inner κ) : Prop where
  expression : ∀ start ceiling isStatement,
    Eval.Erases Expression.unheeded (heeded.expression start ceiling isStatement)
      (plain.expression start ceiling isStatement)
  code : ∀ address, Eval.Erases id (heeded.code address) (plain.code address)
  body? : Option.Rel (fun body body' => ∀ address, Eval.Erases id (body address) (body' address))
    heeded.body? plain.body?

@[grind ←]
theorem Inner.Erases.argument (erases : Inner.Erases heeded plain) (start : Address) :
    Eval.Erases Expression.unheeded (heeded.argument start) (plain.argument start) :=
  erases.expression start _ false

theorem erases_readElements (erases : Inner.Erases heeded plain) (start : Address) (list : Value) (steps : Nat)
    (address : Address) (index : Nat) : Erases id (readElements heeded start list steps address index)
      (readElements plain start list steps address index) := by
  induction steps generalizing address index with
  | zero => exact .throw _
  | succ steps ih =>
      unfold readElements
      grind

theorem erases_readListLiteral (erases : Inner.Erases heeded plain) (expression : Expression) :
    Erases Expression.unheeded (readListLiteral heeded expression) (readListLiteral plain expression.unheeded) := by
  have elements := erases_readElements erases
  unfold readListLiteral
  grind

theorem erases_applyBinary (erases : Inner.Erases heeded plain) (operator : BinaryOperator) (left : Expression) :
    Erases Expression.unheeded (applyBinary heeded operator left) (applyBinary plain operator left.unheeded) := by
  unfold applyBinary
  refine .bind_same (.track _) fun _ => .bind_expression (erases.expression _ _ _) fun right => ?_
  refine .bind_same (.track _) fun _ => .branch (.raise _ _) ?_
  let left' : Expression := { left with code := right.code, hold := left.hold.outlast }
  cases operator with
  | assign => exact erases_assign left' right.value
  | update operator => exact erases_update operator left' right.value
  | combine operator => exact .bind_same (erases_combine _ _ _ _) fun _ => .pure rfl
  | compare operator => exact .bind_same (erases_compare _ _ _ _) fun _ => .pure rfl

theorem erases_applyUnary (erases : Inner.Erases heeded plain) (operator : UnaryOperator) (expression : Expression) :
    Erases Expression.unheeded (applyUnary heeded operator expression)
      (applyUnary plain operator expression.unheeded) := by
  unfold applyUnary
  refine .bind_expression (erases.expression _ _ _) fun operand => ?_
  dsimp only [value_unheeded, destination?_unheeded, hold_unheeded]
  split
  · exact .raise _ _
  · split
    · exact .pure rfl
    · exact .pure rfl
    · exact .pure rfl
    · split
      · exact .raise _ _
      · refine .bind_same (Destination.erases_write (.cause _) _ _ _) fun _ => ?_
        exact .bind_same (Destination.erases_read (.cause _) _ _) fun _ => .pure rfl
  · exact .raise _ _

theorem erases_readParenthesis (erases : Inner.Erases heeded plain) (expression : Expression) :
    Erases Expression.unheeded (readParenthesis heeded expression) (readParenthesis plain expression.unheeded) := by
  unfold readParenthesis
  refine .bind_expression (erases.argument _) fun inside => ?_
  exact .bind_same (.byteAt _) fun byte => .branch (.raise _ _) (.pure rfl)

theorem erases_applyIndex (erases : Inner.Erases heeded plain) (expression : Expression) :
    Erases Expression.unheeded (applyIndex heeded expression) (applyIndex plain expression.unheeded) := by
  unfold applyIndex
  refine .branch (.raise _ _) (.bind_expression (erases.argument _) fun index => .branch (.raise _ _) ?_)
  refine .bind_same (.byteAt _) fun byte => .branch (.raise _ _) ?_
  dsimp only [value_unheeded]
  split
  · refine .bind_same (erases_select _ _ _) fun destination => .bind_same (.track _) fun _ => ?_
    exact .bind_same (Destination.erases_read (fun _ => .same _) _ _) fun _ => .pure rfl
  · exact .raise _ _

theorem erases_readArguments (erases : Inner.Erases heeded plain) (start : Address) (array count : Nat)
    (address : Address) : Erases id (readArguments heeded start array count address)
      (readArguments plain start array count address) := by
  induction count generalizing address with
  | zero => exact .pure rfl
  | succ count ih =>
      unfold readArguments
      grind

theorem erases_bindParameters (start : Address) (arguments : List Value) (address : Address) :
    Erases (κ := κ) id (bindParameters start arguments address) (bindParameters start arguments address) := by
  induction arguments generalizing address with
  | nil => exact .pure rfl
  | cons argument rest ih =>
      unfold bindParameters
      grind

theorem erases_runBody {body : Address → Eval (Heeded κ) Value} {body' : Address → Eval κ Value}
    (erases : ∀ address, Erases id (body address) (body' address)) (header : Address) (arguments : List Value)
    (start : Address) : Erases id (runBody body header arguments start) (runBody body' header arguments start) := by
  unfold runBody
  refine .bind_same (.onMemory _ _) fun scope => .always ?_ (fun _ _ => rfl) fun _ => rfl
  refine .bind_same (.onMemory _ _) fun _ => .bind_same (.modifyRoots _) fun _ => .get_bind fun machine _ => ?_
  exact .bind_same (erases_bindParameters _ _ _) fun code => erases code

theorem erases_applyCall (erases : Inner.Erases heeded plain) (expression : Expression) :
    Erases Expression.unheeded (applyCall heeded expression) (applyCall plain expression.unheeded) := by
  unfold applyCall
  dsimp only [value_unheeded]
  split
  · exact .raise _ _
  · next header _ =>
    refine .get_bind fun machine _ => .get_bind fun machine' _ => .bind_same .trackValues fun array => ?_
    refine .bind_same (erases_readArguments erases _ _ _ _) fun arguments => ?_
    have bodies := erases.body?
    revert bodies
    generalize heeded.body? = body?, plain.body? = body?'
    intro bodies
    cases bodies with
    | none => exact .raise _ _
    | some bodies =>
        have body := Erases.nested (erases_runBody bodies header arguments.1 expression.start)
        refine .bind_same (.always body (fun _ _ => rfl) fun _ => rfl) fun value => ?_
        exact .bind_same (.track _) fun _ => .pure rfl
  · exact .raise _ _

theorem erases_setAction (action : BranchAction) : Erases id
    (modify fun machine : Machine (Heeded κ) =>
      { machine with memory := { machine.memory with stack := machine.memory.stack.setAction action } })
    (modify fun machine : Machine κ =>
      { machine with memory := { machine.memory with stack := machine.memory.stack.setAction action } }) :=
  .step (fun machine => ((),
    { machine with memory := { machine.memory with stack := machine.memory.stack.setAction action } }))
    (fun _ => rfl) (fun _ _ => rfl) fun _ => rfl

theorem erases_tryArm (erases : Inner.Erases heeded plain) (expression : Expression) :
    Erases Expression.unheeded (tryArm heeded expression) (tryArm plain expression.unheeded) := by
  have condition : Erases Expression.unheeded _ _ := erases.argument (expression.start + 1)
  unfold tryArm
  refine .bind_same (erases_setAction .run) fun _ => ?_
  refine .bind_expression (.always condition (fun _ _ => rfl) fun _ => rfl) fun condition => ?_
  dsimp only [value_unheeded]
  split
  · exact .raise _ _
  · split
    · exact .bind_same (erases_setAction .run) fun _ => .pure rfl
    · exact .pure rfl
  · exact .raise _ _

theorem erases_skip (erases : Inner.Erases heeded plain) (expression : Expression) :
    Erases Expression.unheeded (skip heeded expression) (skip plain expression.unheeded) := by
  let toLineEnd (κ : Type) (expression : Expression) : Eval κ Expression := do
    return { expression with code := (← get).store.lineEnd expression.code }
  have ends (expression : Expression) :
      Erases Expression.unheeded (toLineEnd (Heeded κ) expression) (toLineEnd κ expression.unheeded) :=
    .get_bind fun _ _ => .pure rfl
  have same : Erases Expression.unheeded _ _ := .bind_expression (.pure (rfl : expression.unheeded = _)) ends
  unfold skip
  refine .get_bind fun machine _ => .bind_same (.byteAt _) fun byte => ?_
  dsimp only [start_unheeded]
  split
  · exact .bind_same (.onMemory _ _) fun _ => same
  · exact .bind_same (.onMemory _ _) fun _ => same
  · exact .bind_same (.onMemory _ _) fun _ => same
  · exact .branch (.bind_expression (erases_tryArm erases _) ends) same
  · exact .branch (.bind_same (.onStack _) fun _ => same) same
  · exact .bind_same (.onStack _) fun popped => .branch same (.bind_expression (.raise _ _) ends)
  · exact same

theorem erases_openBlock (start : Address) (condition : Value) (action : Bool → BranchAction) (address : Address) :
    Erases (κ := κ) id (openBlock start condition action address) (openBlock start condition action address) := by
  unfold openBlock
  grind

theorem erases_closeBlock (expression : Expression) : Erases (κ := κ) Expression.unheeded (closeBlock expression)
      (closeBlock expression.unheeded) := by
  unfold closeBlock
  grind

theorem erases_define (expression : Expression) : Erases (κ := κ) Expression.unheeded (define expression)
      (define expression.unheeded) := by
  have binds (place : VariableRef) : Erases (κ := κ) Expression.unheeded _ _ :=
    .bind_same (.onMemory expression.start (Memory.setVariable place (.function expression.start))) fun _ =>
      .bind_same (.onMemory expression.start (Memory.pushBranch .ignoreHard 0)) fun _ =>
        .pure (rfl : expression.unheeded = _)
  unfold define
  refine .bind_same (erases_readName _) fun name => .get_bind fun machine _ => ?_
  rw [machine.memory_unheeded]
  dsimp only
  split
  · exact .bind_same (.pure rfl) binds
  · exact .bind_same (.onMemory _ _) binds

theorem erases_control (function : Control) (argument : Value) (expression : Expression) :
    Erases (κ := κ) Expression.unheeded (control function argument expression)
      (control function argument expression.unheeded) := by
  unfold control
  cases function with
  | leave | answer | quit => exact .throw _
  | whenTrue | loop => exact .bind_same (erases_openBlock _ _ _ _) fun _ => .pure rfl
  | otherwiseWhen | otherwise => exact .bind_same (.onStack _) fun _ => .pure rfl
  | leaveLoop => exact .bind_same (.onStack _) fun left => .branch (.pure rfl) (.raise _ _)
  | nextRound =>
      refine .bind_same (.onStack _) fun address? => ?_
      cases address? with
      | none => exact .raise _ _
      | some address => exact .pure rfl
  | close => exact erases_closeBlock _
  | define => exact erases_define _

@[grind ←]
theorem erases_numberOf (value : Value) (start : Address) :
    Erases (κ := κ) id (numberOf value start) (numberOf value start) := by
  unfold numberOf
  grind

@[grind ←]
theorem erases_indexOf (value : Value) (start : Address) :
    Erases (κ := κ) id (indexOf value start) (indexOf value start) := by
  unfold indexOf
  grind

@[grind ←]
theorem erases_bytesOf (value : Value) (start : Address) :
    Erases (κ := κ) id (bytesOf value start) (bytesOf value start) := by
  unfold bytesOf
  grind

@[grind ←]
theorem erases_draw : Erases (κ := κ) id draw draw :=
  .step (fun machine => (machine.draws.draw.1, { machine with draws := machine.draws.draw.2 })) (fun _ => rfl)
    (fun _ _ => rfl) fun _ => rfl

@[grind ←]
theorem erases_randomBetween (lowest highest : Int32) (start : Address) :
    Erases (κ := κ) id (randomBetween lowest highest start) (randomBetween lowest highest start) := by
  unfold randomBetween
  grind

theorem erases_applyMath (function : MathFunction) (arguments : List Value) (start : Address) :
    Erases (κ := κ) id (applyMath function arguments start) (applyMath function arguments start) := by
  unfold applyMath
  cases function <;> grind

@[grind ←]
theorem erases_stringOf (text : String) (start : Address) :
    Erases (κ := κ) id (stringOf text start) (stringOf text start) := by
  unfold stringOf
  grind

theorem erases_applyValue (function : ValueFunction) (arguments : List Value) (start : Address) :
    Erases (κ := κ) id (applyValue function arguments start) (applyValue function arguments start) := by
  unfold applyValue
  cases function <;> grind

theorem erases_shownText (value : Value) (start : Address) :
    Erases (κ := κ) id (shownText value start) (shownText value start) := by
  unfold shownText
  grind

theorem erases_mapM {each : α → Eval (Heeded κ) β} {each' : α → Eval κ β}
    (erases : ∀ item, Erases id (each item) (each' item)) (items : List α) :
    Erases id (items.mapM each) (items.mapM each') := by
  induction items with
  | nil => exact .pure rfl
  | cons item rest ih =>
      rw [List.mapM_cons, List.mapM_cons]
      exact .bind_same (erases item) fun _ => .bind_same ih fun _ => .pure rfl

theorem erases_applyFile (erases : Inner.Erases heeded plain) (function : FileFunction)
    (arguments : List Value) (start : Address) :
    Erases id (applyFile heeded function arguments start) (applyFile plain function arguments start) := by
  unfold applyFile
  refine .bind_same (erases_bytesOf _ _) fun name => .get_bind fun machine _ => ?_
  rw [machine.store_unheeded]
  split
  · exact .pure rfl
  · exact .bind_same (.onStore _ _) fun _ => .pure rfl
  · exact .raise _ _
  · exact .get_bind fun _ _ => .pure rfl
  · exact .bind_same (.onStore _ _) fun _ => .pure rfl
  · exact .bind_same (erases_bytesOf _ _) fun _ => .bind_same (.onStore _ _) fun _ => .pure rfl
  · refine .bind_same (erases_indexOf _ _) fun index => .bind_same (erases_indexOf _ _) fun amount => ?_
    refine .get_bind fun machine' _ => ?_
    rw [machine'.store_unheeded]
    split
    · exact .fail (.same _) _
    · exact .bind_same (.onMemory _ _) fun _ => .pure rfl
  · exact .bind_same (erases_bytesOf _ _) fun _ => .bind_same (.onStore _ _) fun _ => .pure rfl
  · exact .bind_same (erases.code _) fun _ => .pure rfl

theorem erases_readFunctionArguments (erases : Inner.Erases heeded plain) (start : Address) (array : Nat)
    (isDefinition : Bool) (count : Nat) (address : Address) :
    Erases id (readFunctionArguments heeded start array isDefinition count address)
      (readFunctionArguments plain start array isDefinition count address) := by
  induction count generalizing address with
  | zero => exact .pure rfl
  | succ count ih =>
      unfold readFunctionArguments
      grind

theorem erases_readRest (erases : Inner.Erases heeded plain) (ceiling steps : Nat) (expression : Expression) :
    Erases Expression.unheeded (readRest heeded ceiling steps expression)
      (readRest plain ceiling steps expression.unheeded) := by
  induction steps generalizing expression with
  | zero => exact .throw _
  | succ steps ih =>
      unfold readRest
      refine .bind_same (.track _) fun _ => .bind_same (.byteAt _) fun byte => ?_
      split
      · exact .bind_expression (erases_applyStep _ _) ih
      refine .branch (.bind_expression (erases_applyIndex erases _) ih) ?_
      refine .branch (.bind_expression (erases_applyCall erases _) ih) ?_
      split
      · exact .branch (.bind_expression (erases_applyBinary erases _ _) ih) (.pure rfl)
      · exact .pure rfl

theorem erases_collect : Erases (κ := κ) id collect collect :=
  .step (fun machine => ((), { machine with memory := machine.memory.collect.2, recentStatements := 0 }))
    (fun _ => rfl) (fun _ _ => rfl) fun _ => rfl

/-- An answer ends the code in the same way. -/
theorem erases_orAnswer {statement : Eval (Heeded κ) Expression} {statement' : Eval κ Expression}
    {next : Expression → Eval (Heeded κ) Value} {next' : Expression → Eval κ Value}
    (one : Erases Expression.unheeded statement statement')
    (two : ∀ expression, Erases id (next expression) (next' expression.unheeded)) :
    Erases id (orAnswer statement next) (orAnswer statement' next') := by
  intro machine fault? faults
  have first := one machine fault? faults
  unfold orAnswer
  revert first
  generalize statement machine = ended, statement' (machine.unheeded fault?) = ended'
  intro first
  cases first with
  | ok expression unheeds =>
      obtain ⟨faults⟩ := unheeds
      exact two expression _ _ faults
  | error interrupt unheeds =>
      cases interrupt with
      | answer value => exact .ok value unheeds
      | quit | unfinished => exact .error _ unheeds

variable [Console κ]

theorem erases_showMenu (title options : Value) (start : Address) :
    Erases (κ := κ) id (showMenu title options start) (showMenu title options start) := by
  have labels (values : List Value) :
      Erases (κ := κ) id (values.mapM (shownText · start)) (values.mapM (shownText · start)) :=
    erases_mapM (fun value => erases_shownText value start) values
  unfold showMenu
  dsimp only
  split
  · refine .bind_same (erases_shownText _ _) fun title => ?_
    split
    · refine .bind_same (.viewMemory _ _) fun values => .branch (.raise _ _) ?_
      refine .bind_same (labels values) fun labels => .bind_same (.ask (Console.choose · title labels)) fun choice => ?_
      cases choice with
      | selected index => exact .bind_same .resume fun _ => .pure rfl
      | cancelled | failed => exact .throw _
    · exact .raise _ _
  · exact .raise _ _

theorem erases_applyConsole (function : ConsoleFunction) (arguments : List Value) (start : Address) :
    Erases (κ := κ) id (applyConsole function arguments start) (applyConsole function arguments start) := by
  unfold applyConsole
  cases function with
  | print =>
      refine .bind_same (erases_shownText _ _) fun text => .bind_same (.ask (Console.print · text)) fun goesOn => ?_
      exact .branch (.bind_same .resume fun _ => .pure rfl) (.throw _)
  | askText =>
      refine .bind_same (.ask (Console.askText · askedTextLimit)) fun answer => ?_
      cases answer with
      | none => exact .throw _
      | some text => exact .bind_same .resume fun _ => erases_stringOf _ _
  | askNumber =>
      refine .bind_same (.ask (Console.askNumber · askedNumberLimit)) fun answer => ?_
      cases answer with
      | none => exact .throw _
      | some number => exact .bind_same .resume fun _ => .pure rfl
  | menu => exact erases_showMenu _ _ _

theorem erases_applyBuiltin (erases : Inner.Erases heeded plain) (builtin : Builtin) (expression : Expression)
    (isStatement : Bool) : Erases Expression.unheeded (applyBuiltin heeded builtin expression isStatement)
      (applyBuiltin plain builtin expression.unheeded isStatement) := by
  unfold applyBuiltin
  refine .get_bind fun machine _ => .bind_same .trackValues fun array => ?_
  refine .bind_same (erases_readFunctionArguments erases _ _ _ _ _) fun (arguments, code) => ?_
  cases builtin with
  | control function => exact .branch (erases_control _ _ { expression with code }) (.raise _ _)
  | math function => exact .bind_same (erases_applyMath _ _ _) fun _ => .pure rfl
  | value function => exact .bind_same (erases_applyValue _ _ _) fun _ => .pure rfl
  | console function => exact .bind_same (erases_applyConsole _ _ _) fun _ => .pure rfl
  | file function => exact .bind_same (erases_applyFile erases _ _ _) fun _ => .pure rfl

theorem erases_readPrimary (erases : Inner.Erases heeded plain) (expression : Expression) (isStatement : Bool) :
    Erases Expression.unheeded (readPrimary heeded expression isStatement)
      (readPrimary plain expression.unheeded isStatement) := by
  unfold readPrimary
  refine .bind_same (.byteAt _) fun byte => .branch (erases_readNumberLiteral _) (.branch (erases_readVariable _) ?_)
  refine .branch (erases_readCharacterLiteral _) (.branch (erases_readStringLiteral _) ?_)
  refine .branch (erases_readListLiteral erases _) (.branch (erases_readParenthesis erases _) ?_)
  split
  · exact erases_applyBuiltin erases _ _ _
  · exact erases_applyUnary erases _ _
  · exact .raise _ _

theorem erases_frame (erases : Inner.Erases heeded plain) (start : Address) (ceiling : Nat) (isStatement : Bool) :
    Erases Expression.unheeded (frame heeded start ceiling isStatement) (frame plain start ceiling isStatement) := by
  unfold frame
  refine .get_bind fun machine _ => .branch (erases_skip erases (.starting start)) ?_
  exact .bind_expression (erases_readPrimary erases (.starting start) isStatement) (erases_readRest erases _ _)

theorem erases_betweenStatements : Erases (κ := κ) id betweenStatements betweenStatements := by
  have counts : Erases id
      (modify fun machine : Machine (Heeded κ) => { machine with recentStatements := machine.recentStatements + 1 })
      (modify fun machine : Machine κ => { machine with recentStatements := machine.recentStatements + 1 }) :=
    .step (fun machine => ((), { machine with recentStatements := machine.recentStatements + 1 })) (fun _ => rfl)
      (fun _ _ => rfl) fun _ => rfl
  have escapes := Erases.ask (κ := κ) Console.escapes
  unfold betweenStatements
  refine .bind_same counts fun _ => .get_bind fun machine _ => ?_
  refine .branch (.bind_same erases_collect fun _ => ?_) ?_
  all_goals exact .bind_same escapes fun wants => .branch (.throw _) (.pure rfl)

theorem erases_runCode {statement : Address → Eval (Heeded κ) Expression} {statement' : Address → Eval κ Expression}
    (erases : ∀ address, Erases Expression.unheeded (statement address) (statement' address)) (steps : Nat)
    (address : Address) : Erases id (runCode statement steps address) (runCode statement' steps address) := by
  induction steps generalizing address with
  | zero => exact .throw _
  | succ steps ih =>
      unfold runCode
      refine .bind_same (.byteAt _) fun byte => .branch (ih _) (.branch (.pure rfl) ?_)
      exact erases_orAnswer (erases address) fun expression => .bind_same erases_betweenStatements fun _ => ih _

theorem erases_innerOf {steps levels : Nat}
    (erases : ∀ lower ≤ levels, ∀ start ceiling isStatement,
      Erases (κ := κ) Expression.unheeded (evaluate steps lower start ceiling isStatement)
        (evaluate steps lower start ceiling isStatement)) :
    Inner.Erases (κ := κ) (innerOf steps levels) (innerOf steps levels) := by
  have here := erases levels (Nat.le_refl _)
  refine ⟨here, erases_runCode (fun _ => here _ _ _) _, ?_⟩
  cases levels with
  | zero => exact .none
  | succ deeper =>
      have deeper_le := Nat.le_succ deeper
      exact .some (erases_runCode (fun _ => erases deeper deeper_le _ _ _) _)

theorem erases_evaluate (steps levels : Nat) (start : Address) (ceiling : Nat) (isStatement : Bool) :
    Erases (κ := κ) Expression.unheeded (evaluate steps levels start ceiling isStatement)
      (evaluate steps levels start ceiling isStatement) := by
  induction levels using Nat.strongRecOn generalizing start ceiling isStatement with
  | ind levels ih =>
      cases levels with
      | zero => exact .raise _ _
      | succ levels =>
          rw [evaluate_deeper, evaluate_deeper]
          have inside := erases_innerOf fun lower fewer => ih lower (Nat.lt_succ_of_le fewer)
          exact .nested (.releasing (erases_frame inside start ceiling isStatement))

end Machine

end PocketScript
