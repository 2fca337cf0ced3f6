import PocketScript.Proofs.Machine.Evaluations
import PocketScript.Proofs.Memory.Aging

/-! # Allocations are only added to

Whatever is evaluated, on whatever machine: allocations that are spent stay
spent, however evaluation ends.
-/

namespace PocketScript

variable {κ α β : Type}

/-- Allocations that are spent stay spent. -/
def MemoryM.StaysSpent (operation : MemoryM α) : Prop :=
  MemoryM.Keeps (fun memory => memory.heap.Spent) operation

namespace Memory

open MemoryM

@[grind ←]
theorem staysSpent_look (view : Memory → Except MemoryError α) : StaysSpent (look view) :=
  Keeps.look view

theorem staysSpent_onStack (operation : ScopeStack → (ceiling : Nat) → Except MemoryError (α × ScopeStack)) :
    StaysSpent (onStack operation) :=
  fun _ spent => .onStack (fun _ _ _ => spent) fun _ _ => spent

@[grind ←]
theorem staysSpent_pushScope : StaysSpent pushScope :=
  staysSpent_onStack _

@[grind ←]
theorem staysSpent_pushBranch (action : BranchAction) (address : Address) : StaysSpent (pushBranch action address) :=
  staysSpent_onStack _

@[grind ←]
theorem staysSpent_createVariable (name : String) (value : Value) : StaysSpent (createVariable name value) :=
  staysSpent_onStack _

@[grind ←]
theorem staysSpent_setVariable (place : VariableRef) (value : Value) : StaysSpent (setVariable place value) := by
  intro memory spent
  unfold Ends setVariable
  cases memory.stack.variableAt? place with
  | some _ => exact spent
  | none => exact spent

@[grind ←]
theorem staysSpent_createString (bytes : List UInt8) : StaysSpent (createString bytes) :=
  stable_spent.createSequence _ _

@[grind ←]
theorem staysSpent_createList (values : List Value) : StaysSpent (createList values) :=
  stable_spent.createSequence _ _

@[grind ←]
theorem staysSpent_insertElement (sequence : Value) (index : Int) (element : Value) :
    StaysSpent (insertElement sequence index element) :=
  stable_spent.insertElement sequence index element

@[grind ←]
theorem staysSpent_insertSequence (sequence : Value) (index : Int) (other : Value) :
    StaysSpent (insertSequence sequence index other) :=
  stable_spent.insertSequence sequence index other

@[grind ←]
theorem staysSpent_removeSlice (sequence : Value) (start finish : Int) :
    StaysSpent (removeSlice sequence start finish) :=
  stable_spent.removeSlice sequence start finish

@[grind ←]
theorem staysSpent_setByte (cell : Handle) (index : Nat) (byte : UInt8) : StaysSpent (setByte cell index byte) :=
  stable_spent.setByte cell index byte

@[grind ←]
theorem staysSpent_setElement (cell : Handle) (index : Nat) (value : Value) :
    StaysSpent (setElement cell index value) :=
  stable_spent.setElement cell index value

@[grind ←]
theorem staysSpent_copySlice (sequence : Value) (start finish : Int) : StaysSpent (copySlice sequence start finish) :=
  stable_spent.copySlice sequence start finish

@[grind ←]
theorem staysSpent_copySequence (sequence : Value) : StaysSpent (copySequence sequence) :=
  stable_spent.copySequence sequence

@[grind ←]
theorem staysSpent_concatenate (left right : Handle) : StaysSpent (concatenate left right) :=
  stable_spent.concatenate left right

end Memory

namespace Eval

variable {evaluation : Eval κ α} {next : α → Eval κ β}

/-- Allocations that are spent stay spent. -/
def StaysSpent (evaluation : Eval κ α) : Prop :=
  ∀ machine, machine.memory.heap.Spent → (last (evaluation machine)).memory.heap.Spent

namespace StaysSpent

@[grind ←]
theorem bind (first : StaysSpent evaluation) (rest : ∀ result, StaysSpent (next result)) :
    StaysSpent (evaluation >>= next) := by
  intro machine spent
  have first := first machine spent
  simp only [Bind.bind, EStateM.bind]
  cases ran : evaluation machine with
  | ok result after =>
      rw [ran] at first
      exact rest result after first
  | error interrupt after =>
      rw [ran] at first
      exact first

@[grind ←]
theorem pure (result : α) : StaysSpent (Pure.pure result : Eval κ α) :=
  fun _ spent => spent

@[grind ←]
theorem throw (interrupt : Interrupt) : StaysSpent (throw interrupt : Eval κ α) :=
  fun _ spent => spent

@[grind ←]
theorem fail (cause : FaultCause) (address : Address) : StaysSpent (fail cause address : Eval κ α) :=
  fun _ spent => spent

@[grind ←]
theorem raise (kind : FaultKind) (address : Address) : StaysSpent (raise kind address : Eval κ α) :=
  fun _ spent => spent

@[grind ←]
theorem get : StaysSpent (get : Eval κ (Machine κ)) :=
  fun _ spent => spent

@[grind ←]
theorem byteAt (address : Address) : StaysSpent (byteAt address : Eval κ UInt8) :=
  fun _ spent => spent

/-- A change of something else than the heap. -/
theorem modify {change : Machine κ → Machine κ}
    (same : ∀ machine, (change machine).memory.heap = machine.memory.heap) : StaysSpent (modify change) := by
  intro machine spent
  exact (same machine).symm ▸ spent

@[grind ←]
theorem modifyRoots (change : Roots → Roots) : StaysSpent (modifyRoots change : Eval κ Unit) :=
  fun _ spent => spent

@[grind ←]
theorem track (value : Value) : StaysSpent (track value : Eval κ Unit) :=
  fun _ spent => spent

@[grind ←]
theorem trackValues : StaysSpent (trackValues : Eval κ Nat) :=
  fun _ spent => spent

@[grind ←]
theorem onStack (operation : ScopeStack → α × ScopeStack) : StaysSpent (onStack operation : Eval κ α) :=
  fun _ spent => spent

@[grind ←]
theorem ask (request : κ → α × κ) : StaysSpent (ask request) :=
  fun _ spent => spent

@[grind ←]
theorem resume [Console κ] : StaysSpent (resume : Eval κ Unit) :=
  fun _ spent => spent

@[grind ←]
theorem onStore (address : Address) (operation : StoreM α) : StaysSpent (onStore address operation : Eval κ α) := by
  intro machine spent
  unfold Eval.onStore
  cases operation machine.store with
  | ok result store => exact spent
  | error error store => exact spent

@[grind ←]
theorem onMemoryAs (cause : MemoryError → FaultCause) (address : Address) {operation : MemoryM α}
    (stays : MemoryM.StaysSpent operation) : StaysSpent (onMemoryAs cause address operation : Eval κ α) := by
  intro machine spent
  have ends := stays machine.memory spent
  unfold MemoryM.Ends at ends
  unfold Eval.onMemoryAs
  cases ran : operation machine.memory with
  | ok result memory =>
      rw [ran] at ends
      exact ends
  | error error memory =>
      rw [ran] at ends
      exact ends

@[grind ←]
theorem onMemory (address : Address) {operation : MemoryM α} (stays : MemoryM.StaysSpent operation) :
    StaysSpent (onMemory address operation : Eval κ α) :=
  onMemoryAs .memory address stays

@[grind ←]
theorem viewMemory (address : Address) (view : Memory → Except MemoryError α) :
    StaysSpent (viewMemory address view : Eval κ α) :=
  onMemory address (Memory.staysSpent_look view)

/-- A change afterwards of something else than the heap. -/
theorem always {change : Machine κ → Machine κ} (stays : StaysSpent evaluation)
    (same : ∀ machine, (change machine).memory.heap = machine.memory.heap) :
    StaysSpent (always change evaluation) := by
  intro machine spent
  have ends := stays machine spent
  unfold Eval.always
  cases ran : evaluation machine with
  | ok result after =>
      rw [ran] at ends
      exact (same after).symm ▸ ends
  | error interrupt after =>
      rw [ran] at ends
      exact (same after).symm ▸ ends

@[grind ←]
theorem releasing (stays : StaysSpent evaluation) : StaysSpent (releasing evaluation) :=
  get.bind fun _ => stays.always fun _ => rfl

theorem nested (stays : StaysSpent evaluation) : StaysSpent (nested evaluation) :=
  .bind (.modify fun _ => rfl) fun _ => stays.always fun _ => rfl

end StaysSpent

end Eval

open Eval (StaysSpent)

@[grind ←]
theorem Destination.staysSpent_read (destination : Destination) (hold : Hold) (address : Address) :
    StaysSpent (destination.read hold address : Eval κ Value) := by
  unfold read
  grind

@[grind ←]
theorem Destination.staysSpent_write (destination : Destination) (hold : Hold) (value : Value) (address : Address) :
    StaysSpent (destination.write hold value address : Eval κ Unit) := by
  unfold write
  grind

namespace Machine

variable {inner : Inner κ}

@[grind ←]
theorem staysSpent_readName (address : Address) : StaysSpent (readName address : Eval κ (String × Address)) := by
  unfold readName
  grind

@[grind ←]
theorem staysSpent_readVariable (expression : Expression) :
    StaysSpent (readVariable expression : Eval κ Expression) := by
  unfold readVariable
  grind

@[grind ←]
theorem staysSpent_readNumberLiteral (expression : Expression) :
    StaysSpent (readNumberLiteral expression : Eval κ Expression) := by
  unfold readNumberLiteral
  grind

@[grind ←]
theorem staysSpent_readCharacterLiteral (expression : Expression) :
    StaysSpent (readCharacterLiteral expression : Eval κ Expression) := by
  unfold readCharacterLiteral
  grind

@[grind ←]
theorem staysSpent_readStringLiteral (expression : Expression) :
    StaysSpent (readStringLiteral expression : Eval κ Expression) := by
  unfold readStringLiteral
  grind

@[grind ←]
theorem staysSpent_combine (operator : Combination) (left right : Value) (start : Address) :
    StaysSpent (combine operator left right start : Eval κ Value) := by
  unfold combine
  grind

@[grind ←]
theorem staysSpent_compare (operator : Comparison) (left right : Value) (start : Address) :
    StaysSpent (compare operator left right start : Eval κ Value) := by
  unfold compare
  grind

@[grind ←]
theorem staysSpent_assign (expression : Expression) (value : Value) :
    StaysSpent (assign expression value : Eval κ Expression) := by
  unfold assign
  grind

@[grind ←]
theorem staysSpent_update (operator : Combination) (expression : Expression) (right : Value) :
    StaysSpent (update operator expression right : Eval κ Expression) := by
  unfold update
  dsimp only
  split
  · grind
  · refine .bind (by grind) fun current => ?_
    grind

@[grind ←]
theorem staysSpent_applyStep (direction : Step) (expression : Expression) :
    StaysSpent (applyStep direction expression : Eval κ Expression) := by
  unfold applyStep
  grind

@[grind ←]
theorem staysSpent_select (sequence : Value) (index : Float32) (start : Address) :
    StaysSpent (select sequence index start : Eval κ Destination) := by
  unfold select
  grind

/-- What can be evaluated one level further in never takes allocations back. -/
structure Inner.StaysSpent (inner : Inner κ) : Prop where
  expression : ∀ start ceiling isStatement, Eval.StaysSpent (inner.expression start ceiling isStatement)
  code : ∀ address, Eval.StaysSpent (inner.code address)
  body : ∀ body, inner.body? = some body → ∀ address, Eval.StaysSpent (body address)

@[grind ←]
theorem Inner.StaysSpent.argument (stays : Inner.StaysSpent inner) (start : Address) :
    Eval.StaysSpent (inner.argument start) :=
  stays.expression start _ false

theorem staysSpent_readElements (stays : Inner.StaysSpent inner) (start : Address) (list : Value) (steps : Nat)
    (address : Address) (index : Nat) : StaysSpent (readElements inner start list steps address index) := by
  induction steps generalizing address index with
  | zero => exact .throw _
  | succ steps ih =>
      unfold readElements
      grind

theorem staysSpent_readListLiteral (stays : Inner.StaysSpent inner) (expression : Expression) :
    StaysSpent (readListLiteral inner expression) := by
  have elements := staysSpent_readElements stays
  unfold readListLiteral
  grind

theorem staysSpent_applyBinary (stays : Inner.StaysSpent inner) (operator : BinaryOperator) (left : Expression) :
    StaysSpent (applyBinary inner operator left) := by
  have operand := stays.expression
  unfold applyBinary
  grind

theorem staysSpent_applyUnary (stays : Inner.StaysSpent inner) (operator : UnaryOperator) (expression : Expression) :
    StaysSpent (applyUnary inner operator expression) := by
  unfold applyUnary
  refine .bind (stays.expression _ _ _) fun operand => ?_
  dsimp only
  split
  · exact .raise _ _
  · split
    · exact .pure _
    · exact .pure _
    · exact .pure _
    · grind
  · exact .raise _ _

theorem staysSpent_readParenthesis (stays : Inner.StaysSpent inner) (expression : Expression) :
    StaysSpent (readParenthesis inner expression) := by
  unfold readParenthesis
  grind

theorem staysSpent_applyIndex (stays : Inner.StaysSpent inner) (expression : Expression) :
    StaysSpent (applyIndex inner expression) := by
  unfold applyIndex
  dsimp only
  split
  · grind
  · refine .bind (stays.argument _) fun index => ?_
    grind

theorem staysSpent_readArguments (stays : Inner.StaysSpent inner) (start : Address) (array count : Nat)
    (address : Address) : StaysSpent (readArguments inner start array count address) := by
  induction count generalizing address with
  | zero => exact .pure _
  | succ count ih =>
      unfold readArguments
      grind

theorem staysSpent_bindParameters (start : Address) (arguments : List Value) (address : Address) :
    StaysSpent (bindParameters start arguments address : Eval κ Address) := by
  induction arguments generalizing address with
  | nil => exact .pure _
  | cons argument rest ih =>
      unfold bindParameters
      grind

theorem staysSpent_runBody {body : Address → Eval κ Value} (stays : ∀ address, StaysSpent (body address))
    (header : Address) (arguments : List Value) (start : Address) :
    StaysSpent (runBody body header arguments start) := by
  have parameters := staysSpent_bindParameters (κ := κ) start
  unfold runBody
  refine .bind (by grind) fun scope => .always ?_ fun _ => rfl
  grind

theorem staysSpent_applyCall (stays : Inner.StaysSpent inner) (expression : Expression) :
    StaysSpent (applyCall inner expression) := by
  unfold applyCall
  dsimp only
  split
  · exact .raise _ _
  · next header _ =>
    refine .bind .get fun machine => .bind .get fun machine' => .bind .trackValues fun array => ?_
    refine .bind (staysSpent_readArguments stays _ _ _ _) fun arguments => ?_
    split
    · exact .raise _ _
    · next body some_body =>
      have runs := fun arguments => staysSpent_runBody (stays.body body some_body) header arguments expression.start
      refine .bind (.always (runs _).nested fun _ => rfl) fun value => ?_
      grind
  · exact .raise _ _

theorem staysSpent_tryArm (stays : Inner.StaysSpent inner) (expression : Expression) :
    StaysSpent (tryArm inner expression) := by
  have changes := @StaysSpent.modify κ
  unfold tryArm
  refine .bind (.modify fun _ => rfl) fun _ => .bind (.always (stays.argument _) fun _ => rfl) fun condition => ?_
  grind

theorem staysSpent_skip (stays : Inner.StaysSpent inner) (expression : Expression) :
    StaysSpent (skip inner expression) := by
  have arms := staysSpent_tryArm stays
  unfold skip
  refine .bind .get fun machine => .bind (.byteAt _) fun byte => ?_
  split <;> grind

@[grind ←]
theorem staysSpent_openBlock (start : Address) (condition : Value) (action : Bool → BranchAction) (address : Address) :
    StaysSpent (openBlock start condition action address : Eval κ Unit) := by
  unfold openBlock
  grind

@[grind ←]
theorem staysSpent_closeBlock (expression : Expression) : StaysSpent (closeBlock expression : Eval κ Expression) := by
  unfold closeBlock
  grind

@[grind ←]
theorem staysSpent_define (expression : Expression) : StaysSpent (define expression : Eval κ Expression) := by
  unfold define
  refine .bind (by grind) fun name => .bind .get fun machine => ?_
  dsimp only
  split
  · grind
  · refine .bind (by grind) fun place => ?_
    grind

@[grind ←]
theorem staysSpent_control (function : Control) (argument : Value) (expression : Expression) :
    StaysSpent (control function argument expression : Eval κ Expression) := by
  unfold control
  cases function <;> grind

@[grind ←]
theorem staysSpent_numberOf (value : Value) (start : Address) : StaysSpent (numberOf value start : Eval κ Float32) := by
  unfold numberOf
  grind

@[grind ←]
theorem staysSpent_indexOf (value : Value) (start : Address) : StaysSpent (indexOf value start : Eval κ Int) := by
  unfold indexOf
  grind

@[grind ←]
theorem staysSpent_bytesOf (value : Value) (start : Address) :
    StaysSpent (bytesOf value start : Eval κ (List UInt8)) := by
  unfold bytesOf
  grind

@[grind ←]
theorem staysSpent_draw : StaysSpent (draw : Eval κ Nat) :=
  fun _ spent => spent

@[grind ←]
theorem staysSpent_randomBetween (lowest highest : Int32) (start : Address) :
    StaysSpent (randomBetween lowest highest start : Eval κ Float32) := by
  unfold randomBetween
  grind

@[grind ←]
theorem staysSpent_applyMath (function : MathFunction) (arguments : List Value) (start : Address) :
    StaysSpent (applyMath function arguments start : Eval κ Value) := by
  unfold applyMath
  cases function <;> grind

@[grind ←]
theorem staysSpent_stringOf (text : String) (start : Address) : StaysSpent (stringOf text start : Eval κ Value) := by
  unfold stringOf
  grind

@[grind ←]
theorem staysSpent_applyValue (function : ValueFunction) (arguments : List Value) (start : Address) :
    StaysSpent (applyValue function arguments start : Eval κ Value) := by
  unfold applyValue
  cases function <;> grind

@[grind ←]
theorem staysSpent_shownText (value : Value) (start : Address) :
    StaysSpent (shownText value start : Eval κ String) := by
  unfold shownText
  grind

theorem staysSpent_mapM {each : α → Eval κ β} (stays : ∀ item, StaysSpent (each item)) (items : List α) :
    StaysSpent (items.mapM each) := by
  induction items with
  | nil => exact .pure _
  | cons item rest ih =>
      rw [List.mapM_cons]
      exact .bind (stays item) fun _ => .bind ih fun _ => .pure _

variable [Console κ]

@[grind ←]
theorem staysSpent_showMenu (title options : Value) (start : Address) :
    StaysSpent (showMenu title options start : Eval κ Value) := by
  have labels := staysSpent_mapM (κ := κ) fun value => staysSpent_shownText value start
  unfold showMenu
  dsimp only
  split
  · refine .bind (by grind) fun title => ?_
    split
    · refine .bind (by grind) fun values => ?_
      grind
    · exact .raise _ _
  · exact .raise _ _

@[grind ←]
theorem staysSpent_applyConsole (function : ConsoleFunction) (arguments : List Value) (start : Address) :
    StaysSpent (applyConsole function arguments start : Eval κ Value) := by
  unfold applyConsole
  cases function <;> grind

omit [Console κ] in
theorem staysSpent_applyFile (stays : Inner.StaysSpent inner) (function : FileFunction) (arguments : List Value)
    (start : Address) : StaysSpent (applyFile inner function arguments start) := by
  have code := stays.code
  unfold applyFile
  refine .bind (by grind) fun name => .bind .get fun machine => ?_
  split
  case h_7 => refine .bind (by grind) fun index => .bind (by grind) fun amount => ?_; grind
  all_goals grind

omit [Console κ] in
theorem staysSpent_readFunctionArguments (stays : Inner.StaysSpent inner) (start : Address) (array : Nat)
    (isDefinition : Bool) (count : Nat) (address : Address) :
    StaysSpent (readFunctionArguments inner start array isDefinition count address) := by
  induction count generalizing address with
  | zero => exact .pure _
  | succ count ih =>
      unfold readFunctionArguments
      grind

theorem staysSpent_applyBuiltin (stays : Inner.StaysSpent inner) (builtin : Builtin) (expression : Expression)
    (isStatement : Bool) : StaysSpent (applyBuiltin inner builtin expression isStatement) := by
  have arguments := staysSpent_readFunctionArguments stays expression.start
  have files := staysSpent_applyFile stays
  unfold applyBuiltin
  cases builtin <;> grind

theorem staysSpent_readPrimary (stays : Inner.StaysSpent inner) (expression : Expression) (isStatement : Bool) :
    StaysSpent (readPrimary inner expression isStatement) := by
  have lists := staysSpent_readListLiteral stays expression
  have parentheses := staysSpent_readParenthesis stays expression
  have builtins := fun builtin => staysSpent_applyBuiltin stays builtin expression isStatement
  have operators := fun operator => staysSpent_applyUnary stays operator expression
  unfold readPrimary
  grind

omit [Console κ] in
theorem staysSpent_readRest (stays : Inner.StaysSpent inner) (ceiling steps : Nat) (expression : Expression) :
    StaysSpent (readRest inner ceiling steps expression) := by
  induction steps generalizing expression with
  | zero => exact .throw _
  | succ steps ih =>
      unfold readRest
      refine .bind (.track _) fun _ => .bind (.byteAt _) fun byte => ?_
      split
      · exact .bind (staysSpent_applyStep _ _) fun _ => ih _
      split
      · exact .bind (staysSpent_applyIndex stays _) fun _ => ih _
      split
      · exact .bind (staysSpent_applyCall stays _) fun _ => ih _
      split
      · split
        · exact .bind (staysSpent_applyBinary stays _ _) fun _ => ih _
        · exact .pure _
      · exact .pure _

theorem staysSpent_frame (stays : Inner.StaysSpent inner) (start : Address) (ceiling : Nat) (isStatement : Bool) :
    StaysSpent (frame inner start ceiling isStatement) := by
  have skips := staysSpent_skip stays
  have primaries := staysSpent_readPrimary stays
  have rests := staysSpent_readRest stays
  unfold frame
  grind

omit [Console κ] in
theorem staysSpent_collect : StaysSpent (collect : Eval κ Unit) := by
  intro machine spent
  exact Nat.le_trans spent (Nat.le_of_eq machine.memory.allocations_collect.symm)

theorem staysSpent_betweenStatements : StaysSpent (betweenStatements : Eval κ Unit) := by
  have collects := staysSpent_collect (κ := κ)
  unfold betweenStatements
  refine .bind (.modify fun _ => rfl) fun _ => .bind .get fun machine => ?_
  grind

omit [Console κ] in
theorem staysSpent_orAnswer {statement : Eval κ Expression} {next : Expression → Eval κ Value}
    (first : StaysSpent statement) (rest : ∀ expression, StaysSpent (next expression)) :
    StaysSpent (orAnswer statement next) := by
  intro machine spent
  have first := first machine spent
  unfold orAnswer
  cases ran : statement machine with
  | ok expression after =>
      rw [ran] at first
      exact rest expression after first
  | error interrupt after =>
      rw [ran] at first
      cases interrupt with
      | answer value | quit | unfinished => exact first

theorem staysSpent_runCode {statement : Address → Eval κ Expression} (stays : ∀ address, StaysSpent (statement address))
    (steps : Nat) (address : Address) : StaysSpent (runCode statement steps address) := by
  induction steps generalizing address with
  | zero => exact .throw _
  | succ steps ih =>
      unfold runCode
      refine .bind (.byteAt _) fun byte => ?_
      split
      · exact ih _
      split
      · exact .pure _
      exact staysSpent_orAnswer (stays address) fun expression => .bind staysSpent_betweenStatements fun _ => ih _

theorem staysSpent_innerOf {steps levels : Nat}
    (stays : ∀ lower ≤ levels, ∀ start ceiling isStatement,
      StaysSpent (evaluate (κ := κ) steps lower start ceiling isStatement)) :
    Inner.StaysSpent (innerOf (κ := κ) steps levels) := by
  refine ⟨stays levels (Nat.le_refl _), staysSpent_runCode (fun _ => stays levels (Nat.le_refl _) _ _ _) _, ?_⟩
  intro body some_body address
  obtain ⟨lower, less, rfl⟩ := runCode_of_body? some_body
  exact staysSpent_runCode (fun _ => stays lower (Nat.le_of_lt less) _ _ _) _ _

theorem staysSpent_evaluate (steps levels : Nat) (start : Address) (ceiling : Nat) (isStatement : Bool) :
    StaysSpent (evaluate (κ := κ) steps levels start ceiling isStatement) := by
  induction levels using Nat.strongRecOn generalizing start ceiling isStatement with
  | ind levels ih =>
      cases levels with
      | zero =>
          rw [evaluate_zero]
          exact .raise _ _
      | succ levels =>
          rw [evaluate_succ]
          have inside := staysSpent_innerOf fun lower fewer => ih lower (Nat.lt_succ_of_le fewer)
          exact .releasing (staysSpent_frame inside start ceiling isStatement)

end Machine

end PocketScript
