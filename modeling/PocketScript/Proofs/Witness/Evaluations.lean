import PocketScript.Proofs.Witness.Attesting

/-! # Every evaluation is attested

Whatever is evaluated, what a witness keeps of it is an account, and otherwise it is
evaluated as if there was no witness. By induction on the levels that are left, the
count of nesting stays within the limit and is given back.
-/

namespace PocketScript

variable {κ α β : Type} {levels : Nat}

open Eval (Attests)

variable [Console κ]

@[grind ←]
theorem Destination.attests_read (destination : Destination) (hold : Hold) (address : Address) :
    Attests (κ := κ) levels (destination.read hold address) (destination.read hold address) := by
  unfold read
  grind

@[grind ←]
theorem Destination.attests_write (destination : Destination) (hold : Hold) (value : Value) (address : Address) :
    Attests (κ := κ) levels (destination.write hold value address) (destination.write hold value address) := by
  unfold write
  grind

namespace Machine

variable {watched : Inner (Witnessed κ)} {plain : Inner κ}

@[grind ←]
theorem attests_readName (address : Address) : Attests (κ := κ) levels (readName address) (readName address) := by
  unfold readName
  grind

@[grind ←]
theorem attests_readVariable (expression : Expression) :
    Attests (κ := κ) levels (readVariable expression) (readVariable expression) := by
  unfold readVariable
  grind

@[grind ←]
theorem attests_readNumberLiteral (expression : Expression) :
    Attests (κ := κ) levels (readNumberLiteral expression) (readNumberLiteral expression) := by
  unfold readNumberLiteral
  grind

@[grind ←]
theorem attests_readCharacterLiteral (expression : Expression) :
    Attests (κ := κ) levels (readCharacterLiteral expression) (readCharacterLiteral expression) := by
  unfold readCharacterLiteral
  grind

@[grind ←]
theorem attests_readStringLiteral (expression : Expression) :
    Attests (κ := κ) levels (readStringLiteral expression) (readStringLiteral expression) := by
  unfold readStringLiteral
  grind

@[grind ←]
theorem attests_combine (operator : Combination) (left right : Value) (start : Address) :
    Attests (κ := κ) levels (combine operator left right start) (combine operator left right start) := by
  unfold combine
  grind

@[grind ←]
theorem attests_compare (operator : Comparison) (left right : Value) (start : Address) :
    Attests (κ := κ) levels (compare operator left right start) (compare operator left right start) := by
  unfold compare
  split <;> grind

@[grind ←]
theorem attests_assign (expression : Expression) (value : Value) :
    Attests (κ := κ) levels (assign expression value) (assign expression value) := by
  unfold assign
  grind

@[grind ←]
theorem attests_update (operator : Combination) (expression : Expression) (right : Value) :
    Attests (κ := κ) levels (update operator expression right) (update operator expression right) := by
  unfold update
  dsimp only
  split
  · grind
  · refine .bind (by grind) fun current => ?_
    grind

@[grind ←]
theorem attests_applyStep (direction : Step) (expression : Expression) :
    Attests (κ := κ) levels (applyStep direction expression) (applyStep direction expression) := by
  unfold applyStep
  grind

@[grind ←]
theorem attests_select (sequence : Value) (index : Float32) (start : Address) :
    Attests (κ := κ) levels (select sequence index start) (select sequence index start) := by
  unfold select
  grind

/-- What can be evaluated one level further in is attested. A body takes up a level
    of its own. -/
structure Inner.Attests (levels : Nat) (watched : Inner (Witnessed κ)) (plain : Inner κ) : Prop where
  expression : ∀ start ceiling isStatement,
    Eval.Attests levels (watched.expression start ceiling isStatement) (plain.expression start ceiling isStatement)
  code : ∀ address, Eval.Attests levels (watched.code address) (plain.code address)
  body? : Option.Rel (fun body body' => ∃ lower < levels, ∀ address, Eval.Attests lower (body address) (body' address))
    watched.body? plain.body?

@[grind ←]
theorem Inner.Attests.argument (attests : Inner.Attests levels watched plain) (start : Address) :
    Eval.Attests levels (watched.argument start) (plain.argument start) :=
  attests.expression start _ false

theorem attests_readElements (attests : Inner.Attests levels watched plain) (start : Address) (list : Value) (steps : Nat)
    (address : Address) (index : Nat) : Attests levels (readElements watched start list steps address index)
      (readElements plain start list steps address index) := by
  induction steps generalizing address index with
  | zero => exact .throw _
  | succ steps ih =>
      unfold readElements
      grind

theorem attests_readListLiteral (attests : Inner.Attests levels watched plain) (expression : Expression) :
    Attests levels (readListLiteral watched expression)
      (readListLiteral plain expression) := by
  have elements := attests_readElements attests
  unfold readListLiteral
  grind

theorem attests_applyBinary (attests : Inner.Attests levels watched plain) (operator : BinaryOperator) (left : Expression) :
    Attests levels (applyBinary watched operator left)
      (applyBinary plain operator left) := by
  have operand := attests.expression
  unfold applyBinary
  grind

theorem attests_applyUnary (attests : Inner.Attests levels watched plain) (operator : UnaryOperator) (expression : Expression) :
    Attests levels (applyUnary watched operator expression)
      (applyUnary plain operator expression) := by
  unfold applyUnary
  refine .bind (attests.expression _ _ _) fun operand => ?_
  dsimp only
  split
  · exact .raise _ _
  · split
    · exact .pure _
    · exact .pure _
    · exact .pure _
    · grind
  · exact .raise _ _

theorem attests_readParenthesis (attests : Inner.Attests levels watched plain) (expression : Expression) :
    Attests levels (readParenthesis watched expression)
      (readParenthesis plain expression) := by
  unfold readParenthesis
  grind

theorem attests_applyIndex (attests : Inner.Attests levels watched plain) (expression : Expression) :
    Attests levels (applyIndex watched expression)
      (applyIndex plain expression) := by
  unfold applyIndex
  dsimp only
  split
  · grind
  · refine .bind (attests.argument _) fun index => ?_
    grind

theorem attests_readArguments (attests : Inner.Attests levels watched plain) (start : Address) (array count : Nat)
    (address : Address) : Attests levels (readArguments watched start array count address)
      (readArguments plain start array count address) := by
  induction count generalizing address with
  | zero => exact .pure _
  | succ count ih =>
      unfold readArguments
      grind

theorem attests_bindParameters (start : Address) (arguments : List Value) (address : Address) :
    Attests (κ := κ) levels (bindParameters start arguments address) (bindParameters start arguments address) := by
  induction arguments generalizing address with
  | nil => exact .pure _
  | cons argument rest ih =>
      unfold bindParameters
      grind

theorem attests_runBody {body : Address → Eval (Witnessed κ) Value} {body' : Address → Eval κ Value}
    (attests : ∀ address, Attests levels (body address) (body' address)) (header : Address) (arguments : List Value)
    (start : Address) : Attests levels (runBody body header arguments start) (runBody body' header arguments start) := by
  have parameters (arguments : List Value) (address : Address) : Attests (κ := κ) levels
      (bindParameters start arguments address) (bindParameters start arguments address) :=
    attests_bindParameters start arguments address
  unfold runBody
  refine .bind (.onMemory _ _) fun scope => ?_
  refine .always (fun memory => { memory with stack := memory.stack.popScope }) ?_
  grind

theorem attests_applyCall (attests : Inner.Attests levels watched plain) (expression : Expression) :
    Attests levels (applyCall watched expression) (applyCall plain expression) := by
  unfold applyCall
  dsimp only
  split
  · exact .raise _ _
  · refine .get_bind fun machine _ => .get_bind fun machine' _ => .bind .trackValues fun array => ?_
    refine .bind (attests_readArguments attests _ _ _ _) fun arguments => ?_
    have bodies := attests.body?
    revert bodies
    cases watched.body? <;> cases plain.body?
    case none.none => exact fun _ => .raise _ _
    case none.some | some.none => exact nofun
    case some.some body body' =>
        rintro ⟨⟨lower, less, bodies⟩⟩
        refine .bind (.always (fun memory =>
          { memory with roots := Roots.release memory.roots machine'.memory.roots.size })
          (.nested (attests_runBody bodies _ _ _) less)) fun value => ?_
        grind
  · exact .raise _ _

theorem attests_tryArm (attests : Inner.Attests levels watched plain) (expression : Expression) :
    Attests levels (tryArm watched expression)
      (tryArm plain expression) := by
  have acts (action : BranchAction) : Attests levels
      (modify fun machine : Machine (Witnessed κ) =>
        { machine with memory := { machine.memory with stack := machine.memory.stack.setAction action } })
      (modify fun machine : Machine κ =>
        { machine with memory := { machine.memory with stack := machine.memory.stack.setAction action } }) :=
    .compute (fun work => ((), { work with memory := { work.memory with stack := work.memory.stack.setAction action } }))
      (fun _ => rfl) fun _ => rfl
  unfold tryArm
  refine .bind (acts .run) fun _ => .bind (.always (fun memory =>
    { memory with stack := memory.stack.setAction .ignoreSoft }) (attests.argument _)) fun condition => ?_
  dsimp only
  split
  · exact .raise _ _
  · split
    · exact .bind (acts .run) fun _ => .pure _
    · exact .pure _
  · exact .raise _ _

theorem attests_skip (attests : Inner.Attests levels watched plain) (expression : Expression) :
    Attests levels (skip watched expression)
      (skip plain expression) := by
  have arms := attests_tryArm attests
  unfold skip
  refine .get_bind fun machine depth => .bind (.byteAt _) fun byte => ?_
  split <;> grind

@[grind ←]
theorem attests_openBlock (start : Address) (condition : Value) (action : Bool → BranchAction) (address : Address) :
    Attests (κ := κ) levels (openBlock start condition action address) (openBlock start condition action address) := by
  unfold openBlock
  grind

@[grind ←]
theorem attests_closeBlock (expression : Expression) : Attests (κ := κ) levels (closeBlock expression) (closeBlock expression) := by
  unfold closeBlock
  grind

@[grind ←]
theorem attests_define (expression : Expression) : Attests (κ := κ) levels (define expression) (define expression) := by
  unfold define
  refine .bind (attests_readName _) fun name => .get_bind fun machine depth => ?_
  rw [machine.memory_unwitnessed]
  dsimp only
  cases machine.memory.stack.find? name.1 <;> grind

@[grind ←]
theorem attests_control (function : Control) (argument : Value) (expression : Expression) :
    Attests (κ := κ) levels (control function argument expression) (control function argument expression) := by
  unfold control
  cases function with
  | whenTrue | loop => exact .bind (attests_openBlock _ _ _ _) fun _ => .pure _
  | leave | answer | quit | otherwiseWhen | otherwise | leaveLoop | nextRound | close | define => grind

@[grind ←]
theorem attests_numberOf (value : Value) (start : Address) :
    Attests (κ := κ) levels (numberOf value start) (numberOf value start) := by
  unfold numberOf
  grind

@[grind ←]
theorem attests_indexOf (value : Value) (start : Address) : Attests (κ := κ) levels (indexOf value start) (indexOf value start) := by
  unfold indexOf
  grind

@[grind ←]
theorem attests_bytesOf (value : Value) (start : Address) :
    Attests (κ := κ) levels (bytesOf value start) (bytesOf value start) := by
  unfold bytesOf
  grind

@[grind ←]
theorem attests_draw : Attests (κ := κ) levels draw draw :=
  .compute (fun work => (work.draws.draw.1, { work with draws := work.draws.draw.2 })) (fun _ => rfl) fun _ => rfl

@[grind ←]
theorem attests_randomBetween (lowest highest : Int32) (start : Address) :
    Attests (κ := κ) levels (randomBetween lowest highest start) (randomBetween lowest highest start) := by
  unfold randomBetween
  grind

@[grind ←]
theorem attests_applyMath (function : MathFunction) (arguments : List Value) (start : Address) :
    Attests (κ := κ) levels (applyMath function arguments start) (applyMath function arguments start) := by
  unfold applyMath
  cases function <;> grind

@[grind ←]
theorem attests_stringOf (text : String) (start : Address) : Attests (κ := κ) levels (stringOf text start) (stringOf text start) := by
  unfold stringOf
  grind

@[grind ←]
theorem attests_applyValue (function : ValueFunction) (arguments : List Value) (start : Address) :
    Attests (κ := κ) levels (applyValue function arguments start) (applyValue function arguments start) := by
  unfold applyValue
  cases function <;> grind

@[grind ←]
theorem attests_shownText (value : Value) (start : Address) :
    Attests (κ := κ) levels (shownText value start) (shownText value start) := by
  unfold shownText
  grind

theorem attests_mapM {each : α → Eval (Witnessed κ) β} {each' : α → Eval κ β}
    (attests : ∀ item, Attests levels (each item) (each' item)) (items : List α) :
    Attests levels (items.mapM each) (items.mapM each') := by
  induction items with
  | nil => exact .pure _
  | cons item rest ih =>
      rw [List.mapM_cons, List.mapM_cons]
      exact .bind (attests item) fun _ => .bind ih fun _ => .pure _

@[grind ←]
theorem attests_showMenu (title options : Value) (start : Address) :
    Attests (κ := κ) levels (showMenu title options start) (showMenu title options start) := by
  have labels (values : List Value) :
      Attests (κ := κ) levels (values.mapM (shownText · start)) (values.mapM (shownText · start)) :=
    attests_mapM (fun value => attests_shownText value start) values
  unfold showMenu
  dsimp only
  split
  · refine .bind (by grind) fun title => ?_
    split
    · refine .bind (by grind) fun values => ?_
      split
      · exact .raise _ _
      · refine .bind (labels values) fun labels => .bind (.choose _ _) fun choice => ?_
        grind
    · exact .raise _ _
  · exact .raise _ _

@[grind ←]
theorem attests_applyConsole (function : ConsoleFunction) (arguments : List Value) (start : Address) :
    Attests (κ := κ) levels (applyConsole function arguments start) (applyConsole function arguments start) := by
  unfold applyConsole
  cases function with
  | print => exact .bind (attests_shownText _ _) fun text => .bind (.print text) fun goesOn => by grind
  | askText => exact .bind (.askText _) fun answer => by grind
  | askNumber => exact .bind (.askNumber _) fun answer => by grind
  | menu => exact attests_showMenu _ _ _

theorem attests_applyFile (attests : Inner.Attests levels watched plain) (function : FileFunction)
    (arguments : List Value) (start : Address) :
    Attests levels (applyFile watched function arguments start) (applyFile plain function arguments start) := by
  have code := attests.code
  unfold applyFile
  refine .bind (attests_bytesOf _ _) fun name => .get_bind fun machine depth => ?_
  rw [machine.store_unwitnessed]
  split
  case h_7 =>
    refine .bind (attests_indexOf _ _) fun index => .bind (attests_indexOf _ _) fun amount => .get_bind fun machine' _ => ?_
    rw [machine'.store_unwitnessed]
    split <;> grind
  all_goals grind

theorem attests_readFunctionArguments (attests : Inner.Attests levels watched plain) (start : Address) (array : Nat)
    (isDefinition : Bool) (count : Nat) (address : Address) :
    Attests levels (readFunctionArguments watched start array isDefinition count address)
      (readFunctionArguments plain start array isDefinition count address) := by
  induction count generalizing address with
  | zero => exact .pure _
  | succ count ih =>
      unfold readFunctionArguments
      grind

theorem attests_applyBuiltin (attests : Inner.Attests levels watched plain) (builtin : Builtin) (expression : Expression)
    (isStatement : Bool) : Attests levels (applyBuiltin watched builtin expression isStatement)
      (applyBuiltin plain builtin expression isStatement) := by
  have arguments := attests_readFunctionArguments attests expression.start
  have files := attests_applyFile attests
  unfold applyBuiltin
  cases builtin <;> grind

theorem attests_readPrimary (attests : Inner.Attests levels watched plain) (expression : Expression) (isStatement : Bool) :
    Attests levels (readPrimary watched expression isStatement)
      (readPrimary plain expression isStatement) := by
  have lists := attests_readListLiteral attests expression
  have parentheses := attests_readParenthesis attests expression
  have builtins := fun builtin => attests_applyBuiltin attests builtin expression isStatement
  have operators := fun operator => attests_applyUnary attests operator expression
  unfold readPrimary
  grind

theorem attests_readRest (attests : Inner.Attests levels watched plain) (ceiling steps : Nat) (expression : Expression) :
    Attests levels (readRest watched ceiling steps expression)
      (readRest plain ceiling steps expression) := by
  induction steps generalizing expression with
  | zero => exact .throw _
  | succ steps ih =>
      unfold readRest
      refine .bind (.track _) fun _ => .bind (.byteAt _) fun byte => ?_
      split
      · exact .bind (attests_applyStep _ _) fun _ => ih _
      split
      · exact .bind (attests_applyIndex attests _) fun _ => ih _
      split
      · exact .bind (attests_applyCall attests _) fun _ => ih _
      split
      · split
        · exact .bind (attests_applyBinary attests _ _) fun _ => ih _
        · exact .pure _
      · exact .pure _

theorem attests_frame (attests : Inner.Attests levels watched plain) (start : Address) (ceiling : Nat) (isStatement : Bool) :
    Attests levels (frame watched start ceiling isStatement)
      (frame plain start ceiling isStatement) := by
  have skips := attests_skip attests
  have primaries := attests_readPrimary attests
  have rests := attests_readRest attests
  unfold frame
  grind

theorem attests_collect : Attests (κ := κ) levels collect collect :=
  .compute (fun work => ((), { work with memory := work.memory.collect.2, recentStatements := 0 }))
    (fun _ => rfl) fun _ => rfl

theorem attests_betweenStatements : Attests (κ := κ) levels betweenStatements betweenStatements := by
  have counts : Attests levels
      (modify fun machine : Machine (Witnessed κ) => { machine with recentStatements := machine.recentStatements + 1 })
      (modify fun machine : Machine κ => { machine with recentStatements := machine.recentStatements + 1 }) :=
    .compute (fun work => ((), { work with recentStatements := work.recentStatements + 1 })) (fun _ => rfl) fun _ => rfl
  have collects : Attests (κ := κ) levels collect collect := attests_collect
  unfold betweenStatements
  refine .bind counts fun _ => .get_bind fun machine depth => ?_
  grind

/-- An answer is no fault, so code may end with it. -/
theorem attests_orAnswer {statement : Eval (Witnessed κ) Expression} {statement' : Eval κ Expression}
    {next : Expression → Eval (Witnessed κ) Value} {next' : Expression → Eval κ Value}
    (one : Attests levels statement statement') (two : ∀ expression, Attests levels (next expression) (next' expression)) :
    Attests levels (orAnswer statement next) (orAnswer statement' next') := by
  intro machine
  obtain ⟨⟨events, account⟩, same⟩ := one machine
  simp only [orAnswer, same]
  cases ran : statement machine with
  | ok expression middle =>
      rw [ran] at account
      obtain ⟨⟨later, rest⟩, same⟩ := two expression middle
      exact ⟨⟨events ++ later, account.append rest⟩, same⟩
  | error interrupt after =>
      rw [ran] at account
      cases interrupt with
      | answer value =>
          obtain ⟨none, same⟩ := account.faults.of_answer
          exact ⟨⟨events, { account with faults := .faultless none same }⟩, fun _ => rfl⟩
      | quit | unfinished => exact ⟨⟨events, account.error⟩, fun _ => rfl⟩

theorem attests_runCode {statement : Address → Eval (Witnessed κ) Expression} {statement' : Address → Eval κ Expression}
    (attests : ∀ address, Attests levels (statement address) (statement' address)) (steps : Nat) (address : Address) :
    Attests levels (runCode statement steps address) (runCode statement' steps address) := by
  induction steps generalizing address with
  | zero => exact .throw _
  | succ steps ih =>
      unfold runCode
      refine .bind (.byteAt _) fun byte => ?_
      split
      · exact ih _
      split
      · exact .pure _
      exact attests_orAnswer (attests address) fun expression => .bind attests_betweenStatements fun _ => ih _

/-- What an expression can evaluate that leaves `levels` levels. -/
def innerOf [Witness κ] [Heeding κ] (steps levels : Nat) : Inner κ :=
  { expression := evaluate steps levels
    code := runCode (fun address => evaluate steps levels address Inner.statementCeiling true) steps
    body? :=
      match levels with
      | 0 => none
      | deeper + 1 => some
        (runCode (fun address => evaluate steps deeper address Inner.statementCeiling true) steps) }

theorem evaluate_zero [Witness κ] [Heeding κ] (steps : Nat) (start : Address) (ceiling : Nat) (isStatement : Bool) :
    evaluate (κ := κ) steps 0 start ceiling isStatement = Eval.raise .expressionTooComplex start :=
  rfl

theorem evaluate_deeper [Witness κ] [Heeding κ] (steps levels : Nat) (start : Address) (ceiling : Nat) (isStatement : Bool) :
    evaluate (κ := κ) steps (levels + 1) start ceiling isStatement =
      Eval.nested (Eval.releasing (frame (innerOf steps levels) start ceiling isStatement)) := by
  cases levels with
  | zero => rfl
  | succ deeper => rfl

theorem attests_innerOf {steps levels : Nat}
    (attests : ∀ lower ≤ levels, ∀ start ceiling isStatement,
      Attests (κ := κ) lower (evaluate steps lower start ceiling isStatement)
        (evaluate steps lower start ceiling isStatement)) :
    Inner.Attests (κ := κ) levels (innerOf steps levels) (innerOf steps levels) := by
  have here := attests levels (Nat.le_refl _)
  refine ⟨here, attests_runCode (fun _ => here _ _ _) _, ?_⟩
  cases levels with
  | zero => exact .none
  | succ deeper =>
      have deeper_le := Nat.le_succ deeper
      exact .some ⟨deeper, Nat.lt_succ_self _, attests_runCode (fun _ => attests deeper deeper_le _ _ _) _⟩

/-- Every evaluation is attested, whatever it starts from. -/
theorem attests_evaluate (steps levels : Nat) (start : Address) (ceiling : Nat) (isStatement : Bool) :
    Attests (κ := κ) levels (evaluate steps levels start ceiling isStatement)
      (evaluate steps levels start ceiling isStatement) := by
  induction levels using Nat.strongRecOn generalizing start ceiling isStatement with
  | ind levels ih =>
      cases levels with
      | zero => exact .raise _ _
      | succ levels =>
          rw [evaluate_deeper, evaluate_deeper]
          have inside := attests_innerOf fun lower fewer => ih lower (Nat.lt_succ_of_le fewer)
          exact .nested (.releasing (attests_frame inside start ceiling isStatement)) (Nat.le_refl _)

theorem attests_innerOf_self (steps levels : Nat) :
    Inner.Attests (κ := κ) levels (innerOf steps levels) (innerOf steps levels) :=
  attests_innerOf fun lower _ => attests_evaluate steps lower

/-- Without a witness, the count of nesting comes to nothing. -/
theorem evaluate_succ (steps levels : Nat) (start : Address) (ceiling : Nat) (isStatement : Bool) :
    evaluate (κ := κ) steps (levels + 1) start ceiling isStatement =
      Eval.releasing (frame (innerOf steps levels) start ceiling isStatement) := by
  have inside := attests_innerOf_self (κ := κ) steps levels
  rw [evaluate_deeper, (Attests.releasing (attests_frame inside start ceiling isStatement)).nested_eq]

/-- A body runs with one level less, if one is left. -/
theorem runCode_of_body? [Heeding κ] {steps levels : Nat} {body : Address → Eval κ Value}
    (some_body : (innerOf steps levels).body? = some body) :
    ∃ lower < levels,
      body = runCode (fun address => evaluate steps lower address Inner.statementCeiling true) steps := by
  cases levels with
  | zero => simp [innerOf] at some_body
  | succ deeper => exact ⟨deeper, Nat.lt_succ_self _, (Option.some.inj some_body).symm⟩

end Machine

end PocketScript
