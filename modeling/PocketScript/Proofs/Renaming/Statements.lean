import PocketScript.Proofs.Renaming.Expressions

/-! # Calls, blocks and functions on machines alike but for handles

What a statement does to scopes, blocks, the console and the store does not depend
on handles either. Two strings or lists are one and the same under the handles of
one machine if they are under those of the other.
-/

namespace PocketScript

open Eval

variable {κ : Type} {names : Renaming} {inner : Inner κ}

namespace Machine

theorem isMissing_expression (expression : Expression) :
    (names.expression expression).value.isMissing = expression.value.isMissing :=
  names.isMissing_value expression.value

/-- Values that are read one after the other, and where their code ends. -/
def renameArguments (names : Renaming) (found : List Value × Address) : List Value × Address :=
  (found.1.map names.value, found.2)

theorem carries_readArguments (inside : Inner.Carries names inner) (start : Address) (array count : Nat)
    (address : Address) :
    Eval.Carries names (renameArguments names) (readArguments inner start array count address)
      (readArguments inner start array count address) := by
  induction count generalizing address with
  | zero => exact .pure rfl
  | succ count ih =>
      refine (inside.argument address).bind fun argument => ?_
      rw [isMissing_expression]
      split
      · exact carries_raise _ start
      refine (carries_trackIn array argument.value).bind fun _ => (carries_byteAt argument.code).bind fun byte => ?_
      exact (ih _).bind fun _ => .pure rfl

theorem carries_bindParameters (start : Address) (values : List Value) (address : Address) :
    Eval.Carries (κ := κ) names id (bindParameters start values address)
      (bindParameters start (values.map names.value) address) := by
  induction values generalizing address with
  | nil => exact .pure rfl
  | cons value rest ih =>
      refine .get_bind fun machine other renamed => ?_
      simp only [renamed.store]
      split
      · exact carries_raise _ start
      · exact (carries_onMemory start (Memory.carries_createVariable _ value)).bind fun _ => ih _

theorem carries_runBody {body : Address → Eval κ Value}
    (carries : ∀ address, Eval.Carries names names.value (body address) (body address)) (header : Address)
    (arguments : List Value) (start : Address) :
    Eval.Carries names names.value (runBody body header arguments start)
      (runBody body header (arguments.map names.value) start) := by
  refine (carries_onMemory start Memory.carries_pushScope).bind fun scope => ?_
  refine carries_always ?_ fun machine other renamed => ?_
  · refine (carries_onMemory start (Memory.carries_pushBranch .run 0)).bind fun _ => ?_
    refine (carries_modifyRoots fun roots => ?_).bind fun _ => .get_bind fun machine other renamed => ?_
    · simp [Renaming.roots, Renaming.root]
    · rw [renamed.store]
      exact (carries_bindParameters start arguments _).bind fun code => carries code
  · refine renamed.withMemory (renamed.memory.withStack ?_)
    rw [renamed.memory.stack, names.popScope_stack]

theorem carries_applyCall (inside : Inner.Carries names inner) (expression : Expression) :
    Eval.Carries names names.expression (applyCall inner expression)
      (applyCall inner (names.expression expression)) := by
  obtain ⟨start, code, value, destination?, hold⟩ := expression
  cases value with
  | missing | number _ | string _ | list _ => exact carries_raise _ start
  | function header =>
      refine .get_bind fun machine other renamed => .get_bind fun machine' other' renamed' => ?_
      have size : other'.memory.roots.size = machine'.memory.roots.size := by
        rw [renamed'.memory.roots, Renaming.roots, Array.size_map]
      rw [renamed.store, size]
      refine carries_trackValues.bind fun array => (carries_readArguments inside start array _ _).bind fun found => ?_
      cases body : inner.body? with
      | none => exact carries_raise _ start
      | some run =>
          have runs := carries_runBody (inside.body run body) header found.1 start
          refine (carries_release _ (carries_nested runs)).bind fun value => ?_
          exact (carries_track value).bind fun _ => .pure rfl

theorem carries_setAction (action : BranchAction) (machine other : Machine κ) (renamed : Renamed names machine other) :
    Renamed names
      { machine with memory := { machine.memory with stack := machine.memory.stack.setAction action } }
      { other with memory := { other.memory with stack := other.memory.stack.setAction action } } := by
  refine renamed.withMemory (renamed.memory.withStack ?_)
  rw [renamed.memory.stack, names.setAction_stack]

theorem carries_tryArm (inside : Inner.Carries names inner) (expression : Expression) :
    Eval.Carries names names.expression (tryArm inner expression) (tryArm inner (names.expression expression)) := by
  refine (Couples.modify (carries_setAction .run)).bind fun _ => ?_
  refine (carries_always (inside.argument _) (carries_setAction .ignoreSoft)).bind fun condition => ?_
  obtain ⟨_, code, value, _, _⟩ := condition
  cases value with
  | missing | string _ | list _ | function _ => exact carries_raise _ expression.start
  | number number =>
      simp only [Renaming.expression, Renaming.value_number]
      split
      · exact (Couples.modify (carries_setAction .run)).bind fun _ => .pure rfl
      · exact .pure rfl

/-- Going to the end of a line. -/
theorem carries_toLineEnd (expression : Expression) :
    Eval.Carries (κ := κ) names names.expression
      (do return { expression with code := (← get).store.lineEnd expression.code })
      (do
        return { names.expression expression with
          code := (← get).store.lineEnd (names.expression expression).code }) := by
  refine .get_bind fun machine other renamed => ?_
  rw [renamed.store]
  exact .pure rfl

theorem carries_skip (inside : Inner.Carries names inner) (expression : Expression) :
    Eval.Carries names names.expression (skip inner expression) (skip inner (names.expression expression)) := by
  have ends : Eval.Carries (κ := κ) names _ _ _ := carries_toLineEnd expression
  have opens : Eval.Carries (κ := κ) names _ _ _ :=
    carries_onMemory expression.start (Memory.carries_pushBranch .ignoreHard 0)
  unfold skip
  refine .get_bind fun machine other renamed => ?_
  rw [renamed.memory.stack, Renaming.action_stack]
  refine (carries_byteAt expression.start).bind fun byte => ?_
  simp only [id_eq]
  split
  · exact opens.bind fun _ => ends
  · exact opens.bind fun _ => ends
  · exact opens.bind fun _ => ends
  · split
    · exact (carries_tryArm inside expression).bind carries_toLineEnd
    · exact ends
  · split
    · refine (carries_onStack fun stack => ?_).bind fun _ => ends
      rw [names.setAction_stack]
      rfl
    · exact ends
  · refine (carries_onStack names.popBranch_stack).bind fun closed => ?_
    simp only [id_eq]
    split
    · exact ends
    · exact carries_raise _ expression.start
  · exact ends

theorem carries_openBlock (start : Address) (condition : Value) (action : Bool → BranchAction) (address : Address) :
    Eval.Carries (κ := κ) names id (openBlock start condition action address)
      (openBlock start (names.value condition) action address) := by
  cases condition with
  | missing | string _ | list _ | function _ => exact carries_raise _ start
  | number number => exact carries_onMemory start (Memory.carries_pushBranch _ _)

theorem carries_closeBlock (expression : Expression) :
    Eval.Carries (κ := κ) names names.expression (closeBlock expression)
      (closeBlock (names.expression expression)) := by
  refine .get_bind fun machine other renamed => ?_
  have top : other.memory.stack.branch? = machine.memory.stack.branch? := by
    rw [renamed.memory.stack, Renaming.branch?_stack]
  simp only [top]
  refine (carries_onStack names.popBranch_stack).bind fun closed => ?_
  simp only [id_eq]
  split
  · split <;> exact .pure rfl
  · refine .get_bind fun machine other renamed => ?_
    rw [renamed.memory.stack, Renaming.isGlobal_stack]
    split
    · exact carries_raise _ expression.start
    · exact .throw rfl

theorem carries_define (expression : Expression) :
    Eval.Carries (κ := κ) names names.expression (define expression) (define (names.expression expression)) := by
  refine (carries_readName _).bind fun (name, _) => .get_bind fun machine other renamed => ?_
  have find : other.memory.stack.find? name = machine.memory.stack.find? name := by
    rw [renamed.memory.stack, Renaming.find?_stack]
  have rest (place : VariableRef) : Eval.Carries (κ := κ) names names.expression
      (do
        (Destination.variable place).write .kept (.function expression.start) expression.start
        Eval.onMemory expression.start (Memory.pushBranch .ignoreHard 0)
        return expression)
      (do
        (Destination.variable place).write .kept (.function expression.start) expression.start
        Eval.onMemory expression.start (Memory.pushBranch .ignoreHard 0)
        return names.expression expression) := by
    refine (Destination.carries_write (.variable place) .kept (.function expression.start) expression.start).bind ?_
    refine fun _ => (carries_onMemory expression.start (Memory.carries_pushBranch .ignoreHard 0)).bind fun _ => ?_
    exact .pure rfl
  simp only [find]
  cases machine.memory.stack.find? name with
  | some place => exact rest place
  | none =>
      exact (carries_onMemory expression.start (Memory.carries_createVariable name .missing)).bind rest

theorem carries_control (function : Control) (argument : Value) (expression : Expression) :
    Eval.Carries (κ := κ) names names.expression (control function argument expression)
      (control function (names.value argument) (names.expression expression)) := by
  have skipRest : Eval.Carries (κ := κ) names names.expression
      (do
        Eval.onStack fun stack => ((), stack.setAction .ignoreHard)
        return expression)
      (do
        Eval.onStack fun stack => ((), stack.setAction .ignoreHard)
        return names.expression expression) := by
    refine (carries_onStack fun stack => ?_).bind fun _ => .pure rfl
    rw [names.setAction_stack]
    rfl
  cases function with
  | leave | answer | quit => exact .throw rfl
  | whenTrue | loop => exact (carries_openBlock expression.start argument _ _).bind fun _ => .pure rfl
  | otherwiseWhen | otherwise => exact skipRest
  | leaveLoop =>
      refine (carries_onStack names.breakLoop_stack).bind fun found => ?_
      simp only [id_eq]
      split
      · exact .pure rfl
      · exact carries_raise _ expression.start
  | nextRound =>
      refine (carries_onStack names.continueLoop_stack).bind fun found => ?_
      cases found with
      | none => exact carries_raise _ expression.start
      | some address => exact .pure rfl
  | close => exact carries_closeBlock expression
  | define => exact carries_define expression

variable {arguments : List Value} {start : Address}

theorem value_getD (values : List Value) (index : Nat) :
    (values.map names.value).getD index .missing = names.value (values.getD index .missing) := by
  rw [List.getD_eq_getElem?_getD, List.getD_eq_getElem?_getD, List.getElem?_map]
  cases values[index]? <;> rfl

theorem carries_numberOf (value : Value) (start : Address) :
    Eval.Carries (κ := κ) names id (numberOf value start) (numberOf (names.value value) start) := by
  cases value with
  | missing | string _ | list _ | function _ => exact carries_raise _ start
  | number number => exact .pure rfl

theorem carries_indexOf (value : Value) (start : Address) :
    Eval.Carries (κ := κ) names id (indexOf value start) (indexOf (names.value value) start) :=
  (carries_numberOf value start).bind fun _ => .pure rfl

theorem carries_bytesOf (value : Value) (start : Address) :
    Eval.Carries (κ := κ) names id (bytesOf value start) (bytesOf (names.value value) start) := by
  cases value with
  | missing | number _ | list _ | function _ => exact carries_raise _ start
  | string cell => exact carries_onMemory start (Memory.carries_string cell)

theorem carries_shownText (value : Value) (start : Address) :
    Eval.Carries (κ := κ) names id (shownText value start) (shownText (names.value value) start) := by
  cases value with
  | missing | list _ | function _ => exact carries_raise _ start
  | number number => exact .pure rfl
  | string cell => exact (carries_bytesOf (.string cell) start).bind fun _ => .pure rfl

theorem carries_mapM_shownText (values : List Value) (start : Address) :
    Eval.Carries (κ := κ) names id (values.mapM (shownText · start))
      ((values.map names.value).mapM (shownText · start)) := by
  induction values with
  | nil => exact .pure rfl
  | cons value rest ih =>
      rw [List.map_cons, List.mapM_cons, List.mapM_cons]
      exact (carries_shownText value start).bind fun text => ih.bind fun texts => .pure rfl

theorem carries_draw : Eval.Carries (κ := κ) names id draw draw := by
  intro machine other renamed
  refine .ok (congrArg (fun draws : RandomSource => draws.draw.1) renamed.draws) ?_
  exact ⟨⟨renamed.store, renamed.console, congrArg (fun draws : RandomSource => draws.draw.2) renamed.draws,
    renamed.fault?⟩, renamed.memory, renamed.configuration, renamed.recentStatements, renamed.region⟩

theorem carries_randomBetween (lowest highest : Int32) (start : Address) :
    Eval.Carries (κ := κ) names id (randomBetween lowest highest start) (randomBetween lowest highest start) := by
  dsimp only [randomBetween]
  split
  · exact carries_raise _ start
  · exact carries_draw.bind fun _ => .pure rfl

theorem carries_applyMath (function : MathFunction) (arguments : List Value) (start : Address) :
    Eval.Carries (κ := κ) names names.value (applyMath function arguments start)
      (applyMath function (arguments.map names.value) start) := by
  have argument (index : Nat) : Eval.Carries (κ := κ) names _ _ _ :=
    carries_numberOf (arguments.getD index .missing) start
  simp only [← value_getD] at argument
  have one {change : Float32 → Float32} : Eval.Carries (κ := κ) names names.value
      (do return .number (change (← numberOf (arguments.getD 0 .missing) start)))
      (do return .number (change (← numberOf ((arguments.map names.value).getD 0 .missing) start))) :=
    (argument 0).bind fun _ => .pure rfl
  cases function with
  | random => exact carries_draw.bind fun _ => .pure rfl
  | randomInteger =>
      exact (argument 0).bind fun lowest => (argument 1).bind fun highest =>
        (carries_randomBetween _ _ start).bind fun _ => .pure rfl
  | absolute => exact one
  | round => exact one
  | floor => exact one
  | ceiling => exact one
  | sine => exact one
  | cosine => exact one
  | tangent => exact one
  | squareRoot =>
      refine (argument 0).bind fun x => ?_
      simp only [id_eq]
      split
      · exact carries_raise _ start
      · exact .pure rfl
  | power | logarithm =>
      refine (argument 0).bind fun x => (argument 1).bind fun y => ?_
      simp only [id_eq]
      split
      · exact carries_raise _ start
      · exact .pure rfl

theorem carries_stringOf (text : String) (start : Address) :
    Eval.Carries (κ := κ) names names.value (stringOf text start) (stringOf text start) :=
  (carries_onMemory start (Memory.carries_createString _)).bind fun _ => .pure rfl

/-- Two strings or lists are the same on both machines, or on none. -/
theorem beq_handle (first second : Handle) : (names.handle first == names.handle second) = (first == second) := by
  rw [Bool.eq_iff_iff, beq_iff_eq, beq_iff_eq, names.handle_injective.eq_iff]

theorem carries_applyValue (function : ValueFunction) (arguments : List Value) (start : Address) :
    Eval.Carries (κ := κ) names names.value (applyValue function arguments start)
      (applyValue function (arguments.map names.value) start) := by
  unfold applyValue
  simp only [value_getD]
  generalize arguments.getD 0 .missing = sequence, arguments.getD 1 .missing = second,
    arguments.getD 2 .missing = third
  cases function with
  | number =>
      cases sequence with
      | missing | list _ | function _ => exact carries_raise _ start
      | number number => exact .pure rfl
      | string cell => exact (carries_bytesOf (.string cell) start).bind fun _ => .pure rfl
  | string =>
      cases sequence with
      | missing | list _ | function _ => exact carries_raise _ start
      | number number => exact carries_stringOf _ start
      | string cell => exact .pure rfl
  | type => cases sequence <;> exact .pure rfl
  | length =>
      have lengths := Memory.carries_lookSame fun _ _ (renamed : Memory.Renamed names _ _) => renamed.length sequence
      exact (carries_onMemory start lengths).bind fun _ => .pure rfl
  | copy => exact carries_onMemory start (Memory.carries_copySequence sequence)
  | insert =>
      refine (carries_indexOf second start).bind fun index => ?_
      exact (carries_onMemory start (Memory.carries_insertElement sequence index third)).bind fun _ => .pure rfl
  | remove =>
      refine (carries_indexOf second start).bind fun index => ?_
      exact (carries_onMemory start (Memory.carries_removeSlice sequence index _)).bind fun _ => .pure rfl
  | slice =>
      refine (carries_indexOf second start).bind fun first => (carries_indexOf third start).bind fun finish => ?_
      exact carries_onMemory start (Memory.carries_copySlice sequence first finish)
  | insertSlice =>
      refine (carries_indexOf second start).bind fun index => ?_
      exact (carries_onMemory start (Memory.carries_insertSequence sequence index third)).bind fun _ => .pure rfl
  | removeSlice =>
      refine (carries_indexOf second start).bind fun first => (carries_indexOf third start).bind fun finish => ?_
      exact (carries_onMemory start (Memory.carries_removeSlice sequence first finish)).bind fun _ => .pure rfl
  | sameReference =>
      cases sequence with
      | missing | number _ | function _ => exact carries_raise _ start
      | string a =>
          cases second with
          | string b => exact .pure (by rw [beq_handle]; rfl)
          | missing | number _ | list _ | function _ => exact carries_raise _ start
      | list a =>
          cases second with
          | list b => exact .pure (by rw [beq_handle]; rfl)
          | missing | number _ | string _ | function _ => exact carries_raise _ start

theorem carries_showMenu [Console κ] (title options : Value) (start : Address) :
    Eval.Carries (κ := κ) names names.value (showMenu title options start)
      (showMenu (names.value title) (names.value options) start) := by
  cases title with
  | missing | number _ | list _ | function _ => exact carries_raise _ start
  | string title =>
      refine (carries_shownText (.string title) start).bind fun text => ?_
      cases options with
      | missing | number _ | string _ | function _ => exact carries_raise _ start
      | list cell =>
          refine (carries_onMemory start (Memory.carries_list cell)).bind fun values => ?_
          rw [List.isEmpty_map]
          split
          · exact carries_raise _ start
          refine (carries_mapM_shownText values start).bind fun labels => (carries_ask _).bind fun choice => ?_
          cases choice with
          | selected index => exact carries_resume.bind fun _ => .pure rfl
          | cancelled | failed => exact .throw rfl

theorem carries_applyConsole [Console κ] (function : ConsoleFunction) (arguments : List Value) (start : Address) :
    Eval.Carries (κ := κ) names names.value (applyConsole function arguments start)
      (applyConsole function (arguments.map names.value) start) := by
  unfold applyConsole
  simp only [value_getD]
  cases function with
  | print =>
      refine (carries_shownText _ start).bind fun text => (carries_ask _).bind fun goesOn => ?_
      simp only [id_eq]
      split
      · exact carries_resume.bind fun _ => .pure rfl
      · exact .throw rfl
  | askText =>
      refine (carries_ask _).bind fun answer => ?_
      cases answer with
      | none => exact .throw rfl
      | some text => exact carries_resume.bind fun _ => carries_stringOf text start
  | askNumber =>
      refine (carries_ask _).bind fun answer => ?_
      cases answer with
      | none => exact .throw rfl
      | some number => exact carries_resume.bind fun _ => .pure rfl
  | menu => exact carries_showMenu _ _ start

theorem carries_applyFile (inside : Inner.Carries names inner) (function : FileFunction) (arguments : List Value)
    (start : Address) :
    Eval.Carries names names.value (applyFile inner function arguments start)
      (applyFile inner function (arguments.map names.value) start) := by
  unfold applyFile
  simp only [value_getD]
  refine (carries_bytesOf _ start).bind fun name => .get_bind fun machine other renamed => ?_
  simp only [renamed.store, id_eq]
  cases found : machine.store.find? name with
  | none =>
      cases function with
      | «exists» => exact .pure rfl
      | create => exact (carries_onStore start _).bind fun _ => .pure rfl
      | delete | size | rename | read | write | run => exact carries_raise _ start
  | some slot =>
      cases function with
      | «exists» => exact .pure rfl
      | create => exact (carries_onStore start _).bind fun _ => .pure rfl
      | size =>
          refine .get_bind fun machine other renamed => ?_
          rw [renamed.store]
          exact .pure rfl
      | delete => exact (carries_onStore start _).bind fun _ => .pure rfl
      | rename =>
          exact (carries_bytesOf _ start).bind fun newName => (carries_onStore start _).bind fun _ => .pure rfl
      | read =>
          refine (carries_indexOf _ start).bind fun index => (carries_indexOf _ start).bind fun amount => ?_
          refine .get_bind fun machine other renamed => ?_
          simp only [renamed.store, id_eq]
          cases machine.store.readData slot index amount with
          | error error => exact carries_fail _ start
          | ok data => exact (carries_onMemory start (Memory.carries_createString data)).bind fun _ => .pure rfl
      | write => exact (carries_bytesOf _ start).bind fun data => (carries_onStore start _).bind fun _ => .pure rfl
      | run => exact (inside.code _).bind fun _ => .pure rfl

theorem carries_readFunctionArguments (inside : Inner.Carries names inner) (start : Address) (array : Nat)
    (isDefinition : Bool) (count : Nat) (address : Address) :
    Eval.Carries names (renameArguments names) (readFunctionArguments inner start array isDefinition count address)
      (readFunctionArguments inner start array isDefinition count address) := by
  induction count generalizing address with
  | zero => exact .pure rfl
  | succ count ih =>
      refine (inside.argument address).bind fun argument => ?_
      rw [isMissing_expression]
      split
      · exact carries_raise _ start
      refine (carries_trackIn array argument.value).bind fun _ => ?_
      split
      · exact .pure rfl
      refine (carries_byteAt argument.code).bind fun byte => ?_
      simp only [id_eq]
      split
      · exact carries_raise _ start
      · exact (ih _).bind fun _ => .pure rfl

theorem carries_applyBuiltin [Console κ] (inside : Inner.Carries names inner) (builtin : Builtin)
    (expression : Expression) (isStatement : Bool) :
    Eval.Carries names names.expression (applyBuiltin inner builtin expression isStatement)
      (applyBuiltin inner builtin (names.expression expression) isStatement) := by
  refine .get_bind fun machine other renamed => ?_
  rw [renamed.store]
  refine carries_trackValues.bind fun array => ?_
  refine (carries_readFunctionArguments inside expression.start array _ _ _).bind fun (arguments, code) => ?_
  let called : Expression := { expression with code }
  cases builtin with
  | control function =>
      cases isStatement with
      | false => exact carries_raise _ expression.start
      | true =>
          have first : (arguments.map names.value).headD .missing = names.value (arguments.headD .missing) := by
            cases arguments <;> rfl
          simp only [renameArguments, first, if_true]
          exact carries_control function _ called
  | math function => exact (carries_applyMath function arguments expression.start).bind fun _ => .pure rfl
  | value function => exact (carries_applyValue function arguments expression.start).bind fun _ => .pure rfl
  | console function => exact (carries_applyConsole function arguments expression.start).bind fun _ => .pure rfl
  | file function => exact (carries_applyFile inside function arguments expression.start).bind fun _ => .pure rfl

end Machine

end PocketScript
