import PocketScript.Proofs.Schedule.Calls

/-! # Built-in functions of two runs

The functions of the language, given arguments alike, on two machines that are
alike but for handles. What they show, draw or store is the same.
-/

namespace PocketScript

open Eval (Calm Tally StaysSpent)

variable {κ α β : Type} {pairing next : Pairing} {value value' : Value} {address start : Address}
  {expression expression' : Expression} {inner : Inner κ} {arguments arguments' : List Value}

theorem mirrors_getD (alike : List.Forall₂ (Value.Mirrors pairing) arguments arguments') (index : Nat) :
    (arguments.getD index .missing).Mirrors pairing (arguments'.getD index .missing) := by
  induction alike generalizing index with
  | nil => exact .missing
  | cons first rest ih =>
      cases index with
      | zero => exact first
      | succ index => exact ih index

theorem mirrors_headD (alike : List.Forall₂ (Value.Mirrors pairing) arguments arguments') :
    (arguments.headD .missing).Mirrors pairing (arguments'.headD .missing) := by
  cases alike with
  | nil => exact .missing
  | cons first rest => exact first

namespace Machine

theorem calm_numberOf (alike : value.Mirrors pairing value') (start : Address) :
    Calm pairing (numberOf value start : Eval κ Float32) (numberOf value' start) Eq := by
  cases alike with
  | number number => exact .pure rfl
  | missing | string _ | list _ | function _ => exact .raise _ _

theorem calm_indexOf (alike : value.Mirrors pairing value') (start : Address) :
    Calm pairing (indexOf value start : Eval κ Int) (indexOf value' start) Eq := by
  refine (calm_numberOf alike start).bind_eq fun number => ?_
  exact .pure rfl

theorem calm_bytesOf (alike : value.Mirrors pairing value') (start : Address) :
    Calm pairing (bytesOf value start : Eval κ (List UInt8)) (bytesOf value' start) Eq := by
  cases alike with
  | string paired => exact .viewMemory start fun _ _ mirrors => mirrors.string paired
  | missing | number _ | list _ | function _ => exact .raise _ _

theorem calm_shownText (alike : value.Mirrors pairing value') (start : Address) :
    Calm pairing (shownText value start : Eval κ String) (shownText value' start) Eq := by
  have bytes := calm_bytesOf (κ := κ) alike start
  cases alike with
  | number number => exact .pure rfl
  | string paired =>
      refine bytes.bind_eq fun bytes => ?_
      exact .pure rfl
  | missing | list _ | function _ => exact .raise _ _

theorem calm_mapM_shownText (alike : List.Forall₂ (Value.Mirrors pairing) arguments arguments') (start : Address) :
    Calm pairing (arguments.mapM (shownText · start) : Eval κ (List String)) (arguments'.mapM (shownText · start))
      Eq := by
  induction alike with
  | nil => exact .pure rfl
  | cons first rest ih =>
      rw [List.mapM_cons, List.mapM_cons]
      refine (calm_shownText first start).bind_eq fun text => ?_
      refine ih.bind_eq fun texts => ?_
      exact .pure rfl

theorem calm_draw : Calm pairing (draw : Eval κ Nat) draw Eq := by
  refine .steps fun machine other mirrors => ⟨_, _, _, _, rfl, rfl, ⟨⟨?_, ?_, ?_, ?_⟩, ?_, ?_⟩, ?_⟩
  · exact mirrors.store
  · exact mirrors.console
  · exact congrArg (fun draws : RandomSource => draws.draw.2) mirrors.draws
  · exact mirrors.fault?
  · exact mirrors.maxDepth
  · exact mirrors.memory
  · exact congrArg (fun draws : RandomSource => draws.draw.1) mirrors.draws.symm

theorem calm_randomBetween (lowest highest : Int32) (start : Address) :
    Calm pairing (randomBetween lowest highest start : Eval κ Float32) (randomBetween lowest highest start) Eq := by
  dsimp only [randomBetween]
  split
  · exact .raise _ _
  · refine calm_draw.bind_eq fun number => ?_
    exact .pure rfl

theorem calm_applyMath (function : MathFunction) (alike : List.Forall₂ (Value.Mirrors pairing) arguments arguments')
    (start : Address) :
    Calm pairing (applyMath function arguments start : Eval κ Value) (applyMath function arguments' start)
      (Value.Mirrors pairing) := by
  have argument (index : Nat) := calm_numberOf (κ := κ) (mirrors_getD alike index) start
  have one {change : Float32 → Float32} : Calm pairing
      (do return .number (change (← numberOf (arguments.getD 0 .missing) start)) : Eval κ Value)
      (do return .number (change (← numberOf (arguments'.getD 0 .missing) start))) (Value.Mirrors pairing) := by
    refine (argument 0).bind_eq fun number => ?_
    exact .pure (.number _)
  cases function with
  | random =>
      refine calm_draw.bind_eq fun number => ?_
      exact .pure (.number _)
  | randomInteger =>
      refine (argument 0).bind_eq fun lowest => ?_
      refine (argument 1).bind_eq fun highest => ?_
      refine (calm_randomBetween _ _ start).bind_eq fun number => ?_
      exact .pure (.number _)
  | absolute => exact one
  | round => exact one
  | floor => exact one
  | ceiling => exact one
  | sine => exact one
  | cosine => exact one
  | tangent => exact one
  | squareRoot =>
      refine (argument 0).bind_eq fun x => ?_
      split
      · exact .raise _ _
      · exact .pure (.number _)
  | power | logarithm =>
      refine (argument 0).bind_eq fun x => ?_
      refine (argument 1).bind_eq fun y => ?_
      split
      · exact .raise _ _
      · exact .pure (.number _)

theorem tally_stringOf (text : String) (start : Address) :
    Tally pairing (stringOf text start : Eval κ Value) (stringOf text start) Value.Mirrors :=
  (Tally.createString start _).bind (by grind) (by grind) fun _ _ _ _ paired => .pure (.string paired)

/-- Cells that go together are the same on one side as on the other. -/
theorem calm_sameReference {cell cell' found found' : Handle} (paired : pairing cell cell')
    (paired' : pairing found found') :
    Calm pairing (pure (.number (ofTruth (cell == found))) : Eval κ Value)
      (pure (.number (ofTruth (cell' == found')))) (Value.Mirrors pairing) := by
  refine .steps fun machine other mirrors => ⟨_, _, _, _, rfl, rfl, mirrors, ?_⟩
  have same : (cell' == found') = (cell == found) := by
    rw [Bool.eq_iff_iff, beq_iff_eq, beq_iff_eq, eq_comm, eq_comm (a := cell)]
    exact (mirrors.memory.paired _ _ _ _ paired paired').symm
  rw [same]
  exact .number _

theorem tally_applyValue (function : ValueFunction) (alike : List.Forall₂ (Value.Mirrors pairing) arguments arguments')
    (start : Address) :
    Tally pairing (applyValue function arguments start : Eval κ Value) (applyValue function arguments' start)
      Value.Mirrors := by
  have argument := mirrors_getD alike
  have index (position : Nat) := calm_indexOf (κ := κ) (argument position) start
  have bytes := calm_bytesOf (κ := κ) (argument 0) start
  cases function with
  | number =>
      have sequence := argument 0
      dsimp only [applyValue]
      generalize arguments.getD 0 .missing = found, arguments'.getD 0 .missing = found' at sequence bytes ⊢
      cases sequence with
      | missing | list _ | function _ => exact .raise _ _
      | number number => exact .pure (.number number)
      | string paired =>
          refine bytes.bind_eq_tally fun bytes => ?_
          exact .pure (.number _)
  | string =>
      have sequence := argument 0
      dsimp only [applyValue]
      generalize arguments.getD 0 .missing = found, arguments'.getD 0 .missing = found' at sequence ⊢
      cases sequence with
      | missing | list _ | function _ => exact .raise _ _
      | number number => exact tally_stringOf _ start
      | string paired => exact .pure (.string paired)
  | type =>
      have sequence := argument 0
      dsimp only [applyValue]
      generalize arguments.getD 0 .missing = found, arguments'.getD 0 .missing = found' at sequence ⊢
      cases sequence with
      | missing | number _ | string _ | list _ | function _ => exact .pure (.number _)
  | length =>
      refine (Calm.viewMemory start fun _ _ mirrors => mirrors.length (argument 0)).bind_eq_tally fun length => ?_
      exact .pure (.number _)
  | copy => exact .copy start (.whole (argument 0))
  | insert =>
      refine (index 1).bind_eq_tally fun index => ?_
      refine (Tally.edit start (.insertElement (argument 0) index (argument 2)) Eval.isOfMemory).bind (by grind)
        (by grind) fun _ _ _ _ _ => ?_
      exact .pure .missing
  | remove =>
      refine (index 1).bind_eq_tally fun index => ?_
      refine (Tally.edit start (.removeSlice (argument 0) index (index + 1)) Eval.isOfMemory).bind (by grind)
        (by grind) fun _ _ _ _ _ => ?_
      exact .pure .missing
  | slice =>
      refine (index 1).bind_eq_tally fun first => ?_
      refine (index 2).bind_eq_tally fun finish => ?_
      exact .copy start (.slice (argument 0) first finish)
  | insertSlice =>
      refine (index 1).bind_eq_tally fun index => ?_
      refine (Tally.edit start (.insertSequence (argument 0) index (argument 2)) Eval.isOfMemory).bind (by grind)
        (by grind) fun _ _ _ _ _ => ?_
      exact .pure .missing
  | removeSlice =>
      refine (index 1).bind_eq_tally fun first => ?_
      refine (index 2).bind_eq_tally fun finish => ?_
      refine (Tally.edit start (.removeSlice (argument 0) first finish) Eval.isOfMemory).bind (by grind)
        (by grind) fun _ _ _ _ _ => ?_
      exact .pure .missing
  | sameReference =>
      have sequence := argument 0
      have other := argument 1
      dsimp only [applyValue]
      generalize arguments.getD 0 .missing = found, arguments'.getD 0 .missing = found',
        arguments.getD 1 .missing = second, arguments'.getD 1 .missing = second' at sequence other ⊢
      cases sequence with
      | missing | number _ | function _ => exact .raise _ _
      | string paired =>
          cases other with
          | string paired' => exact (calm_sameReference paired paired').tally
          | missing | number _ | list _ | function _ => exact .raise _ _
      | list paired =>
          cases other with
          | list paired' => exact (calm_sameReference paired paired').tally
          | missing | number _ | string _ | function _ => exact .raise _ _

section

variable [Console κ]

theorem calm_showMenu {options options' : Value} (titles : value.Mirrors pairing value')
    (alike : options.Mirrors pairing options') (start : Address) :
    Calm pairing (showMenu value options start : Eval κ Value) (showMenu value' options' start)
      (Value.Mirrors pairing) := by
  have shown := calm_shownText (κ := κ) titles start
  cases titles with
  | missing | number _ | list _ | function _ => exact .raise _ _
  | string paired =>
      refine shown.bind_eq fun title => ?_
      cases alike with
      | missing | number _ | string _ | function _ => exact .raise _ _
      | list paired =>
          refine (Calm.viewMemory start fun _ _ mirrors => mirrors.list paired).bind fun values values' held => ?_
          have empty : values'.isEmpty = values.isEmpty := by
            cases held <;> rfl
          rw [empty]
          split
          · exact .raise _ _
          refine (calm_mapM_shownText held start).bind_eq fun labels => ?_
          refine (Calm.ask _).bind_eq fun choice => ?_
          cases choice with
          | selected index =>
              refine Calm.resume.bind fun _ _ _ => ?_
              exact .pure (.number _)
          | cancelled | failed => exact .quit

theorem tally_applyConsole (function : ConsoleFunction)
    (alike : List.Forall₂ (Value.Mirrors pairing) arguments arguments') (start : Address) :
    Tally pairing (applyConsole function arguments start : Eval κ Value) (applyConsole function arguments' start)
      Value.Mirrors := by
  have argument := mirrors_getD alike
  cases function with
  | print =>
      refine (calm_shownText (argument 0) start).bind_eq_tally fun text => ?_
      refine (Calm.ask _).bind_eq_tally fun goes => ?_
      split
      · refine Calm.resume.bind_tally fun _ _ _ => ?_
        exact .pure .missing
      · exact Calm.quit.tally
  | askText =>
      refine (Calm.ask _).bind_eq_tally fun text? => ?_
      cases text? with
      | none => exact Calm.quit.tally
      | some text => exact Calm.resume.bind_tally fun _ _ _ => tally_stringOf text start
  | askNumber =>
      refine (Calm.ask _).bind_eq_tally fun number? => ?_
      cases number? with
      | none => exact Calm.quit.tally
      | some number => exact Calm.resume.bind_tally fun _ _ _ => .pure (.number number)
  | menu => exact (calm_showMenu (argument 0) (argument 1) start).tally

end

theorem tally_applyFile (tallies : Inner.Tallies inner) (function : FileFunction)
    (alike : List.Forall₂ (Value.Mirrors pairing) arguments arguments') (start : Address) :
    Tally pairing (applyFile inner function arguments start) (applyFile inner function arguments' start)
      Value.Mirrors := by
  have argument := mirrors_getD alike
  have index (position : Nat) := calm_indexOf (κ := κ) (argument position) start
  have bytes (position : Nat) := calm_bytesOf (κ := κ) (argument position) start
  refine (bytes 0).bind_eq_tally fun name => ?_
  refine Tally.get_bind fun machine other mirrors => ?_
  rw [mirrors.store]
  dsimp only
  split
  · exact .pure (.number _)
  · refine (Calm.onStore start _).bind_eq_tally fun slot => ?_
    exact .pure .missing
  · exact .raise _ _
  · refine Tally.get_bind fun machine other mirrors => ?_
    rw [mirrors.store]
    exact .pure (.number _)
  · refine (Calm.onStore start _).bind_tally fun _ _ _ => ?_
    exact .pure .missing
  · refine (bytes 1).bind_eq_tally fun newName => ?_
    refine (Calm.onStore start _).bind_tally fun _ _ _ => ?_
    exact .pure .missing
  · refine (index 1).bind_eq_tally fun first => ?_
    refine (index 2).bind_eq_tally fun amount => ?_
    refine Tally.get_bind fun machine other mirrors => ?_
    rw [mirrors.store]
    split
    · exact (Calm.fail _ _).tally
    · refine (Tally.createString start _).bind (by grind) (by grind) fun _ _ _ _ paired => ?_
      exact .pure (.string paired)
  · refine (bytes 1).bind_eq_tally fun data => ?_
    refine (Calm.onStore start _).bind_tally fun _ _ _ => ?_
    exact .pure .missing
  · refine (tallies.code pairing _).bind (by grind) (by grind) fun _ _ _ _ _ => ?_
    exact .pure .missing

theorem tally_readFunctionArguments (tallies : Inner.Tallies inner) (start : Address) (array array' : Nat)
    (isDefinition : Bool) (count : Nat) (address : Address) :
    Tally pairing (readFunctionArguments inner start array isDefinition count address)
      (readFunctionArguments inner start array' isDefinition count address)
      fun next result result' => List.Forall₂ (Value.Mirrors next) result.1 result'.1 ∧ result.2 = result'.2 := by
  have stays := staysSpent_readFunctionArguments tallies.stays
  induction count generalizing pairing address with
  | zero => exact .pure ⟨.nil, rfl⟩
  | succ count ih =>
      refine (tallies.argument pairing _).bind (by grind) (by grind) fun next argument argument' grown arguments => ?_
      obtain ⟨start', code', arguments, -, -⟩ := arguments
      dsimp only
      rw [arguments.isMissing_eq]
      split
      · exact .raise _ _
      refine (Calm.modifyRoots _ _).bind_tally fun _ _ _ => ?_
      split
      · exact .pure ⟨.cons arguments .nil, rfl⟩
      refine (Calm.byteAt code').bind_eq_tally fun byte => ?_
      split
      · exact .raise _ _
      refine (ih _).bind (by grind) (by grind) fun next' rest rest' grown' results => ?_
      exact .pure ⟨.cons (arguments.mono grown') results.1, results.2⟩

theorem tally_applyBuiltin [Console κ] (tallies : Inner.Tallies inner) (builtin : Builtin)
    (alike : expression.Mirrors pairing expression') (isStatement : Bool) :
    Tally pairing (applyBuiltin inner builtin expression isStatement)
      (applyBuiltin inner builtin expression' isStatement) Expression.Mirrors := by
  have files := staysSpent_applyFile tallies.stays
  obtain ⟨start, code, values, destinations, hold⟩ := alike
  refine Tally.get_bind fun machine other mirrors => ?_
  rw [mirrors.store]
  refine Calm.trackValues.bind_tally fun array array' _ => ?_
  refine (tally_readFunctionArguments tallies start array array' _ _ _).bind ?_ ?_ ?_
  · cases builtin <;> grind
  · cases builtin <;> grind
  rintro next ⟨arguments, code⟩ ⟨arguments', _⟩ grown ⟨alike, rfl⟩
  have values := values.mono grown
  have destinations := Destination.rel_mono destinations grown
  cases builtin with
  | control function =>
      dsimp only
      split
      · exact tally_control function (mirrors_headD alike) (.parts start code values destinations hold)
      · exact .raise _ _
  | math function =>
      refine (calm_applyMath function alike start).bind_tally fun _ _ results => ?_
      exact .pure (.parts _ _ results destinations _)
  | value function =>
      refine (tally_applyValue function alike start).bind (by grind) (by grind) fun next' _ _ grown' results => ?_
      exact .pure (.parts _ _ results (Destination.rel_mono destinations grown') _)
  | console function =>
      refine (tally_applyConsole function alike start).bind (by grind) (by grind) fun next' _ _ grown' results => ?_
      exact .pure (.parts _ _ results (Destination.rel_mono destinations grown') _)
  | file function =>
      refine (tally_applyFile tallies function alike start).bind (by grind) (by grind)
        fun next' _ _ grown' results => ?_
      exact .pure (.parts _ _ results (Destination.rel_mono destinations grown') _)

end Machine

end PocketScript
