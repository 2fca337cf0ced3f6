import PocketScript.Proofs.Machine.Places

/-! # Operands

An expression is read in steps: first what it starts with, and then whatever
binds to it from behind. What was read last is the outermost operation of the
operand that stands there for what comes next, and it decides whether the operand
has its value from a place.
-/

namespace PocketScript

/-- The outermost operation of an operand. -/
inductive Production where
  | name
  | literal
  | builtin
  | sign
  | step
  | index
  | call
  | combination
  | writing
  deriving DecidableEq

namespace Production

/-- Whether it yields a value that is at no place. -/
def isDetached : Production → Bool
  | .literal | .builtin | .sign | .combination => true
  | .name | .step | .index | .call | .writing => false

/-- The operation that a byte opens; a parenthesis is none. -/
def ofByte? (byte : UInt8) : Option Production :=
  if Symbol.isDigit byte || byte == 0x2e then some .literal
  else if Symbol.startsName byte then some .name
  else if byte = 0x27 ∨ byte = 0x22 ∨ byte = 0x5b then some .literal
  else if byte = 0x28 then none
  else
    match Symbol.builtin? byte, UnaryOperator.ofByte? byte with
    | some _, _ => some .builtin
    | none, some (.step _) => some .step
    | none, some _ => some .sign
    | none, none => none

/-- The operation of an operator between two operands. -/
def ofOperator : BinaryOperator → Production
  | .combine _ | .compare _ => .combination
  | .assign | .update _ => .writing

end Production

namespace Machine

/-- An operand is read: `left` is what was read of an expression from `start` on
    up to some point, and the evaluation goes on at `after`. -/
inductive ReadsTo {κ : Type} [Console κ] (limit : Nat) : (levels : Nat) → (start : Address) → (ceiling : Nat) →
    (isStatement : Bool) → Machine κ → Production → Expression → Machine κ → Prop where
  | opened {levels start ceiling isStatement machine production left after}
      (running : machine.memory.stack.action.isIgnored = false)
      (opens : Production.ofByte? (machine.store.byte start) = some production)
      (ran : readPrimary (innerOf limit levels) (.starting start) isStatement machine = .ok left after) :
      ReadsTo limit levels start ceiling isStatement machine production left after
  | parenthesis {levels start ceiling isStatement machine production content reached ended left after}
      (running : machine.memory.stack.action.isIgnored = false)
      (opens : machine.store.byte start = 0x28)
      (inside : ReadsTo limit levels (start + 1) Inner.statementCeiling false machine production content reached)
      (whole : evaluate limit (levels + 1) (start + 1) Inner.statementCeiling false machine = .ok content ended)
      (ran : readPrimary (innerOf limit (levels + 1)) (.starting start) isStatement machine = .ok left after) :
      ReadsTo limit (levels + 1) start ceiling isStatement machine production left after
  | step {levels start ceiling isStatement machine production direction left after next last}
      (operand : ReadsTo limit levels start ceiling isStatement machine production left after)
      (here : Step.ofByte? (after.store.byte left.code) = some direction)
      (ran : (do Eval.track left.value; applyStep direction left) after = .ok next last) :
      ReadsTo limit levels start ceiling isStatement machine .step next last
  | index {levels start ceiling isStatement machine production left after next last}
      (operand : ReadsTo limit levels start ceiling isStatement machine production left after)
      (here : after.store.byte left.code = 0x5b)
      (ran : (do Eval.track left.value; applyIndex (innerOf limit levels) left) after = .ok next last) :
      ReadsTo limit levels start ceiling isStatement machine .index next last
  | call {levels start ceiling isStatement machine production left after next last}
      (operand : ReadsTo limit levels start ceiling isStatement machine production left after)
      (here : after.store.byte left.code = 0x3a ∨ after.store.byte left.code = 0x3b)
      (ran : (do Eval.track left.value; applyCall (innerOf limit levels) left) after = .ok next last) :
      ReadsTo limit levels start ceiling isStatement machine .call next last
  | operator {levels start ceiling isStatement machine production operator left after next last}
      (operand : ReadsTo limit levels start ceiling isStatement machine production left after)
      (here : BinaryOperator.ofByte? (after.store.byte left.code) = some operator)
      (binds : operator.precedence < ceiling)
      (ran : (do Eval.track left.value; applyBinary (innerOf limit levels) operator left) after = .ok next last) :
      ReadsTo limit levels start ceiling isStatement machine (.ofOperator operator) next last

open Eval (Gives)

variable {κ : Type} {machine after : Machine κ} {inner : Inner κ} {expression left : Expression}
  {production : Production} {limit levels ceiling steps : Nat} {start : Address} {isStatement : Bool}

/-- What the outermost operation of an operand says about its place. -/
structure Fits (production : Production) (left : Expression) : Prop where
  detached : production.isDetached = true → left.destination? = none
  nowhere : left.destination? = none → left.value.IsPlain ∧ (production.isDetached = true ∨ production = .name)

theorem Placeless.fits (placeless : Placeless left) (detached : production.isDetached = true) : Fits production left :=
  ⟨fun _ => placeless.destination, fun _ => ⟨placeless.value, .inl detached⟩⟩

theorem Fits.ofPlace (place : left.destination? ≠ none) (attached : production.isDetached = false) :
    Fits production left :=
  ⟨fun detached => by simp [attached] at detached, fun none => absurd none place⟩

theorem gives_readVariable (start : Address) :
    Gives (readVariable (.starting start)) machine fun result _ => Fits .name result := by
  refine Gives.any.bind fun name _ _ => .get_bind ?_
  dsimp only
  split
  · exact .pure (.ofPlace (Option.some_ne_none _) rfl)
  · exact .pure ⟨fun detached => Bool.noConfusion detached, fun _ => ⟨fun _ => Value.noConfusion, .inr rfl⟩⟩

theorem gives_applyUnary_step (direction : Step) :
    Gives (applyUnary inner (.step direction) expression) machine fun result _ => Fits .step result := by
  refine Gives.any.bind fun operand _ _ => ?_
  dsimp only
  split
  · exact .raise _
  · split
    · exact .raise _
    · exact Gives.any.bind fun _ _ _ => Gives.any.bind fun _ _ _ => .pure (.ofPlace (Option.some_ne_none _) rfl)
  · exact .raise _

/-- Parentheses hand over the place of what they enclose. -/
theorem gives_readParenthesis (inner : Inner κ) (start : Address) :
    Gives (readParenthesis inner (.starting start)) machine fun result _ => ∃ content ended,
      inner.argument (start + 1) machine = .ok content ended ∧ result.value = content.value ∧
        result.destination? = content.destination? := by
  refine Gives.bind (fun _ _ ran => ran : Gives _ machine fun content ended =>
    inner.argument (start + 1) machine = .ok content ended) ?_
  intro content ended ran
  refine .byteAt_bind ?_
  split
  · exact .raise _
  · exact .pure ⟨content, ended, ran, rfl, rfl⟩

theorem gives_applyStep (direction : Step) :
    Gives (applyStep direction left) machine fun result _ => result.destination? ≠ none := by
  unfold applyStep
  dsimp only
  split
  · split
    · exact .raise _
    · next place => exact Gives.any.bind fun _ _ _ => .pure (by simp [place])
  · exact .raise _

theorem gives_applyIndex :
    Gives (applyIndex inner left) machine fun result _ => result.destination? ≠ none := by
  unfold applyIndex
  dsimp only
  split
  · exact .raise _
  refine Gives.any.bind fun index _ _ => ?_
  split
  · exact .raise _
  refine .byteAt_bind ?_
  split
  · exact .raise _
  split
  · refine Gives.any.bind fun place _ _ => Gives.any.bind fun _ _ _ => Gives.any.bind fun _ _ _ => ?_
    exact .pure (Option.some_ne_none _)
  · exact .raise _

/-- Only a function can be called, and its place becomes that of the result. -/
theorem gives_applyCall :
    Gives (applyCall inner left) machine fun result _ =>
      (∃ header, left.value = .function header) ∧ result.destination? = left.destination? := by
  unfold applyCall
  dsimp only
  split
  · exact .raise _
  · next header function =>
    refine .get_bind (.get_bind (Gives.any.bind fun _ _ _ => Gives.any.bind fun arguments _ _ => ?_))
    split
    · exact .raise _
    · exact Gives.any.bind fun _ _ _ => Gives.any.bind fun _ _ _ => .pure ⟨⟨header, function⟩, rfl⟩
  · exact .raise _

theorem gives_assign (value : Value) :
    Gives (assign left value) machine fun result _ => result.destination? ≠ none := by
  unfold assign
  dsimp only
  split
  · next place => exact Gives.any.bind fun _ _ _ => .pure (by simp [place])
  · refine Gives.any.bind fun name _ _ => Gives.any.bind fun place _ _ => Gives.any.bind fun _ _ _ => ?_
    exact .pure (Option.some_ne_none _)

theorem gives_update (operator : Combination) (right : Value) :
    Gives (update operator left right) machine fun result _ => result.destination? ≠ none := by
  unfold update
  dsimp only
  split
  · exact .raise _
  next destination place =>
  have placed : left.destination? ≠ none := by simp [place]
  refine Gives.any.bind fun current _ _ => ?_
  split
  · split
    · exact Gives.any.bind fun _ _ _ => Gives.any.bind fun _ _ _ => .pure placed
    · exact .raise _
  · split
    · exact Gives.any.bind fun _ _ _ => .pure placed
    · exact .raise _
  · exact .raise _

theorem gives_applyBinary (operator : BinaryOperator) :
    Gives (applyBinary inner operator left) machine fun result _ => Fits (.ofOperator operator) result := by
  refine Gives.any.bind fun _ _ _ => Gives.any.bind fun right _ _ => Gives.any.bind fun _ _ _ => ?_
  split
  · exact .raise _
  dsimp only
  cases operator with
  | assign => exact (gives_assign _).mono fun _ _ place => .ofPlace place rfl
  | update operator => exact (gives_update _ _).mono fun _ _ place => .ofPlace place rfl
  | combine operator =>
      refine (gives_combine _ _ _ _).bind fun value _ plain => .pure ?_
      exact Placeless.fits ⟨rfl, plain⟩ rfl
  | compare operator =>
      refine (gives_compare _ _ _ _).bind fun value _ plain => .pure ?_
      exact Placeless.fits ⟨rfl, plain⟩ rfl

theorem ofByte?_none {byte : UInt8} (closed : Production.ofByte? byte = none) :
    (Symbol.isDigit byte || byte == 0x2e) = false ∧ Symbol.startsName byte = false ∧
      ¬ (byte = 0x27 ∨ byte = 0x22 ∨ byte = 0x5b) ∧
      (byte = 0x28 ∨ Symbol.builtin? byte = none ∧ UnaryOperator.ofByte? byte = none) := by
  unfold Production.ofByte? at closed
  split at closed
  · cases closed
  next digit =>
  split at closed
  · cases closed
  next name =>
  split at closed
  · cases closed
  next literal =>
  refine ⟨by simpa using digit, by simpa using name, literal, ?_⟩
  split at closed
  · next parenthesis => exact .inl parenthesis
  split at closed
  · cases closed
  · cases closed
  · cases closed
  · next builtin unary => exact .inr ⟨builtin, unary⟩

variable [Console κ]

theorem readPrimary_parenthesis (opens : machine.store.byte start = 0x28) (inner : Inner κ) (isStatement : Bool) :
    readPrimary inner (.starting start) isStatement machine = readParenthesis inner (.starting start) machine := by
  unfold readPrimary
  simp only [Bind.bind, EStateM.bind, Eval.byteAt, Expression.starting, get, getThe, MonadStateOf.get, EStateM.get,
    Pure.pure, EStateM.pure, opens]
  rfl

/-- An expression cannot start with any other byte. -/
theorem gives_readPrimary_none (closed : Production.ofByte? (machine.store.byte start) = none)
    (plain : machine.store.byte start ≠ 0x28) (isStatement : Bool) :
    Gives (readPrimary inner (.starting start) isStatement) machine fun _ _ => False := by
  obtain ⟨digit, name, literal, parenthesis | ⟨builtin, unary⟩⟩ := ofByte?_none closed
  · exact absurd parenthesis plain
  obtain ⟨character, string, list⟩ := not_or.mp literal |>.imp_right not_or.mp
  refine .byteAt_bind ?_
  dsimp only [Expression.starting]
  simp only [digit, name, character, string, list, plain, builtin, unary, Bool.false_eq_true, if_false]
  exact .raise _

theorem gives_readPrimary (opens : Production.ofByte? (machine.store.byte start) = some production)
    (isStatement : Bool) :
    Gives (readPrimary inner (.starting start) isStatement) machine fun result _ => Fits production result := by
  have bare := placeless_starting start
  have literal : ∀ {evaluation : Eval κ Expression}, Gives evaluation machine (fun result _ => Placeless result) →
      Gives evaluation machine fun result _ => Fits .literal result :=
    fun gives => gives.mono fun _ _ placeless => placeless.fits rfl
  refine .byteAt_bind ?_
  dsimp only [Expression.starting]
  unfold Production.ofByte? at opens
  split at opens
  · next digit =>
    obtain rfl := Option.some.inj opens
    rw [if_pos digit]
    exact literal (gives_readNumberLiteral bare)
  next digit =>
  rw [if_neg digit]
  split at opens
  · next name =>
    obtain rfl := Option.some.inj opens
    rw [if_pos name]
    exact gives_readVariable start
  next name =>
  rw [if_neg name]
  split at opens
  · obtain rfl := Option.some.inj opens
    split
    · exact literal (gives_readCharacterLiteral bare)
    split
    · exact literal (gives_readStringLiteral bare)
    split
    · exact literal (gives_readListLiteral bare)
    · next either character string list => simp [character, string, list] at either
  next other =>
  obtain ⟨character, string, list⟩ := not_or.mp other |>.imp_right not_or.mp
  rw [if_neg character, if_neg string, if_neg list]
  split at opens
  · cases opens
  next parenthesis =>
  rw [if_neg parenthesis]
  split at opens
  · next builtin found =>
    obtain rfl := Option.some.inj opens
    rw [found]
    exact (gives_applyBuiltin _ bare).mono fun _ _ placeless => placeless.fits rfl
  · next direction found unary =>
    obtain rfl := Option.some.inj opens
    rw [found, unary]
    exact gives_applyUnary_step direction
  · next operator sign found unary =>
    obtain rfl := Option.some.inj opens
    rw [found, unary]
    refine (gives_applyUnary (fun direction same => ?_) bare).mono fun _ _ placeless => placeless.fits rfl
    exact sign direction same
  · cases opens

/-- The outermost operation decides whether an operand has its value from a
    place. -/
theorem ReadsTo.fits (reads : ReadsTo limit levels start ceiling isStatement machine production left after) :
    Fits production left := by
  -- What is registered before an operation makes no difference to its result.
  have behind : ∀ {evaluation : Eval κ Expression} {left : Expression} {machine : Machine κ}
      {done : Expression → Prop} {result last}, (do Eval.track left.value; evaluation) machine = .ok result last →
      (∀ machine, Gives evaluation machine fun result _ => done result) → done result :=
    fun ran gives => (Gives.any.bind fun _ tracked _ => gives tracked :
      Gives _ _ fun result _ => _) _ _ ran
  induction reads with
  | opened running opens ran => exact gives_readPrimary opens _ _ _ ran
  | parenthesis running opens inside whole ran ih =>
      rw [readPrimary_parenthesis opens] at ran
      obtain ⟨content, ended, same, value, place⟩ := gives_readParenthesis _ _ _ _ ran
      obtain ⟨rfl, rfl⟩ := EStateM.Result.ok.inj (whole.symm.trans same)
      refine ⟨fun detached => place.trans (ih.detached detached), fun none => ?_⟩
      exact value ▸ ih.nowhere (place.symm.trans none)
  | step operand here ran ih => exact .ofPlace (behind ran fun _ => gives_applyStep _) rfl
  | index operand here ran ih => exact .ofPlace (behind ran fun _ => gives_applyIndex) rfl
  | call operand here ran ih =>
      obtain ⟨⟨header, function⟩, place⟩ := behind ran fun _ => gives_applyCall
      refine .ofPlace (fun none => ?_) rfl
      exact (ih.nowhere (place.symm.trans none)).1 header function
  | operator operand here binds ran ih => exact behind ran fun _ => gives_applyBinary _

/-- Every expression that is evaluated is read this way. -/
theorem reads_readRest (reads : ReadsTo limit levels start ceiling isStatement machine production left after) :
    Gives (readRest (innerOf limit levels) ceiling steps left) after fun result _ =>
      ∃ production reached, ReadsTo limit levels start ceiling isStatement machine production result reached := by
  induction steps generalizing production left after with
  | zero => exact .throw _
  | succ steps ih =>
      refine Gives.bind (?_ : Gives _ after fun _ tracked => Eval.track left.value after = .ok () tracked) ?_
      · exact fun _ _ ran => ran
      rintro _ tracked track
      have same : tracked.store = after.store := by cases track; rfl
      -- What ran after the value was registered ran with it.
      have joined : ∀ {evaluation : Eval κ Expression} {result last}, evaluation tracked = .ok result last →
          (do Eval.track left.value; evaluation) after = .ok result last := by
        intro evaluation result last ran
        simp only [Bind.bind, EStateM.bind, track, ran]
      have goes : ∀ {evaluation : Eval κ Expression},
          (∀ result last, (do Eval.track left.value; evaluation) after = .ok result last →
            ∃ production, ReadsTo limit levels start ceiling isStatement machine production result last) →
          Gives (do readRest (innerOf limit levels) ceiling steps (← evaluation)) tracked fun result _ => ∃ production
            reached, ReadsTo limit levels start ceiling isStatement machine production result reached := by
        intro evaluation read
        refine Gives.bind (fun _ _ ran => read _ _ (joined ran)) ?_
        rintro result last ⟨production, reads⟩
        exact ih reads
      refine .byteAt_bind ?_
      rw [same]
      split
      · next direction here => exact goes fun _ _ ran => ⟨_, reads.step here ran⟩
      · split
        · next here => exact goes fun _ _ ran => ⟨_, reads.index here ran⟩
        · split
          · next here => exact goes fun _ _ ran => ⟨_, reads.call here ran⟩
          · split
            · next operator here =>
              split
              · next binds => exact goes fun _ _ ran => ⟨_, reads.operator here binds ran⟩
              · exact .pure ⟨_, _, reads⟩
            · exact .pure ⟨_, _, reads⟩

/-- What an expression starts with is read this way if what parentheses enclose
    is. -/
theorem reads_readPrimary (ceiling : Nat) (running : machine.memory.stack.action.isIgnored = false)
    (inside : ∀ deeper, levels = deeper + 1 →
      Gives (evaluate limit (deeper + 1) (start + 1) Inner.statementCeiling false) machine fun content _ =>
        ∃ production reached,
          ReadsTo limit deeper (start + 1) Inner.statementCeiling false machine production content reached) :
    Gives (readPrimary (innerOf limit levels) (.starting start) isStatement) machine fun result after =>
      ∃ production, ReadsTo limit levels start ceiling isStatement machine production result after := by
  intro result after ran
  cases opens : Production.ofByte? (machine.store.byte start) with
  | some production => exact ⟨production, .opened running opens ran⟩
  | none =>
      by_cases parenthesis : machine.store.byte start = 0x28
      · have read := readPrimary_parenthesis parenthesis (innerOf limit levels) isStatement
        obtain ⟨content, ended, whole, -⟩ := gives_readParenthesis _ _ _ _ (read ▸ ran)
        cases levels with
        | zero => cases whole
        | succ deeper =>
            obtain ⟨production, reached, reads⟩ := inside deeper rfl _ _ whole
            exact ⟨production, .parenthesis running parenthesis reads whole ran⟩
      · exact False.elim (gives_readPrimary_none opens parenthesis isStatement _ _ ran)

/-- Reading leaves nothing out: whatever is evaluated was read this way. -/
theorem reads_evaluate (running : machine.memory.stack.action.isIgnored = false) :
    Gives (evaluate limit (levels + 1) start ceiling isStatement) machine fun result _ =>
      ∃ production reached, ReadsTo limit levels start ceiling isStatement machine production result reached := by
  induction levels using Nat.strongRecOn generalizing start ceiling isStatement with
  | ind levels ih =>
      rw [evaluate_succ]
      refine .get_bind (.always (.get_bind ?_))
      rw [running, if_neg Bool.false_ne_true]
      refine (reads_readPrimary ceiling running fun deeper below => ih deeper (by omega)).bind ?_
      rintro first after ⟨production, reads⟩
      exact reads_readRest reads

end Machine

end PocketScript
