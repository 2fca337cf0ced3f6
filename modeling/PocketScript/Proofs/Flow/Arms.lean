import PocketScript.Console.Script
import PocketScript.Proofs.Flow.Idling
import PocketScript.Proofs.Machine.Runs

/-! # Chains of arms

A chain of arms is in one of three states, which its block records. As long as no
arm was taken its conditions are evaluated one after the other, and the first
that holds takes its arm. At the condition behind that arm the rest of the chain
is given up, but not before that condition was evaluated too.
-/

namespace PocketScript

theorem Eval.Gives.ofYields {κ α : Type} {evaluation : Eval κ α} {machine : Machine κ} {done : α → Machine κ → Prop}
    (yields : Yields evaluation machine done) : Gives evaluation machine done := by
  intro result after ran
  unfold Yields at yields
  rwa [ran] at yields

namespace Machine

open Eval (Gives)

variable {κ : Type} [Console κ] {machine after last : Machine κ} {inner : Inner κ} {address code : Address}
  {limit levels : Nat}

/-- The machine with the innermost block in another state. -/
def withAction (action : BranchAction) (machine : Machine κ) : Machine κ :=
  { machine with memory := { machine.memory with stack := machine.memory.stack.setAction action } }

omit [Console κ] in
/-- The condition of an arm, as long as none was taken, decides whether this one
    is. -/
theorem gives_tryArm (inner : Inner κ) (address : Address) :
    Gives (tryArm inner (.starting address)) machine fun _ after => ∃ condition middle number,
      inner.argument (address + 1) (machine.withAction .run) = .ok condition middle ∧
        condition.value = .number number ∧
        after = middle.withAction (if isTrue number then .run else .ignoreSoft) := by
  refine Gives.bind (?_ : Gives _ machine fun _ running => running = machine.withAction .run) ?_
  · rintro _ _ ⟨⟩
    rfl
  rintro _ _ rfl
  refine Gives.bind (?_ : Gives _ _ fun condition after => ∃ middle,
    inner.argument (address + 1) (machine.withAction .run) = .ok condition middle ∧
      after = middle.withAction .ignoreSoft) ?_
  · refine .always fun condition middle ran => ?_
    exact ⟨middle, ran, rfl⟩
  rintro condition _ ⟨middle, ran, rfl⟩
  cases value : condition.value with
  | missing => exact .raise _
  | string _ | list _ | function _ => exact .raise _
  | number number =>
      dsimp only
      cases holds : isTrue number with
      | false => exact .pure ⟨condition, middle, number, ran, value, by simp [holds]⟩
      | true =>
          refine Gives.bind (?_ : Gives _ _ fun _ taken => taken = middle.withAction .run) ?_
          · rintro _ _ ⟨⟩
            simp only [withAction, ScopeStack.setAction_setAction]
          · rintro _ _ rfl
            exact .pure ⟨condition, middle, number, ran, value, by simp [holds]⟩

/-- As long as no arm was taken, an arm is tried by its condition. -/
theorem gives_evaluate_tried (soft : machine.memory.stack.action = .ignoreSoft)
    (here : machine.store.byte address = (Builtin.control .otherwiseWhen).byte) :
    Gives (evaluate limit levels address Inner.statementCeiling true) machine fun _ after =>
      ∃ deeper condition middle number, levels = deeper + 1 ∧
        evaluate limit deeper (address + 1) Inner.statementCeiling false (machine.withAction .run) =
          .ok condition middle ∧ condition.value = .number number ∧
        after.memory.stack = middle.memory.stack.setAction (if isTrue number then .run else .ignoreSoft) := by
  cases levels with
  | zero => exact .raise _
  | succ deeper =>
      have found := (Builtin.control .otherwiseWhen).byte_spec.2.2.2.2.2.2
      rw [← here] at found
      rw [evaluate_succ]
      refine .get_bind (.always ?_)
      refine .get_bind ?_
      rw [if_pos (by rw [soft]; rfl)]
      refine .get_bind (.byteAt_bind ?_)
      simp only [Expression.starting, found, soft, if_true]
      refine (gives_tryArm (innerOf limit deeper) address).bind ?_
      rintro _ _ ⟨condition, middle, number, ran, value, rfl⟩
      exact .pure ⟨deeper, condition, middle, number, rfl, ran, value, rfl⟩

omit [Console κ] in
/-- Where an expression ends, nothing binds to it. -/
theorem gives_readRest (inner : Inner κ) (ceiling steps : Nat) (expression : Expression) :
    Gives (readRest inner ceiling steps expression) machine fun result after =>
      StopsAt ceiling (after.store.byte result.code) := by
  induction steps generalizing machine expression with
  | zero => exact .throw _
  | succ steps ih =>
      have goes : ∀ {evaluation : Eval κ Expression} {tracked : Machine κ},
          Gives (do readRest inner ceiling steps (← evaluation)) tracked fun result after =>
            StopsAt ceiling (after.store.byte result.code) :=
        fun {evaluation tracked} => Gives.bind (fun _ _ _ => trivial : Gives evaluation tracked fun _ _ => True)
          fun result _ _ => ih result
      refine Gives.bind (fun _ _ _ => trivial : Gives _ machine fun _ _ => True) fun _ tracked _ => ?_
      refine .byteAt_bind ?_
      cases step : Step.ofByte? (tracked.store.byte expression.code) with
      | some direction => exact goes
      | none =>
          dsimp only
          split
          · exact goes
          · next index =>
            split
            · exact goes
            · next call =>
              cases found : BinaryOperator.ofByte? (tracked.store.byte expression.code) with
              | none => exact .pure (stopsAt_of_none _ ⟨step, index, call, found⟩)
              | some operator =>
                  dsimp only
                  split
                  · exact goes
                  · next above =>
                    refine .pure ⟨step, index, call, fun other same => ?_⟩
                    obtain rfl : operator = other := by simpa [found] using same
                    omega

theorem gives_evaluate_stops {ceiling : Nat} {isStatement : Bool}
    (running : machine.memory.stack.action.isIgnored = false) :
    Gives (evaluate limit levels address ceiling isStatement) machine fun result after =>
      StopsAt ceiling (after.store.byte result.code) := by
  cases levels with
  | zero => exact .raise _
  | succ deeper =>
      rw [evaluate_succ]
      refine .get_bind (.always (.get_bind ?_))
      rw [running, if_neg Bool.false_ne_true]
      exact Gives.bind (fun _ _ _ => trivial : Gives _ machine fun _ _ => True) fun primary _ _ =>
        gives_readRest _ ceiling _ primary

/-- The machine when a condition is evaluated in front of its line. -/
def withArguments (machine : Machine κ) : Machine κ :=
  { machine with memory := { machine.memory with roots := machine.memory.roots.push (.values []) } }

/-- A condition that stands behind the byte of its line. -/
theorem gives_condition (running : machine.memory.stack.action.isIgnored = false) (array : Nat) (start : Address) :
    Gives (readFunctionArguments (innerOf limit levels) start array false 1 address) machine fun result after =>
      ∃ condition middle, evaluate limit levels address Inner.statementCeiling false machine = .ok condition middle ∧
        result = ([condition.value], condition.code) ∧ after.memory.stack = middle.memory.stack ∧
        StopsAt Inner.statementCeiling (after.store.byte condition.code) := by
  refine Gives.bind (?_ : Gives _ machine fun condition middle =>
    evaluate limit levels address Inner.statementCeiling false machine = .ok condition middle) ?_
  · exact fun condition middle ran => ran
  intro condition middle ran
  have stops := gives_evaluate_stops running condition middle ran
  split
  · exact .raise _
  · refine Gives.bind (?_ : Gives _ middle fun _ tracked =>
      tracked.store = middle.store ∧ tracked.memory.stack = middle.memory.stack) ?_
    · rintro _ _ ⟨⟩
      exact ⟨rfl, rfl⟩
    · rintro _ tracked ⟨store, stack⟩
      rw [if_pos rfl]
      refine .pure ⟨condition, middle, ran, rfl, stack, ?_⟩
      rw [store]
      exact stops

/-- A line with a condition, while statements run: the condition is evaluated, and
    what is done then depends on its value. -/
theorem gives_evaluate_conditional {function : Control} (changes : Value → ScopeStack → ScopeStack → Prop)
    (one : (Builtin.control function).arity? = some 1) (running : machine.memory.stack.action.isIgnored = false)
    (here : machine.store.byte address = (Builtin.control function).byte)
    (controls : ∀ (value : Value) (expression : Expression) (machine : Machine κ),
      Gives (control function value expression) machine fun result after => result = expression ∧
        after.store = machine.store ∧ changes value machine.memory.stack after.memory.stack) :
    Gives (evaluate limit levels address Inner.statementCeiling true) machine fun _ after =>
      ∃ deeper condition middle, levels = deeper + 1 ∧
        evaluate limit deeper (address + 1) Inner.statementCeiling false machine.withArguments = .ok condition middle ∧
        changes condition.value middle.memory.stack after.memory.stack := by
  cases levels with
  | zero => exact .raise _
  | succ deeper =>
      have primary : Gives (readPrimary (innerOf limit deeper) (.starting address) true) machine
          fun expression after => StopsAt Inner.statementCeiling (after.store.byte expression.code) ∧
            ∃ condition middle,
              evaluate limit deeper (address + 1) Inner.statementCeiling false machine.withArguments =
                .ok condition middle ∧ changes condition.value middle.memory.stack after.memory.stack := by
        unfold Gives
        rw [readPrimary_builtin here]
        refine Gives.get_bind ?_
        have definition : (Builtin.control function == .control .define) = false := by
          cases function <;> first | rfl | simp [Builtin.arity?] at one
        rw [one, definition]
        refine Gives.bind (?_ : Gives _ machine fun _ tracked => tracked = machine.withArguments) ?_
        · rintro _ _ ⟨⟩
          rfl
        rintro array _ rfl
        have running : machine.withArguments.memory.stack.action.isIgnored = false := running
        refine Gives.bind (gives_condition running array address) ?_
        rintro _ after ⟨condition, middle, ran, rfl, same, stops⟩
        refine (controls _ _ after).mono ?_
        rintro _ last ⟨rfl, store, changed⟩
        refine ⟨?_, condition, middle, ran, ?_⟩
        · rw [store]
          exact stops
        · rw [← same]
          exact changed
      rw [evaluate_succ]
      refine .get_bind (.always (.get_bind ?_))
      rw [running, if_neg Bool.false_ne_true]
      refine primary.bind ?_
      rintro expression after ⟨stops, condition, middle, ran, changed⟩
      refine (Gives.ofYields (yields_readRest Store.capacity stops)).mono ?_
      rintro _ last ⟨rfl, same⟩
      refine ⟨deeper, condition, middle, rfl, ran, ?_⟩
      rw [same.stack]
      exact changed

omit [Console κ] in
/-- The first condition opens the block of the chain. -/
theorem gives_control_whenTrue (value : Value) (expression : Expression) :
    Gives (control .whenTrue value expression) machine fun result after => result = expression ∧
      after.store = machine.store ∧ ∃ number, value = .number number ∧ after.memory.stack.blocks =
        ⟨if isTrue number then .run else .ignoreSoft, 0⟩ :: machine.memory.stack.blocks := by
  cases value with
  | missing | string _ | list _ | function _ =>
      exact Gives.bind (.raise _ : Gives _ machine fun _ _ => False) fun _ _ no => no.elim
  | number number =>
      refine Gives.bind (?_ : Gives _ machine fun _ after => after.store = machine.store ∧ after.memory.stack.blocks =
        ⟨if isTrue number then .run else .ignoreSoft, 0⟩ :: machine.memory.stack.blocks) ?_
      · refine .onMemoryStack fun _ stack changed => ⟨rfl, ?_⟩
        have opened := ScopeStack.blocks_pushBranch (ScopeStack.pushed_of_map changed)
        cases holds : isTrue number with
        | false | true =>
            rw [holds] at opened
            exact opened
      · rintro _ after ⟨store, blocks⟩
        exact .pure ⟨rfl, store, number, rfl, blocks⟩

omit [Console κ] in
theorem gives_control_otherwiseWhen (value : Value) (expression : Expression) :
    Gives (control .otherwiseWhen value expression) machine fun result after => result = expression ∧
      after.store = machine.store ∧ after.memory.stack = machine.memory.stack.setAction .ignoreHard := by
  refine Gives.bind (?_ : Gives _ machine fun _ after =>
    after.store = machine.store ∧ after.memory.stack = machine.memory.stack.setAction .ignoreHard) ?_
  · exact .onStack ⟨rfl, rfl⟩
  · exact fun _ after given_up => .pure ⟨rfl, given_up⟩

/-- The conditions of a chain are evaluated in turn until one holds, and behind the
    arm that is taken no more than one:

    * The first condition decides whether the first arm is taken.
    * As long as no arm was taken, the condition of an arm that is reached decides
      whether it is.
    * From there to the next arm, nothing is evaluated.
    * At the condition behind the arm that was taken, which is evaluated as well, the
      chain is given up. From there to its end nothing is evaluated. -/
theorem conditions_in_turn (limit levels : Nat) (address : Address) (ready : machine.Ready) :
    (machine.memory.stack.action.isIgnored = false →
      machine.store.byte address = (Builtin.control .whenTrue).byte →
      ∀ after code, Advances limit levels machine address after code →
        ∃ deeper condition middle number, levels = deeper + 1 ∧
          evaluate limit deeper (address + 1) Inner.statementCeiling false machine.withArguments =
            .ok condition middle ∧ condition.value = .number number ∧
          after.memory.stack.blocks =
            ⟨if isTrue number then .run else .ignoreSoft, 0⟩ :: middle.memory.stack.blocks) ∧
    (machine.memory.stack.action = .ignoreSoft →
      machine.store.byte address = (Builtin.control .otherwiseWhen).byte →
      ∀ after code, Advances limit levels machine address after code →
        ∃ deeper condition middle number, levels = deeper + 1 ∧
          evaluate limit deeper (address + 1) Inner.statementCeiling false (machine.withAction .run) =
            .ok condition middle ∧ condition.value = .number number ∧
          after.memory.stack = middle.memory.stack.setAction (if isTrue number then .run else .ignoreSoft)) ∧
    (∀ branch outer, machine.memory.stack.blocks = branch :: outer → branch.action = .ignoreSoft →
      ∀ after code, Within limit levels outer.length (fun middle code =>
          middle.memory.stack.blocks = branch :: outer → ¬ startsArm (middle.store.byte code))
          machine address after code →
        machine.Idles after ∧ Skipped branch outer after.memory.stack.blocks) ∧
    (machine.memory.stack.action.isIgnored = false →
      machine.store.byte address = (Builtin.control .otherwiseWhen).byte →
      ∀ after code, Advances limit levels machine address after code →
      ∀ branch outer, after.memory.stack.blocks = branch :: outer →
        branch.action = .ignoreHard ∧
          ∀ last code', Within limit levels outer.length (fun _ _ => True) after code last code' →
            after.Idles last ∧ Skipped branch outer last.memory.stack.blocks) := by
  have no_feed : ∀ {function : Control}, machine.store.byte address = (Builtin.control function).byte →
      machine.store.byte address ≠ 0x0a := by
    intro function here feed
    have ends := (Builtin.control function).endsLine_byte
    rw [← here, feed] at ends
    simp [Store.endsLine] at ends
  refine ⟨fun running here after code advances => ?_, fun soft here after code advances => ?_,
    fun branch outer blocks soft after code within => ?_,
    fun running here after code advances branch outer blocks => ?_⟩
  · obtain ⟨middle, ⟨deeper, condition, evaluated, level, ran, number, value, opened⟩, -, same⟩ :=
      advances.statement_gives ready (no_feed here)
        (gives_evaluate_conditional (fun value before after => ∃ number, value = .number number ∧ after.blocks =
            ⟨if isTrue number then .run else .ignoreSoft, 0⟩ :: before.blocks) rfl running here
          fun value expression _ => gives_control_whenTrue value expression)
    refine ⟨deeper, condition, evaluated, number, level, ran, value, ?_⟩
    rw [same]
    exact opened
  · obtain ⟨middle, ⟨deeper, condition, evaluated, number, level, ran, value, stack⟩, -, same⟩ :=
      advances.statement_gives ready (no_feed here) (gives_evaluate_tried soft here)
    exact ⟨deeper, condition, evaluated, number, level, ran, value, same.trans stack⟩
  · exact within.idles ready blocks (by rw [soft]; rfl) fun _ _ _ other => other
  · obtain ⟨middle, ⟨-, -, before, -, -, given_up⟩, idles, same⟩ :=
      advances.statement_gives ready (no_feed here)
        (gives_evaluate_conditional (fun _ before after => after = before.setAction .ignoreHard) rfl running here
          fun value expression _ => gives_control_otherwiseWhen value expression)
    have hard : branch.action = .ignoreHard := by
      rw [same, given_up, ScopeStack.blocks_setAction] at blocks
      cases blocks_before : before.memory.stack.blocks with
      | nil => simp [blocks_before] at blocks
      | cons first rest =>
          rw [blocks_before] at blocks
          obtain ⟨rfl, -⟩ := List.cons.inj blocks
          rfl
    refine ⟨hard, fun last code' within => ?_⟩
    exact within.idles idles.ready blocks (by rw [hard]; rfl) fun soft => by simp [hard] at soft

omit [Console κ] in
/-- What is stored does not matter. -/
theorem Ready.ofStore (ready : machine.Ready) (store : Store) : Machine.Ready { machine with store } :=
  ⟨⟨ready.harmless, ready.sound⟩, ready.tracked⟩

/-- A program with three arms, of which the first is taken:

        if:1
        elif:1
        elif:1/0
        end;
-/
def slotOfArms : List UInt8 :=
  [1, 77, 65, 73, 78] ++ List.replicate 12 0 ++ [12, 0] ++ [152, 49, 10, 153, 49, 10, 153, 49, 47, 48, 10, 155, 0]

/-- A machine in the first arm of that program. -/
def inFirstArm : Machine Script :=
  let machine := start (Store.ofImage slotOfArms.toArray) (Script.ofAnswers []) Configuration.standard
  { machine with
    memory := { machine.memory with
      stack := ⟨#[⟨0, 18, #[], [⟨.run, 0⟩, ⟨.run, 0⟩], 2⟩]⟩
      roots := #[.scope 0] } }

theorem ready_inFirstArm : inFirstArm.Ready := by
  have wellFormed : (Memory.empty Configuration.standard.regionSize).heap.WellFormed := .empty _
  obtain ⟨heap, consistent, -, -⟩ := Memory.sound_reset wellFormed
  refine ⟨⟨fun address same => by simp [inFirstArm, start] at same, heap, consistent, ?_, ?_⟩, ?_⟩
  · rintro ⟨scope, index⟩ binding here
    cases scope with
    | zero | succ scope => simp [inFirstArm, ScopeStack.variableAt?] at here
  · rintro value ⟨root, mem, holds⟩
    obtain rfl : root = .scope 0 := by simpa [inFirstArm] using mem
    simp [Root.registered] at holds
  · intro index inside
    obtain rfl : index = 0 := by simpa [inFirstArm] using inside
    simp [inFirstArm]

/-- The condition of the third arm is passed. -/
theorem idles_inFirstArm : ∃ after branch outer last, Advances 9 9 inFirstArm 22 after 24 ∧
    after.memory.stack.blocks = branch :: outer ∧ branch.action = .ignoreHard ∧
    Within 9 9 outer.length (fun _ _ => True) after 24 last 29 ∧ after.Idles last := by
  have second : (advance? 9 9 inFirstArm 22).map (fun run => (run.1.memory.stack.blocks, run.2)) =
      some ([⟨.ignoreHard, 0⟩, ⟨.run, 0⟩], 24) := by
    unfold inFirstArm
    rw [ofImage_toArray slotOfArms (by decide +kernel)]
    decide +kernel
  have rest : (advance? 9 9 inFirstArm 22).bind (fun run => (advance? 9 9 run.1 run.2).bind fun next =>
      (advance? 9 9 next.1 next.2).map fun last =>
        (next.1.memory.stack.blocks.length, next.2, last.1.memory.stack.blocks.length, last.2)) =
      some (2, 25, 2, 29) := by
    unfold inFirstArm
    rw [ofImage_toArray slotOfArms (by decide +kernel)]
    decide +kernel
  obtain ⟨⟨after, code⟩, advances, same⟩ := Option.map_eq_some_iff.mp second
  obtain ⟨blocks, rfl⟩ : after.memory.stack.blocks = [⟨.ignoreHard, 0⟩, ⟨.run, 0⟩] ∧ code = 24 := by simpa using same
  rw [advances, Option.bind_some, Option.bind_eq_some_iff] at rest
  obtain ⟨⟨middle, code⟩, feed, rest⟩ := rest
  obtain ⟨⟨last, code'⟩, skipped, same⟩ := Option.map_eq_some_iff.mp rest
  obtain ⟨still, rfl, still', rfl⟩ : middle.memory.stack.blocks.length = 2 ∧ code = 25 ∧
      last.memory.stack.blocks.length = 2 ∧ code' = 29 := by simpa using same
  obtain ⟨-, -, -, behind⟩ := conditions_in_turn 9 9 22 ready_inFirstArm
  have here : inFirstArm.store.byte 22 = (Builtin.control .otherwiseWhen).byte := by
    unfold inFirstArm
    rw [ofImage_toArray slotOfArms (by decide +kernel)]
    decide +kernel
  obtain ⟨hard, idles⟩ := behind rfl here after 24 advances _ _ blocks
  have within : Within 9 9 [Branch.mk .run 0].length (fun _ _ => True) after 24 last 29 := by
    refine .advances (.advances .here trivial feed ?_) trivial skipped ?_
    · simp [still]
    · simp [still']
  exact ⟨after, _, _, last, advances, blocks, hard, within, (idles last 29 within).1⟩

/-- A program whose second condition divides by zero:

        if:1
        print:1
        elif:1/0
        print:2
        end;
        print:3
-/
def slotOfDividingArm : List UInt8 :=
  [1, 77, 65, 73, 78] ++ List.replicate 12 0 ++ [18, 0] ++
    [152, 49, 10, 186, 49, 10, 153, 49, 47, 48, 10, 186, 50, 10, 155, 10, 186, 51, 0]

/-- The condition behind the arm that was taken is evaluated, and fails. -/
theorem runSlot_dividingArm :
    ((start (Store.ofImage slotOfDividingArm.toArray) (Script.ofAnswers [])
        { Configuration.standard with seed? := some 1 }).runSlot 20 0).1 =
      .failed ⟨.program .divideByZero, 26⟩ := by
  rw [ofImage_toArray slotOfDividingArm (by decide +kernel)]
  decide +kernel

end Machine

end PocketScript
