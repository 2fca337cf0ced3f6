import PocketScript.Console.Journal
import PocketScript.Console.Script
import PocketScript.Proofs.Flow.Formulas
import PocketScript.Proofs.Flow.Simulation
import PocketScript.Proofs.Machine.Runs

/-! # Runs of structured programs

A program that is written down line by line runs as its structure says: it shows
the same texts and leaves the same variables. Only memory or nesting may run out.
-/

namespace PocketScript

open Eval (Yields Keeps)

variable {κ : Type}

/-- The text of a print. -/
def Exchange.printed? : Exchange → Option String
  | .print text _ => some text
  | _ => none

/-- Everything that was printed, in order. -/
def Journal.shown (journal : Journal κ) : List String :=
  journal.exchanges.filterMap Exchange.printed?

theorem Journal.shown_note (journal : Journal κ) (exchange : Exchange) (console : κ) :
    (journal.note exchange console).shown = journal.shown ++ exchange.printed?.toList := by
  simp [shown, note, exchanges, List.filterMap_cons]
  cases exchange.printed? <;> rfl

/-- In all of these states the user goes on, and into others of them. -/
structure Patient [Console κ] (waits : κ → Prop) : Prop where
  print : ∀ console text, waits console →
    (Console.print console text).1 = true ∧ waits (Console.print console text).2
  escapes : ∀ console, waits console → (Console.escapes console).1 = false ∧ waits (Console.escapes console).2
  resume : ∀ console, waits console → waits (Console.resume console)

/-- A program in front of a user who goes on, with a journal of what is shown. -/
def Patient.scene [Console κ] {waits : κ → Prop} (patient : Patient waits) (store : Store)
    (functions : List String) : Scene (Journal κ) where
  store
  functions
  waits journal := waits journal.console
  shown := Journal.shown
  print journal text waiting := ⟨(patient.print _ text waiting).1, (patient.print _ text waiting).2,
    journal.shown_note _ _⟩
  escapes journal waiting := ⟨(patient.escapes _ waiting).1, (patient.escapes _ waiting).2,
    (journal.shown_note _ _).trans (List.append_nil _)⟩
  resume journal waiting := ⟨patient.resume _ waiting, (journal.shown_note _ _).trans (List.append_nil _)⟩

namespace Machine

variable [Console κ] {machine : Machine κ} {scene : Scene κ}

/-- A run begins in one open block. -/
theorem yields_runGlobal {steps : Nat} {slot : Address} {done : Value → Machine κ → Prop} (course : Course)
    (ready : machine.Ready) (empty : machine.memory.stack = .empty) (store : machine.store = scene.store)
    (fault : machine.fault? = none)
    (waits : scene.waits machine.console) (shown : scene.shown machine.console = course.shown)
    (nothing : ∀ name, course.env name = none)
    (runs : ∀ entered, scene.Stands entered course [⟨.run, 0⟩] → entered.Ready →
      Yields (runFrom steps entered.configuration.maxDepth steps (Store.dataAddress slot)) entered done) :
    Yields (runGlobal steps slot) machine done := by
  have pushes : Yields (Eval.onMemory (Store.dataAddress slot) Memory.pushScope) machine
      fun _ opened => scene.Stands opened course [] := by
    refine .onStack ?_
    unfold ScopeStack.pushScope
    by_cases room : machine.memory.heap.boundary < machine.memory.stack.boundary + Scope.headerSize
    · rw [if_pos room]
      exact .inr rfl
    · rw [if_neg room, empty]
      refine .inl ⟨_, _, rfl, store, fault, waits, shown, #[], ⟨0, 0, 0, rfl⟩, fun name _ => ?_⟩
      rw [nothing]
      rfl
  obtain ⟨failed, ran, -⟩ | ⟨opened, ran, opens⟩ := ready.toSteady.pushScope (Store.dataAddress slot)
  · unfold Yields at pushes ⊢
    rw [ran] at pushes
    simp only [runGlobal, Bind.bind, EStateM.bind, ran]
    exact pushes
  · have stands : scene.Stands opened course [] := by
      unfold Yields at pushes
      rw [ran] at pushes
      exact pushes
    refine .bind_ran ran ?_
    let opening : Eval κ Unit := do
      Eval.onMemory (Store.dataAddress slot) (Memory.pushBranch .run 0)
      Eval.modifyRoots (·.push (.scope machine.memory.stack.scopes.size))
      return
    have stays : Yields opening opened fun _ entered => scene.Stands entered course [⟨.run, 0⟩] := by
      refine (stands.pushBranch .run 0 _).bind fun _ branched stands => ?_
      exact stands.undisturbed ⟨rfl, rfl, rfl, rfl⟩
    have enters : Keeps opening opened fun _ entered => entered.Ready :=
      opens.enter ready.tracked _ fun entered _ ready _ => .pure ready.toSteady ready
    have whole : Yields (opening >>= fun _ => do
        runFrom steps (← get).configuration.maxDepth steps (Store.dataAddress slot)) opened done :=
      (stays.keeps enters).bind fun _ entered holds => .get_bind (runs entered holds.1 holds.2.2)
    simpa only [opening, bind_assoc, pure_bind, runFrom] using whole

end Machine

/-- The lines of a structured program, run with a user who goes on, do what the
    structure says if that comes to an end: the run finishes, what was shown is
    the same, and so are the variables. Otherwise memory or nesting ran out. -/
theorem Machine.runGlobal_structured [Console κ] {waits : κ → Prop} (patient : Patient waits)
    {machine : Machine (Journal κ)} (wellFormed : machine.memory.heap.WellFormed)
    (waiting : waits machine.console.console) {code : Code .block} {functions : List String}
    (apart : code.Apart functions) {slot : Address}
    (lines : machine.store.HasLines (Store.dataAddress slot) code.lines) {last : Course}
    (exec : Exec code ⟨fun _ => none, machine.console.shown⟩ .normal last) :
    ∃ enough, ∀ steps, enough ≤ steps →
      (∃ after, runGlobal steps slot machine.prepared = .ok .missing after ∧
        (machine.runSlot steps slot).1 = .finished ∧ after.console.shown = last.shown ∧
        ∀ name, name ∉ functions → after.memory.stack.value? name = (last.env name).map Value.number) ∨
      ∃ fault, (machine.runSlot steps slot).1 = .failed fault ∧
        (fault.kind = .stackHeapCollision ∨ fault.kind = .expressionTooComplex) := by
  let scene := patient.scene machine.store functions
  obtain ⟨count, leads⟩ := exec.leads scene apart
  refine ⟨count + 1, fun steps enough => ?_⟩
  have resumed := scene.resume machine.console waiting
  have yields : Yields (runGlobal steps slot) machine.prepared fun value after =>
      value = .missing ∧ scene.Stands after last [⟨.run, 0⟩] := by
    refine yields_runGlobal ⟨fun _ => none, machine.console.shown⟩ (ready_prepared wellFormed) rfl rfl rfl
      resumed.1 resumed.2 (fun _ => rfl) ?_
    intro entered stands ready
    obtain ⟨used, within, ⟨after, address, faces, goes⟩ | ⟨failed, gave_up, ends⟩⟩ :=
      leads steps entered.configuration.maxDepth rfl (by simp)
        (⟨stands, ready, by rwa [List.append_nil]⟩ :
          scene.Faces ⟨fun _ => none, machine.console.shown⟩ [⟨.run, 0⟩] (code.lines ++ []) entered _)
    · obtain ⟨left, rfl⟩ : ∃ left, steps = left + 1 + used := ⟨steps - used - 1, by omega⟩
      unfold Yields
      have zero : after.store.byte address = 0 := by
        rw [faces.stands.store]
        exact faces.lines
      rw [goes, runFrom, runCode]
      simp only [Bind.bind, EStateM.bind, Eval.byteAt, get, getThe, MonadStateOf.get, EStateM.get, pure, EStateM.pure,
        zero, show (0 : UInt8) ≠ 0x0a by decide, if_false, if_true]
      exact ⟨trivial, faces.stands⟩
    · obtain ⟨left, rfl⟩ : ∃ left, steps = left + used := ⟨steps - used, by omega⟩
      unfold Yields
      rw [ends]
      exact gave_up
  rcases yields.ran with ⟨value, after, ran, rfl, stands⟩ | ⟨failed, ran, fault, is_fault, kind⟩
  · refine .inl ⟨after, ran, ?_, stands.shown, ?_⟩
    · rw [runSlot, ran]
      simp only [ending, finish, stands.fault]
    · obtain ⟨bindings, only, values⟩ := stands.scope
      intro name other
      rw [only.value?]
      exact values name other
  · refine .inr ⟨fault, ?_, kind⟩
    rw [runSlot, ran]
    simp only [ending, finish, is_fault]

/-- A script without a stop in it is in front of a user who goes on. -/
theorem patient_script : Patient fun script : Script => script.escapeAt? = none ∧ script.cancelsPrints = false where
  print := by
    rintro script text ⟨never, goes⟩
    exact ⟨by simp [Console.print, goes], never, goes⟩
  escapes := by
    rintro script ⟨never, goes⟩
    exact ⟨by simp [Console.escapes, never], never, goes⟩
  resume := fun _ waiting => waiting

/-- The variable of the count. -/
def countName : Name := ⟨[73], by decide, by decide, by decide⟩

/-- A number of one digit. -/
def digit (value : Fin 10) : Digits :=
  ⟨[UInt8.ofNat (48 + value)], by simp, by decide +revert +kernel, by simp [Store.numberLiteralLimit]⟩

/-- Two rounds, of which the second is cut short:

        I=0
        while:I<2
        I+=1
        if:I==2
        cont;
        end;
        print:I
        end;
-/
def countRounds : Code .block :=
  .assign countName none (Atom.literal (digit 0)).formula <|
    .loop ((Atom.read countName).formulaWith (.literal (digit 2)) 0x3c (.compare .less) (by decide))
      (.assign countName (some .add) (Atom.literal (digit 1)).formula <|
        .choose ((Atom.read countName).formulaWith (.literal (digit 2)) 135 (.compare .equal) (by decide))
          (.nextRound .done) .close <|
        .print (Atom.read countName).formula .done)
      .done

/-- The first slot with that program under the name `MAIN`. -/
def slotOfCountRounds : List UInt8 :=
  [1, 77, 65, 73, 78] ++ List.replicate 12 0 ++ [26, 0] ++
    [73, 61, 48, 10, 156, 73, 60, 50, 10, 73, 139, 49, 10, 152, 73, 135, 50, 10, 158, 10, 155, 10, 186, 73, 10, 155, 0]

theorem exec_countRounds : ∃ last, Exec countRounds ⟨fun _ => none, []⟩ .normal last ∧ last.shown = ["1"] ∧
    (last.env "I").map Value.number = some (.number 2.0) := by
  refine ⟨_, .assign rfl rfl (.loopGoes rfl (by decide +kernel)
    (.assign rfl rfl (.pass (.fails _ rfl (by decide +kernel) .none) (.print rfl (.done _)))) (by simp)
    (.loopGoes rfl (by decide +kernel)
      (.assign rfl rfl (.jump (.holds _ _ rfl (by decide +kernel)) (.nextRound _ _) (by simp))) (by simp)
      (.loopEnds rfl (by decide +kernel) (.done _)))), by decide +kernel, by decide +kernel⟩

/-- The machine that runs the program. -/
def countingMachine : Machine (Journal Script) :=
  .start (Store.ofImage slotOfCountRounds.toArray) (.start (.ofAnswers []))
    { Configuration.standard with seed? := some 1 }

/-- The program shows one number and leaves its variable at two. -/
theorem Machine.runGlobal_countRounds : ∃ enough, ∀ steps, enough ≤ steps →
    (∃ after, runGlobal steps 0 countingMachine.prepared = .ok .missing after ∧
      (countingMachine.runSlot steps 0).1 = .finished ∧ after.console.shown = ["1"] ∧
      after.memory.stack.value? "I" = some (.number 2.0)) ∨
    ∃ fault, (countingMachine.runSlot steps 0).1 = .failed fault ∧
      (fault.kind = .stackHeapCollision ∨ fault.kind = .expressionTooComplex) := by
  have lines : countingMachine.store.HasLines (Store.dataAddress 0) countRounds.lines := by
    unfold countingMachine Machine.start
    dsimp only
    rw [ofImage_toArray slotOfCountRounds (by decide +kernel)]
    decide +kernel
  have apart : countRounds.Apart [] := by simp [countRounds, Code.Apart]
  obtain ⟨last, exec, shown, value⟩ := exec_countRounds
  obtain ⟨enough, runs⟩ := runGlobal_structured patient_script (.empty _ : countingMachine.memory.heap.WellFormed)
    ⟨rfl, rfl⟩ apart lines exec
  refine ⟨enough, fun steps more => (runs steps more).imp_left ?_⟩
  rintro ⟨after, ran, finished, shows, values⟩
  exact ⟨after, ran, finished, shows.trans shown, (values "I" (by simp)).trans value⟩

end PocketScript
