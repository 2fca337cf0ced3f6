import PocketScript.Proofs.Metering.Loops
import PocketScript.Proofs.Metering.Meter

/-! # Evaluation past the meter

What only computes, operates on memory or asks the console takes no notice of a meter:
with a meter it does the same, and leaves the meter alone. It does not run out of
statements either, and opens no loop.
-/

namespace PocketScript

variable {κ α β : Type}

namespace Machine

variable (machine : Machine (Metered κ))

@[grind =]
theorem store_bare : machine.bare.store = machine.store :=
  rfl

@[grind =]
theorem memory_bare : machine.bare.memory = machine.memory :=
  rfl

@[grind =]
theorem configuration_bare : machine.bare.configuration = machine.configuration :=
  rfl

@[grind =]
theorem recentStatements_bare : machine.bare.recentStatements = machine.recentStatements :=
  rfl

end Machine

namespace Eval

/-- Evaluation with a meter that is left alone. -/
def unmetered (evaluation : Eval κ α) : Eval (Metered κ) α := fun machine =>
  match evaluation machine.bare with
  | .ok result after => .ok result (after.withMeter machine.console)
  | .error interrupt after => .error interrupt (after.withMeter machine.console)

/-- With a meter, an evaluation leaves it alone. It does not run out of statements, and
    opens no loop. -/
structure Passes (metered : Eval (Metered κ) α) (evaluation : Eval κ α) : Prop where
  same : ∀ machine, metered machine = evaluation.unmetered machine
  ends : ∀ machine after, evaluation machine ≠ .error .unfinished after
  loopless : ∀ machine, machine.memory.Loopless → (last (evaluation machine)).memory.Loopless

namespace Passes

variable {metered : Eval (Metered κ) α} {evaluation : Eval κ α} {metered' : α → Eval (Metered κ) β}
  {next : α → Eval κ β}

@[grind ←]
theorem bind (one : Passes metered evaluation) (two : ∀ result, Passes (metered' result) (next result)) :
    Passes (metered >>= metered') (evaluation >>= next) where
  same machine := by
    simp only [Bind.bind, EStateM.bind, one.same, unmetered]
    cases evaluation machine.bare with
    | ok result after => exact (two result).same _
    | error interrupt after => rfl
  ends machine last := by
    simp only [Bind.bind, EStateM.bind]
    cases ran : evaluation machine with
    | ok result after => exact (two result).ends after last
    | error interrupt after =>
        rintro ⟨⟩
        exact one.ends machine _ ran
  loopless machine none := by
    have first := one.loopless machine none
    simp only [Bind.bind, EStateM.bind]
    cases ran : evaluation machine with
    | ok result after =>
        rw [ran] at first
        exact (two result).loopless after first
    | error interrupt after =>
        rw [ran] at first
        exact first

@[grind ←]
theorem pure (result : α) : Passes (Pure.pure result : Eval (Metered κ) α) (Pure.pure result : Eval κ α) :=
  ⟨fun _ => rfl, by rintro _ _ ⟨⟩, fun _ none => none⟩

theorem throw {interrupt : Interrupt} (ends : interrupt ≠ .unfinished) :
    Passes (throw interrupt : Eval (Metered κ) α) (throw interrupt : Eval κ α) := by
  refine ⟨fun _ => rfl, fun machine after ran => ends ?_, fun _ none => none⟩
  cases ran
  rfl

@[grind ←]
theorem quit : Passes (MonadExcept.throw Interrupt.quit : Eval (Metered κ) α)
    (MonadExcept.throw Interrupt.quit : Eval κ α) :=
  throw (by decide)

@[grind ←]
theorem fail (cause : FaultCause) (address : Address) :
    Passes (fail cause address : Eval (Metered κ) α) (fail cause address : Eval κ α) :=
  ⟨fun _ => rfl, by rintro _ _ ⟨⟩, fun _ none => none⟩

@[grind ←]
theorem raise (kind : FaultKind) (address : Address) :
    Passes (raise kind address : Eval (Metered κ) α) (raise kind address : Eval κ α) :=
  fail _ address

/-- Looking at the machine, of which the meter is no part that matters. -/
@[grind ←]
theorem get_bind {metered' : Machine (Metered κ) → Eval (Metered κ) β} {next : Machine κ → Eval κ β}
    (rest : ∀ machine, Passes (metered' machine) (next machine.bare)) :
    Passes (get >>= metered') (get >>= next) where
  same machine := (rest machine).same machine
  ends machine := (rest (machine.withMeter ⟨machine.console, 0, false⟩)).ends machine
  loopless machine := (rest (machine.withMeter ⟨machine.console, 0, false⟩)).loopless machine

/-- A change that the meter has no part in. -/
theorem modify {change' : Machine (Metered κ) → Machine (Metered κ)} {change : Machine κ → Machine κ}
    (same : ∀ machine, change' machine = (change machine.bare).withMeter machine.console)
    (loopless : ∀ machine, machine.memory.Loopless → (change machine).memory.Loopless) :
    Passes (modify change') (modify change) :=
  ⟨fun machine => congrArg (EStateM.Result.ok ()) (same machine), by rintro _ _ ⟨⟩, loopless⟩

@[grind ←]
theorem modifyRoots (change : Roots → Roots) :
    Passes (modifyRoots change : Eval (Metered κ) Unit) (modifyRoots change : Eval κ Unit) :=
  .modify (fun _ => rfl) fun _ none => none

@[grind ←]
theorem track (value : Value) : Passes (track value : Eval (Metered κ) Unit) (track value : Eval κ Unit) :=
  modifyRoots _

@[grind ←]
theorem trackValues : Passes (trackValues : Eval (Metered κ) Nat) (trackValues : Eval κ Nat) :=
  ⟨fun _ => rfl, by rintro _ _ ⟨⟩, fun _ none => none⟩

theorem onStack {operation : ScopeStack → α × ScopeStack}
    (keeps : ∀ stack, stack.Loopless → (operation stack).2.Loopless) :
    Passes (onStack operation : Eval (Metered κ) α) (onStack operation : Eval κ α) :=
  ⟨fun _ => rfl, by rintro _ _ ⟨⟩, fun _ none => keeps _ none⟩

@[grind ←]
theorem onStore (address : Address) (operation : StoreM α) :
    Passes (onStore address operation : Eval (Metered κ) α) (onStore address operation : Eval κ α) where
  same machine := by
    simp only [Eval.onStore, unmetered, Machine.store_bare]
    cases operation machine.store with
    | ok | error => rfl
  ends machine after := by
    unfold Eval.onStore
    cases operation machine.store with
    | ok | error => rintro ⟨⟩
  loopless machine none := by
    unfold Eval.onStore
    cases operation machine.store with
    | ok | error => exact none

@[grind ←]
theorem onMemoryAs (cause : MemoryError → FaultCause) (address : Address) {operation : MemoryM α}
    (keeps : MemoryM.Keeps Memory.Loopless operation) :
    Passes (onMemoryAs cause address operation : Eval (Metered κ) α)
      (onMemoryAs cause address operation : Eval κ α) where
  same machine := by
    simp only [Eval.onMemoryAs, unmetered, Machine.memory_bare]
    cases operation machine.memory with
    | ok | error => rfl
  ends machine after := by
    unfold Eval.onMemoryAs
    cases operation machine.memory with
    | ok | error => rintro ⟨⟩
  loopless machine none := by
    have kept := keeps machine.memory none
    unfold MemoryM.Ends at kept
    unfold Eval.onMemoryAs
    cases ran : operation machine.memory with
    | ok result memory =>
        rw [ran] at kept
        exact kept
    | error error memory =>
        rw [ran] at kept
        exact kept

@[grind ←]
theorem onMemory (address : Address) {operation : MemoryM α} (keeps : MemoryM.Keeps Memory.Loopless operation) :
    Passes (onMemory address operation : Eval (Metered κ) α) (onMemory address operation : Eval κ α) :=
  onMemoryAs .memory address keeps

@[grind ←]
theorem viewMemory (address : Address) (view : Memory → Except MemoryError α) :
    Passes (viewMemory address view : Eval (Metered κ) α) (viewMemory address view : Eval κ α) :=
  onMemory address (Memory.loopless_look view)

/-- A request that is put past the meter. -/
theorem ask {request : κ → α × κ} {request' : Metered κ → α × Metered κ}
    (through : ∀ metered, request' metered = metered.through request) :
    Passes (ask request' : Eval (Metered κ) α) (ask request : Eval κ α) := by
  refine ⟨fun machine => ?_, by rintro _ _ ⟨⟩, fun _ none => none⟩
  simp only [Eval.ask, modifyGet, MonadStateOf.modifyGet, EStateM.modifyGet, through]
  rfl

variable [Console κ]

theorem print (text : String) : Passes (Eval.ask (Console.print · text) : Eval (Metered κ) Bool)
    (Eval.ask (Console.print · text) : Eval κ Bool) :=
  ask fun _ => rfl

theorem askText (limit : Nat) : Passes (Eval.ask (Console.askText · limit) : Eval (Metered κ) (Option String))
    (Eval.ask (Console.askText · limit) : Eval κ (Option String)) :=
  ask fun _ => rfl

theorem askNumber (limit : Nat) : Passes (Eval.ask (Console.askNumber · limit) : Eval (Metered κ) (Option Float32))
    (Eval.ask (Console.askNumber · limit) : Eval κ (Option Float32)) :=
  ask fun _ => rfl

theorem choose (title : String) (options : List String) :
    Passes (Eval.ask (Console.choose · title options) : Eval (Metered κ) MenuChoice)
      (Eval.ask (Console.choose · title options) : Eval κ MenuChoice) :=
  ask fun _ => rfl

@[grind ←]
theorem escapes : Passes (Eval.ask Console.escapes : Eval (Metered κ) Bool) (Eval.ask Console.escapes : Eval κ Bool) :=
  ask fun _ => rfl

@[grind ←]
theorem resume : Passes (resume : Eval (Metered κ) Unit) (resume : Eval κ Unit) :=
  .modify (fun _ => rfl) fun _ none => none

end Passes

end Eval

open Eval (Passes)

@[grind ←]
theorem Destination.passes_read (destination : Destination) (hold : Hold) (address : Address) :
    Passes (destination.read hold address : Eval (Metered κ) Value) (destination.read hold address : Eval κ Value) := by
  unfold read
  grind

@[grind ←]
theorem Destination.passes_write (destination : Destination) (hold : Hold) (value : Value) (address : Address) :
    Passes (destination.write hold value address : Eval (Metered κ) Unit)
      (destination.write hold value address : Eval κ Unit) := by
  unfold write
  grind

namespace Machine

@[grind ←]
theorem passes_readName (address : Address) :
    Passes (readName address : Eval (Metered κ) (String × Address)) (readName address : Eval κ (String × Address)) := by
  unfold readName
  grind

@[grind ←]
theorem passes_readVariable (expression : Expression) :
    Passes (readVariable expression : Eval (Metered κ) Expression) (readVariable expression : Eval κ Expression) := by
  unfold readVariable
  grind

@[grind ←]
theorem passes_readNumberLiteral (expression : Expression) :
    Passes (readNumberLiteral expression : Eval (Metered κ) Expression)
      (readNumberLiteral expression : Eval κ Expression) := by
  unfold readNumberLiteral
  grind

@[grind ←]
theorem passes_readCharacterLiteral (expression : Expression) :
    Passes (readCharacterLiteral expression : Eval (Metered κ) Expression)
      (readCharacterLiteral expression : Eval κ Expression) := by
  unfold readCharacterLiteral
  grind

@[grind ←]
theorem passes_readStringLiteral (expression : Expression) :
    Passes (readStringLiteral expression : Eval (Metered κ) Expression)
      (readStringLiteral expression : Eval κ Expression) := by
  unfold readStringLiteral
  grind

@[grind ←]
theorem passes_combine (operator : Combination) (left right : Value) (start : Address) :
    Passes (combine operator left right start : Eval (Metered κ) Value)
      (combine operator left right start : Eval κ Value) := by
  unfold combine
  grind

@[grind ←]
theorem passes_compare (operator : Comparison) (left right : Value) (start : Address) :
    Passes (compare operator left right start : Eval (Metered κ) Value)
      (compare operator left right start : Eval κ Value) := by
  unfold compare
  dsimp only
  cases left with
  | missing => exact .raise _ _
  | number a => cases right <;> grind
  | string a =>
      cases right with
      | string b => cases operator <;> grind
      | missing | number _ | list _ | function _ => exact .raise _ _
  | list _ | function _ => exact .raise _ _

@[grind ←]
theorem passes_assign (expression : Expression) (value : Value) :
    Passes (assign expression value : Eval (Metered κ) Expression) (assign expression value : Eval κ Expression) := by
  unfold assign
  grind

@[grind ←]
theorem passes_update (operator : Combination) (expression : Expression) (right : Value) :
    Passes (update operator expression right : Eval (Metered κ) Expression)
      (update operator expression right : Eval κ Expression) := by
  unfold update
  dsimp only
  split
  · exact .raise _ _
  · refine .bind (Destination.passes_read _ _ _) fun current => ?_
    cases current with
    | string a => cases right <;> grind
    | number a => cases right <;> grind
    | missing | list _ | function _ => exact .raise _ _

@[grind ←]
theorem passes_applyStep (direction : Step) (expression : Expression) :
    Passes (applyStep direction expression : Eval (Metered κ) Expression)
      (applyStep direction expression : Eval κ Expression) := by
  unfold applyStep
  grind

@[grind ←]
theorem passes_select (sequence : Value) (index : Float32) (start : Address) :
    Passes (select sequence index start : Eval (Metered κ) Destination)
      (select sequence index start : Eval κ Destination) := by
  unfold select
  grind

theorem passes_bindParameters (start : Address) (arguments : List Value) (address : Address) :
    Passes (bindParameters start arguments address : Eval (Metered κ) Address)
      (bindParameters start arguments address : Eval κ Address) := by
  induction arguments generalizing address with
  | nil => exact .pure _
  | cons argument rest ih =>
      unfold bindParameters
      grind

@[grind ←]
theorem passes_define (expression : Expression) :
    Passes (define expression : Eval (Metered κ) Expression) (define expression : Eval κ Expression) := by
  unfold define
  refine .bind (passes_readName _) fun name => .get_bind fun machine => ?_
  simp only [memory_bare]
  cases machine.memory.stack.find? name.1 with
  | some place => grind
  | none => exact .bind (by grind) fun place => by grind

@[grind ←]
theorem passes_numberOf (value : Value) (start : Address) :
    Passes (numberOf value start : Eval (Metered κ) Float32) (numberOf value start : Eval κ Float32) := by
  unfold numberOf
  grind

@[grind ←]
theorem passes_indexOf (value : Value) (start : Address) :
    Passes (indexOf value start : Eval (Metered κ) Int) (indexOf value start : Eval κ Int) := by
  unfold indexOf
  grind

@[grind ←]
theorem passes_bytesOf (value : Value) (start : Address) :
    Passes (bytesOf value start : Eval (Metered κ) (List UInt8)) (bytesOf value start : Eval κ (List UInt8)) := by
  unfold bytesOf
  grind

@[grind ←]
theorem passes_draw : Passes (draw : Eval (Metered κ) Nat) (draw : Eval κ Nat) :=
  ⟨fun _ => rfl, by rintro _ _ ⟨⟩, fun _ none => none⟩

@[grind ←]
theorem passes_randomBetween (lowest highest : Int32) (start : Address) :
    Passes (randomBetween lowest highest start : Eval (Metered κ) Float32)
      (randomBetween lowest highest start : Eval κ Float32) := by
  unfold randomBetween
  grind

@[grind ←]
theorem passes_applyMath (function : MathFunction) (arguments : List Value) (start : Address) :
    Passes (applyMath function arguments start : Eval (Metered κ) Value)
      (applyMath function arguments start : Eval κ Value) := by
  unfold applyMath
  cases function <;> grind

@[grind ←]
theorem passes_stringOf (text : String) (start : Address) :
    Passes (stringOf text start : Eval (Metered κ) Value) (stringOf text start : Eval κ Value) := by
  unfold stringOf
  grind

@[grind ←]
theorem passes_applyValue (function : ValueFunction) (arguments : List Value) (start : Address) :
    Passes (applyValue function arguments start : Eval (Metered κ) Value)
      (applyValue function arguments start : Eval κ Value) := by
  unfold applyValue
  cases function <;> grind

@[grind ←]
theorem passes_shownText (value : Value) (start : Address) :
    Passes (shownText value start : Eval (Metered κ) String) (shownText value start : Eval κ String) := by
  unfold shownText
  grind

theorem passes_mapM {metered : α → Eval (Metered κ) β} {evaluation : α → Eval κ β}
    (passes : ∀ value, Passes (metered value) (evaluation value)) (values : List α) :
    Passes (values.mapM metered) (values.mapM evaluation) := by
  induction values with
  | nil => exact .pure _
  | cons value rest ih =>
      rw [List.mapM_cons, List.mapM_cons]
      grind

variable [Console κ]

theorem passes_showMenu (title options : Value) (start : Address) :
    Passes (showMenu title options start : Eval (Metered κ) Value) (showMenu title options start : Eval κ Value) := by
  have labels (values : List Value) : Passes (values.mapM (shownText · start) : Eval (Metered κ) (List String))
      (values.mapM (shownText · start) : Eval κ (List String)) :=
    passes_mapM (fun value => passes_shownText value start) values
  unfold showMenu
  dsimp only
  cases title with
  | string cell =>
      refine .bind (passes_shownText _ _) fun title => ?_
      cases options with
      | list cell =>
          refine .bind (.viewMemory _ _) fun values => ?_
          split
          · exact .raise _ _
          · refine .bind (labels values) fun labels => .bind (.choose _ _) fun choice => ?_
            grind
      | missing | number _ | string _ | function _ => exact .raise _ _
  | missing | number _ | list _ | function _ => exact .raise _ _

theorem passes_applyConsole (function : ConsoleFunction) (arguments : List Value) (start : Address) :
    Passes (applyConsole function arguments start : Eval (Metered κ) Value)
      (applyConsole function arguments start : Eval κ Value) := by
  unfold applyConsole
  cases function with
  | print => exact .bind (passes_shownText _ _) fun text => .bind (.print text) fun goesOn => by grind
  | askText => exact .bind (.askText _) fun answer => by grind
  | askNumber => exact .bind (.askNumber _) fun answer => by grind
  | menu => exact passes_showMenu _ _ _

end Machine

end PocketScript
