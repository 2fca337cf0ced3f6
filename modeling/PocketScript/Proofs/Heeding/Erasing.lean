import PocketScript.Machine.Evaluation

/-! # Taking notice of what keeps destinations

The same evaluation is looked at twice, on a console under which notice is taken of what
keeps destinations and on one under which it is not. All that differs is what is noted
of expressions on the way, and what a refused access through a destination is put down
to: with notice taken it may be known that the string or list was kept.
-/

namespace PocketScript

variable {κ α β : Type}

/-- A console under which notice is taken of what keeps destinations. -/
structure Heeded (κ : Type) where
  console : κ

namespace Heeded

/-- What a console answers, with the same notice taken from then on. -/
def ask (request : κ → α × κ) (heeded : Heeded κ) : α × Heeded κ :=
  let (answer, console) := request heeded.console
  (answer, ⟨console⟩)

instance [Console κ] : Console (Heeded κ) where
  print heeded text := heeded.ask (Console.print · text)
  askText heeded limit := heeded.ask (Console.askText · limit)
  askNumber heeded limit := heeded.ask (Console.askNumber · limit)
  choose heeded title options := heeded.ask (Console.choose · title options)
  escapes heeded := heeded.ask Console.escapes
  resume heeded := ⟨Console.resume heeded.console⟩

instance : Heeding (Heeded κ) where
  selected := .kept

end Heeded

/-- The same fault, but with notice taken it may be known that a destination was kept. -/
inductive FaultCause.Excuses : (heeded plain : FaultCause) → Prop where
  | same (cause : FaultCause) : Excuses cause cause
  | kept (error : MemoryError) : Excuses (.memory error) (.loose error)

namespace FaultCause.Excuses

variable {heeded plain : FaultCause}

theorem kind_eq (excuses : heeded.Excuses plain) : heeded.kind = plain.kind := by
  cases excuses with
  | same | kept => rfl

theorem cause (hold : Hold) (error : MemoryError) : (hold.cause error).Excuses (Hold.loose.cause error) := by
  cases hold with
  | kept | passedOn => exact .kept error
  | loose => exact .same _

end FaultCause.Excuses

/-- The same fault at the same address. -/
structure Fault.Excuses (heeded plain : Fault) : Prop where
  cause : heeded.cause.Excuses plain.cause
  address : heeded.address = plain.address

theorem Fault.Excuses.kind_eq {heeded plain : Fault} (excuses : heeded.Excuses plain) : heeded.kind = plain.kind :=
  excuses.cause.kind_eq

namespace Machine

/-- The machine with notice taken from here on. -/
def heeded (machine : Machine κ) : Machine (Heeded κ) :=
  { machine with console := ⟨machine.console⟩ }

/-- The machine under whose console no notice is taken, with its own record of a fault. -/
def unheeded (machine : Machine (Heeded κ)) (fault? : Option Fault) : Machine κ :=
  { machine with console := machine.console.console, fault? }

variable (machine : Machine (Heeded κ)) (fault? : Option Fault)

@[simp, grind =]
theorem memory_unheeded : (machine.unheeded fault?).memory = machine.memory := rfl

@[simp, grind =]
theorem store_unheeded : (machine.unheeded fault?).store = machine.store := rfl

end Machine

/-- The expression with nothing known of what keeps its destination. -/
def Expression.unheeded (expression : Expression) : Expression :=
  { expression with hold := .loose }

namespace Expression

variable (expression : Expression)

@[simp, grind =]
theorem start_unheeded : expression.unheeded.start = expression.start := rfl

@[simp, grind =]
theorem code_unheeded : expression.unheeded.code = expression.code := rfl

@[simp, grind =]
theorem value_unheeded : expression.unheeded.value = expression.value := rfl

@[simp, grind =]
theorem destination?_unheeded : expression.unheeded.destination? = expression.destination? := rfl

@[simp, grind =]
theorem hold_unheeded : expression.unheeded.hold = .loose := rfl

@[simp, grind =]
theorem unheeded_mk (start code : Address) (value : Value) (destination? : Option Destination) (hold : Hold) :
    (Expression.mk start code value destination? hold).unheeded = ⟨start, code, value, destination?, .loose⟩ := rfl

end Expression

namespace Eval

/-- A machine with notice taken, and the same one without it. -/
inductive Unheeds (machine : Machine (Heeded κ)) : Machine κ → Prop where
  | of {fault? : Option Fault} (faults : Option.Rel Fault.Excuses machine.fault? fault?) :
      Unheeds machine (machine.unheeded fault?)

theorem Unheeds.memory_eq {machine : Machine (Heeded κ)} {plain : Machine κ} (unheeds : Unheeds machine plain) :
    plain.memory = machine.memory := by
  obtain ⟨-⟩ := unheeds
  rfl

/-- Both evaluations end in the same way, up to what is erased from the result. -/
inductive EndsAlike (erase : α → α) :
    EStateM.Result Interrupt (Machine (Heeded κ)) α → EStateM.Result Interrupt (Machine κ) α → Prop where
  | ok (result : α) {heeded : Machine (Heeded κ)} {plain : Machine κ} (unheeds : Unheeds heeded plain) :
      EndsAlike erase (.ok result heeded) (.ok (erase result) plain)
  | error (interrupt : Interrupt) {heeded : Machine (Heeded κ)} {plain : Machine κ} (unheeds : Unheeds heeded plain) :
      EndsAlike erase (.error interrupt heeded) (.error interrupt plain)

/-- With notice taken an evaluation does the same, up to what is erased from its result. -/
def Erases (erase : α → α) (heeded : Eval (Heeded κ) α) (plain : Eval κ α) : Prop :=
  ∀ machine fault?, Option.Rel Fault.Excuses machine.fault? fault? →
    EndsAlike erase (heeded machine) (plain (machine.unheeded fault?))

namespace Erases

variable {erase : α → α} {erase' : β → β} {heeded : Eval (Heeded κ) α} {plain : Eval κ α}
  {next : α → Eval (Heeded κ) β} {next' : α → Eval κ β}

theorem bind (one : Erases erase heeded plain) (two : ∀ result, Erases erase' (next result) (next' (erase result))) :
    Erases erase' (heeded >>= next) (plain >>= next') := by
  intro machine fault? faults
  have first := one machine fault? faults
  simp only [Bind.bind, EStateM.bind]
  revert first
  generalize heeded machine = ended, plain (machine.unheeded fault?) = ended'
  intro first
  cases first with
  | ok result unheeds =>
      obtain ⟨faults⟩ := unheeds
      exact two result _ _ faults
  | error interrupt unheeds => exact .error interrupt unheeds

/-- What comes to the same with notice taken and without it. -/
@[grind ←]
theorem bind_same (one : Erases id heeded plain) (two : ∀ result, Erases erase' (next result) (next' result)) :
    Erases erase' (heeded >>= next) (plain >>= next') :=
  bind one two

@[grind ←]
theorem bind_expression {heeded : Eval (Heeded κ) Expression} {plain : Eval κ Expression}
    {next : Expression → Eval (Heeded κ) β} {next' : Expression → Eval κ β}
    (one : Erases Expression.unheeded heeded plain)
    (two : ∀ result, Erases erase' (next result) (next' result.unheeded)) :
    Erases erase' (heeded >>= next) (plain >>= next') :=
  bind one two

@[grind ←]
theorem get_bind {next : Machine (Heeded κ) → Eval (Heeded κ) β} {next' : Machine κ → Eval κ β}
    (erases : ∀ machine fault?, Erases erase' (next machine) (next' (machine.unheeded fault?))) :
    Erases erase' (get >>= next) (get >>= next') :=
  fun machine fault? => erases machine fault? machine fault?

@[grind ←]
theorem pure {result result' : α} (same : erase result = result') :
    Erases erase (Pure.pure result : Eval (Heeded κ) α) (Pure.pure result') :=
  fun _ _ faults => same ▸ .ok result ⟨faults⟩

@[grind ←]
theorem throw (interrupt : Interrupt) :
    Erases erase (throw interrupt : Eval (Heeded κ) α) (throw interrupt : Eval κ α) :=
  fun _ _ faults => .error interrupt ⟨faults⟩

theorem branch {condition : Prop} {decided decided' : Decidable condition} {other : Eval (Heeded κ) α}
    {other' : Eval κ α} (holds : Erases erase heeded plain) (fails : Erases erase other other') :
    Erases erase (@ite _ condition decided heeded other) (@ite _ condition decided' plain other') := by
  obtain rfl : decided = decided' := Subsingleton.elim _ _
  split
  · exact holds
  · exact fails

/-- A step that the record of a fault has no part in. -/
theorem step (step : Machine (Heeded κ) → α × Machine (Heeded κ))
    (does : ∀ machine, heeded machine = .ok (step machine).1 (step machine).2)
    (same : ∀ machine fault?, plain (machine.unheeded fault?) = .ok (step machine).1 ((step machine).2.unheeded fault?))
    (fault : ∀ machine, (step machine).2.fault? = machine.fault?) : Erases id heeded plain := by
  intro machine fault? faults
  rw [does, same]
  exact .ok _ ⟨(fault machine).symm ▸ faults⟩

theorem fail {cause cause' : FaultCause} (excuses : cause.Excuses cause') (address : Address) :
    Erases erase (fail cause address : Eval (Heeded κ) α) (fail cause' address) := by
  intro machine _ _
  let failed : Machine (Heeded κ) := { machine with fault? := some ⟨cause, address⟩ }
  have same : Option.Rel Fault.Excuses failed.fault? (some ⟨cause', address⟩) := .some ⟨excuses, rfl⟩
  have unheeds : Unheeds failed (failed.unheeded (some ⟨cause', address⟩)) := ⟨same⟩
  exact .error .quit unheeds

@[grind ←]
theorem raise (kind : FaultKind) (address : Address) :
    Erases erase (raise kind address : Eval (Heeded κ) α) (raise kind address) :=
  fail (.same _) address

@[grind ←]
theorem byteAt (address : Address) : Erases (κ := κ) id (byteAt address) (byteAt address) :=
  .get_bind fun _ _ => .pure rfl

@[grind ←]
theorem modifyRoots (change : Roots → Roots) : Erases (κ := κ) id (modifyRoots change) (modifyRoots change) :=
  .step (fun machine => ((),
    { machine with memory := { machine.memory with roots := change machine.memory.roots } }))
    (fun _ => rfl) (fun _ _ => rfl) fun _ => rfl

@[grind ←]
theorem track (value : Value) : Erases (κ := κ) id (track value) (track value) :=
  modifyRoots _

theorem trackValues : Erases (κ := κ) id trackValues trackValues :=
  .step (fun machine => (machine.memory.roots.size,
    { machine with memory := { machine.memory with roots := machine.memory.roots.push (.values []) } }))
    (fun _ => rfl) (fun _ _ => rfl) fun _ => rfl

@[grind ←]
theorem onStack (operation : ScopeStack → α × ScopeStack) :
    Erases (κ := κ) id (onStack operation) (onStack operation) :=
  .step (fun machine => ((operation machine.memory.stack).1,
    { machine with memory := { machine.memory with stack := (operation machine.memory.stack).2 } }))
    (fun _ => rfl) (fun _ _ => rfl) fun _ => rfl

theorem onMemoryAs {cause cause' : MemoryError → FaultCause} (excuses : ∀ error, (cause error).Excuses (cause' error))
    (address : Address) (operation : MemoryM α) :
    Erases (κ := κ) id (onMemoryAs cause address operation) (onMemoryAs cause' address operation) := by
  intro machine fault? faults
  unfold Eval.onMemoryAs
  rw [machine.memory_unheeded]
  cases operation machine.memory with
  | ok result memory =>
      have unheeds : Unheeds { machine with memory } _ := ⟨faults⟩
      exact .ok result unheeds
  | error error memory => exact fail (excuses error) address { machine with memory } fault? faults

@[grind ←]
theorem onMemory (address : Address) (operation : MemoryM α) :
    Erases (κ := κ) id (onMemory address operation) (onMemory address operation) :=
  onMemoryAs (fun _ => .same _) address operation

@[grind ←]
theorem viewMemory (address : Address) (view : Memory → Except MemoryError α) :
    Erases (κ := κ) id (viewMemory address view) (viewMemory address view) :=
  onMemory address _

theorem onStore (address : Address) (operation : StoreM α) :
    Erases (κ := κ) id (onStore address operation) (onStore address operation) := by
  intro machine fault? faults
  unfold Eval.onStore
  rw [machine.store_unheeded]
  cases operation machine.store with
  | ok result store =>
      have unheeds : Unheeds { machine with store } _ := ⟨faults⟩
      exact .ok result unheeds
  | error error store => exact fail (.same _) address { machine with store } fault? faults

theorem ask (request : κ → α × κ) :
    Erases (κ := κ) id (ask fun heeded => heeded.ask request) (ask request) :=
  .step (fun machine => ((request machine.console.console).1,
    { machine with console := ⟨(request machine.console.console).2⟩ }))
    (fun _ => rfl) (fun _ _ => rfl) fun _ => rfl

theorem resume [Console κ] : Erases (κ := κ) id resume resume :=
  .step (fun machine => ((), { machine with console := ⟨Console.resume machine.console.console⟩ }))
    (fun _ => rfl) (fun _ _ => rfl) fun _ => rfl

/-- A change afterwards that the record of a fault has no part in. -/
theorem always {change : Machine (Heeded κ) → Machine (Heeded κ)} {change' : Machine κ → Machine κ}
    (erases : Erases erase heeded plain)
    (same : ∀ machine fault?, change' (machine.unheeded fault?) = (change machine).unheeded fault?)
    (fault : ∀ machine, (change machine).fault? = machine.fault?) :
    Erases erase (always change heeded) (always change' plain) := by
  have changed {machine : Machine (Heeded κ)} {other : Machine κ} (unheeds : Unheeds machine other) :
      Unheeds (change machine) (change' other) := by
    obtain ⟨faults⟩ := unheeds
    exact same machine _ ▸ ⟨(fault machine).symm ▸ faults⟩
  intro machine fault? faults
  have ended := erases machine fault? faults
  unfold Eval.always
  revert ended
  generalize heeded machine = ended, plain (machine.unheeded fault?) = ended'
  intro ended
  cases ended with
  | ok result unheeds => exact .ok result (changed unheeds)
  | error interrupt unheeds => exact .error interrupt (changed unheeds)

theorem releasing (erases : Erases erase heeded plain) : Erases erase (releasing heeded) (releasing plain) :=
  .get_bind fun _ _ => .always erases (fun _ _ => rfl) fun _ => rfl

theorem nested (erases : Erases erase heeded plain) : Erases erase (nested heeded) (nested plain) := by
  have enters : Erases (κ := κ) id (modify Machine.enter) (modify Machine.enter) :=
    .step (fun machine => ((), machine.enter)) (fun _ => rfl) (fun _ _ => rfl) fun _ => rfl
  exact .bind_same enters fun _ => .always erases (fun _ _ => rfl) fun _ => rfl

end Erases

end Eval

end PocketScript
