import PocketScript.Machine.Evaluation
import PocketScript.Proofs.Witness.Events

/-! # Watching an evaluation

The same evaluation is looked at twice, on a console that keeps what happens and on
one that does not. What is kept is an account of the evaluation, and that it is kept
changes nothing else. Neither does the count of how deep evaluation is nested, which
may start anywhere.
-/

namespace PocketScript

variable {κ α β : Type} {levels lower : Nat}

/-- What a machine computes with, which no one but the program sees. -/
structure Machine.Work where
  memory : Memory
  draws : RandomSource
  recentStatements : Nat

/-- What a machine computes with. -/
def Machine.work (machine : Machine κ) : Machine.Work :=
  ⟨machine.memory, machine.draws, machine.recentStatements⟩

/-- A machine that has something else to compute with. -/
def Machine.withWork (machine : Machine κ) (work : Machine.Work) : Machine κ :=
  { machine with memory := work.memory, draws := work.draws, recentStatements := work.recentStatements }

namespace Machine

variable (machine : Machine (Witnessed κ)) (depth : Nat)

@[simp, grind =]
theorem memory_unwitnessed : (machine.unwitnessed depth).memory = machine.memory := rfl

@[simp, grind =]
theorem store_unwitnessed : (machine.unwitnessed depth).store = machine.store := rfl

@[simp, grind =]
theorem configuration_unwitnessed : (machine.unwitnessed depth).configuration = machine.configuration := rfl

@[simp, grind =]
theorem recentStatements_unwitnessed : (machine.unwitnessed depth).recentStatements = machine.recentStatements := rfl

end Machine

namespace Eval

variable [Console κ] {watched : Eval (Witnessed κ) α} {plain : Eval κ α}
  {next : α → Eval (Witnessed κ) β} {next' : α → Eval κ β}

/-- What a watched evaluation keeps is an account of it, and otherwise it is the
    plain one. -/
def Attests (levels : Nat) (watched : Eval (Witnessed κ) α) (plain : Eval κ α) : Prop :=
  ∀ machine : Machine (Witnessed κ),
    (∃ events, Account levels machine events (watched machine)) ∧
      ∀ depth, plain (machine.unwitnessed depth) = unwitnessed depth (watched machine)

namespace Attests

theorem mono (attests : Attests lower watched plain) (fewer : lower ≤ levels) : Attests levels watched plain := by
  intro machine
  obtain ⟨⟨events, account⟩, same⟩ := attests machine
  exact ⟨⟨events, account.mono fewer⟩, same⟩

@[grind ←]
theorem bind (one : Attests levels watched plain) (two : ∀ result, Attests levels (next result) (next' result)) :
    Attests levels (watched >>= next) (plain >>= next') := by
  intro machine
  obtain ⟨⟨events, account⟩, same⟩ := one machine
  simp only [Bind.bind, EStateM.bind, same]
  cases ran : watched machine with
  | ok result middle =>
      rw [ran] at account
      obtain ⟨⟨later, rest⟩, same⟩ := two result middle
      exact ⟨⟨events ++ later, account.append rest⟩, same⟩
  | error interrupt after =>
      rw [ran] at account
      exact ⟨⟨events, account.error⟩, fun depth => rfl⟩

@[grind ←]
theorem get_bind {next : Machine (Witnessed κ) → Eval (Witnessed κ) β} {next' : Machine κ → Eval κ β}
    (attests : ∀ machine depth, Attests levels (next machine) (next' (machine.unwitnessed depth))) :
    Attests levels (get >>= next) (get >>= next') :=
  fun machine => ⟨(attests machine 0 machine).1, fun depth => (attests machine depth machine).2 depth⟩

/-- Evaluation that only computes. -/
theorem compute (step : Machine.Work → α × Machine.Work)
    (watches : ∀ machine, watched machine = .ok (step machine.work).1 (machine.withWork (step machine.work).2))
    (computes : ∀ machine, plain machine = .ok (step machine.work).1 (machine.withWork (step machine.work).2)) :
    Attests levels watched plain := by
  intro machine
  rw [watches machine]
  exact ⟨⟨[], .nothing rfl rfl rfl rfl rfl⟩, fun depth => computes _⟩

@[grind ←]
theorem pure (result : α) : Attests (κ := κ) levels (Pure.pure result) (Pure.pure result) :=
  .compute (fun work => (result, work)) (fun _ => rfl) fun _ => rfl

/-- Evaluation that is interrupted without a fault. -/
@[grind ←]
theorem throw (interrupt : Interrupt) :
    Attests (κ := κ) (α := α) levels (throw interrupt) (throw interrupt) :=
  fun _ => ⟨⟨[], .nothing rfl rfl rfl rfl rfl⟩, fun _ => rfl⟩

@[grind ←]
theorem fail (cause : FaultCause) (address : Address) :
    Attests (κ := κ) (α := α) levels (fail cause address) (fail cause address) := by
  refine fun machine => ⟨⟨[.noted (.failed machine.fault? ⟨cause, address⟩)], ?_⟩, fun _ => rfl⟩
  exact {
    kept := rfl, console := rfl, store := rfl, depth := rfl, configuration := rfl
    within := by simp
    faults := .failed [] _ rfl .nil rfl }

@[grind ←]
theorem raise (kind : FaultKind) (address : Address) :
    Attests (κ := κ) (α := α) levels (raise kind address) (raise kind address) :=
  fail _ address

@[grind ←]
theorem byteAt (address : Address) : Attests (κ := κ) levels (byteAt address) (byteAt address) :=
  .get_bind fun _ _ => .pure _

@[grind ←]
theorem modifyRoots (change : Roots → Roots) :
    Attests (κ := κ) levels (modifyRoots change) (modifyRoots change) :=
  .compute (fun work => ((), { work with memory := { work.memory with roots := change work.memory.roots } }))
    (fun _ => rfl) fun _ => rfl

@[grind ←]
theorem track (value : Value) : Attests (κ := κ) levels (track value) (track value) :=
  modifyRoots _

@[grind ←]
theorem trackValues : Attests (κ := κ) levels trackValues trackValues :=
  .compute (fun work =>
    (work.memory.roots.size,
      { work with memory := { work.memory with roots := work.memory.roots.push (.values []) } }))
    (fun _ => rfl) fun _ => rfl

@[grind ←]
theorem onStack (operation : ScopeStack → α × ScopeStack) :
    Attests (κ := κ) levels (onStack operation) (onStack operation) :=
  .compute (fun work =>
    let done := operation work.memory.stack
    (done.1, { work with memory := { work.memory with stack := done.2 } })) (fun _ => rfl) fun _ => rfl

/-- What is put into memory before a fault is not seen from outside. -/
theorem fail_withMemory (cause : FaultCause) (address : Address) (memory : Machine (Witnessed κ) → Memory)
    (machine : Machine (Witnessed κ)) :
    ∃ events, Account levels machine events
      (Eval.fail cause address { machine with memory := memory machine } :
        EStateM.Result Interrupt (Machine (Witnessed κ)) α) := by
  have attests : Attests (κ := κ) (α := α) levels (Eval.fail cause address) (Eval.fail cause address) := .fail _ _
  obtain ⟨events, account⟩ := (attests { machine with memory := memory machine }).1
  exact ⟨events, account.kept, account.console, account.store, account.depth, account.configuration,
    account.within, by
      cases account.faults with
      | faultless none same => exact .faultless none same
      | failed earlier fault last none recorded => exact .failed earlier fault last none recorded⟩

@[grind ←]
theorem onMemoryAs (cause : MemoryError → FaultCause) (address : Address) (operation : MemoryM α) :
    Attests (κ := κ) levels (onMemoryAs cause address operation) (onMemoryAs cause address operation) := by
  intro machine
  unfold Eval.onMemoryAs
  simp only [Machine.memory_unwitnessed]
  cases operation machine.memory with
  | ok result memory => exact ⟨⟨[], .nothing rfl rfl rfl rfl rfl⟩, fun _ => rfl⟩
  | error error memory => exact ⟨fail_withMemory _ _ (fun _ => memory) machine, fun _ => rfl⟩

@[grind ←]
theorem onMemory (address : Address) (operation : MemoryM α) :
    Attests (κ := κ) levels (onMemory address operation) (onMemory address operation) :=
  onMemoryAs .memory address operation

@[grind ←]
theorem viewMemory (address : Address) (view : Memory → Except MemoryError α) :
    Attests (κ := κ) levels (viewMemory address view) (viewMemory address view) :=
  onMemory address _

/-- The store is worked on, and if that is refused, there is a fault. -/
@[grind ←]
theorem onStore (address : Address) (operation : StoreM α) :
    Attests (κ := κ) levels (onStore address operation) (onStore address operation) := by
  intro machine
  unfold Eval.onStore
  simp only [Machine.store_unwitnessed]
  cases operation machine.store with
  | ok result store =>
      refine ⟨⟨[.noted (.stored store)], ?_⟩, fun _ => rfl⟩
      exact {
        kept := rfl, console := rfl, store := rfl, depth := rfl, configuration := rfl
        within := by simp
        faults := .faultless (.one rfl) rfl }
  | error error store =>
      let fault : Fault := ⟨.file error, address⟩
      refine ⟨⟨[.noted (.stored store), .noted (.failed machine.fault? fault)], ?_⟩, fun _ => rfl⟩
      exact {
        kept := List.append_assoc _ [_] [_], console := rfl, store := rfl, depth := rfl, configuration := rfl
        within := by simp
        faults := .failed [.noted (.stored store)] fault rfl (.one rfl) rfl }

/-- A question to the console. -/
theorem ask (question : Question) :
    Attests (κ := κ) levels (ask fun witnessed => witnessed.ask question) (ask question.put) := by
  refine fun machine => ⟨⟨[.asked question], ?_⟩, fun _ => rfl⟩
  exact {
    kept := rfl, console := rfl, store := rfl, depth := rfl, configuration := rfl
    within := by simp
    faults := .faultless (.one rfl) rfl }

theorem print (text : String) :
    Attests (κ := κ) levels (Eval.ask (Console.print · text)) (Eval.ask (Console.print · text)) :=
  ask (.print text)

theorem askText (limit : Nat) :
    Attests (κ := κ) levels (Eval.ask (Console.askText · limit)) (Eval.ask (Console.askText · limit)) :=
  ask (.askText limit)

theorem askNumber (limit : Nat) :
    Attests (κ := κ) levels (Eval.ask (Console.askNumber · limit)) (Eval.ask (Console.askNumber · limit)) :=
  ask (.askNumber limit)

theorem choose (title : String) (options : List String) :
    Attests (κ := κ) levels (Eval.ask (Console.choose · title options)) (Eval.ask (Console.choose · title options)) :=
  ask (.choose title options)

@[grind ←]
theorem escapes : Attests (κ := κ) levels (Eval.ask Console.escapes) (Eval.ask Console.escapes) :=
  ask .escapes

@[grind ←]
theorem resume : Attests (κ := κ) levels resume resume := by
  refine fun machine => ⟨⟨[.asked .resume], ?_⟩, fun _ => rfl⟩
  exact {
    kept := rfl, console := rfl, store := rfl, depth := rfl, configuration := rfl
    within := by simp
    faults := .faultless (.one rfl) rfl }

/-- Memory is put in order afterwards, and nothing but memory. -/
theorem always (change : Memory → Memory) (attests : Attests levels watched plain) :
    Attests levels (always (fun machine => { machine with memory := change machine.memory }) watched)
      (always (fun machine => { machine with memory := change machine.memory }) plain) := by
  intro machine
  obtain ⟨⟨events, account⟩, same⟩ := attests machine
  refine ⟨⟨events, account.always change⟩, fun depth => ?_⟩
  unfold Eval.always
  rw [same]
  cases watched machine with
  | ok | error => rfl

@[grind ←]
theorem releasing (attests : Attests levels watched plain) :
    Attests levels (releasing watched) (releasing plain) :=
  .get_bind fun machine _ =>
    attests.always fun memory => { memory with roots := Roots.release memory.roots machine.memory.roots.size }

/-- One level deeper, where that is within the levels that are left. -/
theorem nested (attests : Attests lower watched plain) (fewer : lower + 1 ≤ levels) :
    Attests levels (nested watched) (nested plain) := by
  intro machine
  obtain ⟨⟨events, account⟩, same⟩ := attests machine.enter
  refine ⟨⟨_, account.nested fewer⟩, fun depth => ?_⟩
  have run : plain (machine.unwitnessed depth).enter = unwitnessed (depth + 1) (watched machine.enter) :=
    same (depth + 1)
  show Eval.always Machine.leave plain (machine.unwitnessed depth).enter =
    unwitnessed depth (Eval.always Machine.leave watched machine.enter)
  unfold Eval.always
  rw [run]
  cases watched machine.enter with
  | ok | error => rfl

/-- Without a witness, to count the levels of nesting and to give them back makes no
    difference. -/
theorem nested_eq (attests : Attests levels watched plain) : Eval.nested plain = plain := by
  funext machine
  have run : ∀ depth, plain { machine with depth } = unwitnessed depth (watched machine.witnessed) :=
    (attests machine.witnessed).2
  show Eval.always Machine.leave plain { machine with depth := machine.depth + 1 } = plain { machine with depth := machine.depth }
  unfold Eval.always
  rw [run, run]
  cases watched machine.witnessed with
  | ok | error => rfl

end Attests

end Eval

end PocketScript
