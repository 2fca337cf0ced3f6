import PocketScript.Machine.State

/-! # Events

A witnessed console keeps everything that happens in a run, in order: what it is
asked, the faults that are recorded, what becomes of the store, and how deep
evaluation is nested. An account of an evaluation is what was added meanwhile. It
leads from the console and the store before to those after, it ends at the first
fault, and the levels of nesting in it are within the limit and given back.
-/

namespace PocketScript

variable {κ α β : Type}

/-- What is asked of a console. -/
inductive Question where
  | print (text : String)
  | askText (limit : Nat)
  | askNumber (limit : Nat)
  | choose (title : String) (options : List String)
  | escapes
  | resume
  deriving DecidableEq

namespace Question

/-- What a console answers to a question. -/
abbrev Answer : Question → Type
  | .print _ | .escapes => Bool
  | .askText _ => Option String
  | .askNumber _ => Option Float32
  | .choose _ _ => MenuChoice
  | .resume => Unit

/-- Put a question to a console. -/
def put [Console κ] : (question : Question) → κ → question.Answer × κ
  | .print text, console => Console.print console text
  | .askText limit, console => Console.askText console limit
  | .askNumber limit, console => Console.askNumber console limit
  | .choose title options, console => Console.choose console title options
  | .escapes, console => Console.escapes console
  | .resume, console => ((), Console.resume console)

end Question

/-- What happens in a run. -/
inductive Event where
  | asked (question : Question)
  | noted (note : Note)

namespace Event

/-- Whether an event is a fault. -/
def isFault : Event → Bool
  | .noted (.failed _ _) => true
  | _ => false

/-- The console after an event. -/
def onConsole [Console κ] (console : κ) : Event → κ
  | .asked question => (question.put console).2
  | .noted _ => console

/-- The store after an event. -/
def onStore (store : Store) : Event → Store
  | .noted (.stored store) => store
  | _ => store

end Event

/-- A console and everything that happened since it was there. -/
structure Witnessed (κ : Type) where
  console : κ
  events : List Event

namespace Witnessed

/-- Put a question to the console, and keep it. -/
def ask [Console κ] (witnessed : Witnessed κ) (question : Question) : question.Answer × Witnessed κ :=
  let (answer, console) := question.put witnessed.console
  (answer, ⟨console, witnessed.events ++ [.asked question]⟩)

instance [Console κ] : Console (Witnessed κ) where
  print witnessed text := witnessed.ask (.print text)
  askText witnessed limit := witnessed.ask (.askText limit)
  askNumber witnessed limit := witnessed.ask (.askNumber limit)
  choose witnessed title options := witnessed.ask (.choose title options)
  escapes witnessed := witnessed.ask .escapes
  resume witnessed := (witnessed.ask .resume).2

instance : Witness (Witnessed κ) where
  note note witnessed := { witnessed with events := witnessed.events ++ [.noted note] }

end Witnessed

namespace Machine

/-- The machine of a run that is watched from here on. -/
def witnessed (machine : Machine κ) : Machine (Witnessed κ) :=
  { machine with console := ⟨machine.console, []⟩ }

/-- The machine that no one watches, nested as deep as given. -/
def unwitnessed (machine : Machine (Witnessed κ)) (depth : Nat) : Machine κ :=
  { machine with console := machine.console.console, depth }

end Machine

namespace Eval

/-- The machine that an evaluation leads to, however it ends. -/
def last : EStateM.Result Interrupt (Machine κ) α → Machine κ
  | .ok _ after | .error _ after => after

theorem last_always [Witness κ] (change : Machine κ → Machine κ) (evaluation : Eval κ α) (machine : Machine κ) :
    last (always change evaluation machine) = change (last (evaluation machine)) := by
  unfold always
  cases evaluation machine with
  | ok | error => rfl

/-- The end of an evaluation that no one watches. -/
def unwitnessed (depth : Nat) :
    EStateM.Result Interrupt (Machine (Witnessed κ)) α → EStateM.Result Interrupt (Machine κ) α
  | .ok result after => .ok result (after.unwitnessed depth)
  | .error interrupt after => .error interrupt (after.unwitnessed depth)

end Eval

/-- No event is a fault. -/
def Faultless (events : List Event) : Prop :=
  ∀ event ∈ events, event.isFault = false

namespace Faultless

variable {events later : List Event}

theorem append (one : Faultless events) (two : Faultless later) : Faultless (events ++ later) := by
  intro event mem
  exact (List.mem_append.1 mem).elim (one event) (two event)

theorem nil : Faultless [] :=
  fun _ mem => nomatch mem

theorem one {event : Event} (faultless : event.isFault = false) : Faultless [event] := by
  intro other mem
  rw [List.mem_singleton.1 mem]
  exact faultless

end Faultless

/-- Events of which at most the last is a fault. `result` is where they lead to
    from `before`: with a fault among them that fault is recorded there and the
    program ends, and otherwise the record is as before. -/
inductive FirstFaultEnds (before : Machine κ) (events : List Event) :
    EStateM.Result Interrupt (Machine κ) α → Prop where
  | faultless {result : EStateM.Result Interrupt (Machine κ) α} (none : Faultless events)
      (same : (Eval.last result).fault? = before.fault?) : FirstFaultEnds before events result
  | failed {after : Machine κ} (earlier : List Event) (fault : Fault)
      (last : events = earlier ++ [.noted (.failed before.fault? fault)]) (none : Faultless earlier)
      (recorded : after.fault? = some fault) : FirstFaultEnds before events (.error .quit after)

namespace FirstFaultEnds

variable {before middle : Machine κ} {events later : List Event} {interrupt : Interrupt}

/-- An interrupt that is passed on. -/
theorem error (ends : FirstFaultEnds before events (.error interrupt after : EStateM.Result Interrupt (Machine κ) α))
    (same : after'.fault? = after.fault?) :
    FirstFaultEnds before events (.error interrupt after' : EStateM.Result Interrupt (Machine κ) β) := by
  cases ends with
  | faultless none kept => exact .faultless none (same.trans kept)
  | failed earlier fault last none recorded => exact .failed earlier fault last none (same.trans recorded)

/-- A fault is left as it was recorded. -/
theorem always [Witness κ] (change : Machine κ → Machine κ) (same : ∀ machine, (change machine).fault? = machine.fault?)
    {evaluation : Eval κ α} (ends : FirstFaultEnds before events (evaluation middle)) :
    FirstFaultEnds before events (Eval.always change evaluation middle) := by
  unfold Eval.always
  cases ran : evaluation middle with
  | ok result after =>
      rw [ran] at ends
      cases ends with
      | faultless none kept => exact .faultless none ((same after).trans kept)
  | error interrupt after =>
      rw [ran] at ends
      exact ends.error (same after)

/-- What comes after events without a fault. -/
theorem append {result : EStateM.Result Interrupt (Machine κ) α} (none : Faultless events)
    (same : middle.fault? = before.fault?) (rest : FirstFaultEnds middle later result) :
    FirstFaultEnds before (events ++ later) result := by
  cases rest with
  | faultless others kept => exact .faultless (none.append others) (kept.trans same)
  | failed earlier fault last others recorded =>
      refine .failed (events ++ earlier) fault ?_ (none.append others) recorded
      rw [last, same, List.append_assoc]

/-- An evaluation that goes on had no fault. -/
theorem of_ok {result : α} {after : Machine κ} (ends : FirstFaultEnds before events (.ok result after)) :
    Faultless events ∧ after.fault? = before.fault? := by
  cases ends with
  | faultless none same => exact ⟨none, same⟩

/-- An evaluation that answers had no fault. -/
theorem of_answer {value : Value} {after : Machine κ}
    (ends : FirstFaultEnds before events (.error (.answer value) after : EStateM.Result Interrupt (Machine κ) α)) :
    Faultless events ∧ after.fault? = before.fault? := by
  cases ends with
  | faultless none same => exact ⟨none, same⟩

end FirstFaultEnds

/-- The events tell how an evaluation got from a machine to where it ended, with no
    more than that many further levels of nesting. -/
structure Account [Console κ] (levels : Nat) (before : Machine (Witnessed κ)) (events : List Event)
    (result : EStateM.Result Interrupt (Machine (Witnessed κ)) α) : Prop where
  kept : (Eval.last result).console.events = before.console.events ++ events
  console : (Eval.last result).console.console = events.foldl Event.onConsole before.console.console
  store : (Eval.last result).store = events.foldl Event.onStore before.store
  depth : (Eval.last result).depth = before.depth
  configuration : (Eval.last result).configuration = before.configuration
  within : ∀ depth, .noted (.entered depth) ∈ events → before.depth < depth ∧ depth ≤ before.depth + levels
  faults : FirstFaultEnds before events result

namespace Account

variable [Console κ] {levels lower : Nat} {before middle after : Machine (Witnessed κ)}
  {events later : List Event} {interrupt : Interrupt}

/-- Fewer levels are used than there are. -/
theorem mono {result : EStateM.Result Interrupt (Machine (Witnessed κ)) α}
    (account : Account lower before events result) (fewer : lower ≤ levels) : Account levels before events result :=
  { account with within := fun depth mem => (account.within depth mem).imp_right fun within => by omega }

/-- Nothing happened. -/
theorem nothing {result : EStateM.Result Interrupt (Machine (Witnessed κ)) α}
    (console : (Eval.last result).console = before.console) (store : (Eval.last result).store = before.store)
    (depth : (Eval.last result).depth = before.depth)
    (configuration : (Eval.last result).configuration = before.configuration)
    (fault : (Eval.last result).fault? = before.fault?) : Account levels before [] result where
  kept := by rw [console, List.append_nil]
  console := by rw [console, List.foldl_nil]
  store := store
  depth := depth
  configuration := configuration
  within _ mem := nomatch mem
  faults := .faultless .nil fault

/-- One thing happened after another. -/
theorem append {result : EStateM.Result Interrupt (Machine (Witnessed κ)) β} {value : α}
    (one : Account levels before events (.ok value middle)) (two : Account levels middle later result) :
    Account levels before (events ++ later) result where
  kept := by
    have early : middle.console.events = before.console.events ++ events := one.kept
    rw [two.kept, early, List.append_assoc]
  console := by
    have early : middle.console.console = events.foldl Event.onConsole before.console.console := one.console
    rw [two.console, early, List.foldl_append]
  store := by
    have early : middle.store = events.foldl Event.onStore before.store := one.store
    rw [two.store, early, List.foldl_append]
  depth := two.depth.trans one.depth
  configuration := two.configuration.trans one.configuration
  within depth mem := by
    have same : middle.depth = before.depth := one.depth
    rcases List.mem_append.mp mem with early | late
    · exact one.within depth early
    · exact same ▸ two.within depth late
  faults := .append one.faults.of_ok.1 one.faults.of_ok.2 two.faults

/-- An interrupt that is passed on. -/
theorem error (account : Account levels before events
      (.error interrupt after : EStateM.Result Interrupt (Machine (Witnessed κ)) α)) :
    Account levels before events (.error interrupt after : EStateM.Result Interrupt (Machine (Witnessed κ)) β) :=
  { account with faults := account.faults.error rfl }

/-- Memory is put in order afterwards, however evaluation ended. -/
theorem always {evaluation : Eval (Witnessed κ) α} (account : Account levels before events (evaluation middle))
    (change : Memory → Memory) :
    Account levels before events
      (Eval.always (fun machine => { machine with memory := change machine.memory }) evaluation middle) where
  kept := by rw [Eval.last_always]; exact account.kept
  console := by rw [Eval.last_always]; exact account.console
  store := by rw [Eval.last_always]; exact account.store
  depth := by rw [Eval.last_always]; exact account.depth
  configuration := by rw [Eval.last_always]; exact account.configuration
  within := account.within
  faults := account.faults.always _ fun _ => by rfl

/-- What happens one level deeper: the count is within the limit, and it is given
    back. -/
theorem nested {evaluation : Eval (Witnessed κ) α} (account : Account lower before.enter events (evaluation before.enter))
    (fewer : lower + 1 ≤ levels) :
    Account levels before (.noted (.entered (before.depth + 1)) :: events)
      (Eval.always Machine.leave evaluation before.enter) where
  kept := by rw [Eval.last_always]; exact account.kept.trans (List.append_assoc _ [_] _)
  console := by rw [Eval.last_always]; exact account.console
  store := by rw [Eval.last_always]; exact account.store
  depth := by
    have deeper : (Eval.last (evaluation before.enter)).depth = before.depth + 1 := account.depth
    rw [Eval.last_always, Machine.leave, deeper, Nat.add_sub_cancel]
  configuration := by rw [Eval.last_always]; exact account.configuration
  within depth mem := by
    rcases List.mem_cons.mp mem with here | deeper
    · obtain rfl : depth = before.depth + 1 := by simpa using here
      omega
    · have inside : before.depth + 1 < depth ∧ depth ≤ before.depth + 1 + lower := account.within depth deeper
      omega
  faults := by
    have entering : Faultless [.noted (.entered (before.depth + 1))] := .one rfl
    have same : before.enter.fault? = before.fault? := rfl
    exact .append entering same (account.faults.always _ fun _ => by rfl)

end Account

end PocketScript
