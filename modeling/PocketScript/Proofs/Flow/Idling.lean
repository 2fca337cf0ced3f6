import PocketScript.Proofs.Flow.Progress
import PocketScript.Proofs.Machine.Giving

/-! # Blocks that are skipped

While a block is skipped, nothing in it is evaluated. The machine only follows
its structure, asks whether the user wants to stop and collects what nothing
reaches.
-/

namespace PocketScript

variable {κ : Type}

namespace ScopeStack

variable {stack other : ScopeStack}

/-- The open blocks of the innermost scope, the innermost first. -/
def blocks (stack : ScopeStack) : List Branch :=
  (stack.innermost?.map (·.branches)).getD []

theorem action_eq (stack : ScopeStack) : stack.action = (stack.blocks.head?.map (·.action)).getD .run := by
  rw [action, branch?, blocks]
  cases stack.innermost? with
  | none => rfl
  | some scope => cases here : scope.branches.head? <;> simp [here]

theorem blocks_pushBranch {action : BranchAction} {address : Address} {ceiling : Nat}
    (pushed : stack.pushBranch action address ceiling = .ok other) :
    other.blocks = ⟨action, address⟩ :: stack.blocks := by
  cases here : stack.innermost? with
  | none => simp [pushBranch, here] at pushed
  | some scope =>
      simp only [pushBranch, here] at pushed
      split at pushed
      · obtain rfl := Except.ok.inj pushed
        simp [blocks, here, innermost?_setInnermost]
      · split at pushed
        · simp at pushed
        · obtain rfl := Except.ok.inj pushed
          simp [blocks, here, innermost?_setInnermost]

/-- Opening a block, as an operation on memory. -/
theorem pushed_of_map {action : BranchAction} {address : Address} {ceiling : Nat} {result : Unit}
    (changed : (stack.pushBranch action address ceiling).map (fun stack => ((), stack)) = .ok (result, other)) :
    stack.pushBranch action address ceiling = .ok other := by
  cases pushed : stack.pushBranch action address ceiling with
  | error error => simp [pushed, Except.map] at changed
  | ok opened =>
      obtain rfl : opened = other := by simpa [pushed, Except.map] using changed
      rfl

theorem blocks_popBranch (popped : stack.popBranch.1 = true) :
    ∃ branch next outer, stack.blocks = branch :: next :: outer ∧ stack.popBranch.2.blocks = next :: outer := by
  cases here : stack.innermost? with
  | none => simp [popBranch, here] at popped
  | some scope =>
      cases branches : scope.branches with
      | nil => simp [popBranch, here, branches] at popped
      | cons branch rest =>
          cases rest with
          | nil => simp [popBranch, here, branches] at popped
          | cons next outer =>
              exact ⟨branch, next, outer, by simp [blocks, here, branches],
                by simp [popBranch, blocks, here, branches, innermost?_setInnermost]⟩

theorem blocks_setAction (stack : ScopeStack) (action : BranchAction) :
    (stack.setAction action).blocks = stack.blocks.modifyHead ({ · with action }) := by
  rw [setAction, modifyBranches]
  cases here : stack.innermost? with
  | none => simp [blocks, here]
  | some scope => simp [blocks, here, innermost?_setInnermost]

theorem setAction_setAction (stack : ScopeStack) (first second : BranchAction) :
    (stack.setAction first).setAction second = stack.setAction second := by
  simp only [setAction, modifyBranches]
  cases here : stack.innermost? with
  | none => simp [here]
  | some scope =>
      simp only [innermost?_setInnermost]
      cases scope.branches with
      | nil | cons branch outer => simp [setInnermost]

end ScopeStack

/-- A value is a variable's if it is at some place in the scope. -/
theorem Memory.mem_rootValues_scope {memory : Memory} {index : Nat} {value : Value} :
    value ∈ memory.rootValues (.scope index) ↔
      ∃ position binding, memory.stack.variableAt? ⟨index, position⟩ = some binding ∧ binding.value = value := by
  simp only [rootValues, ScopeStack.variableAt?]
  cases memory.stack.scopes[index]? with
  | none => simp
  | some scope =>
      simp only [List.mem_map, Array.mem_toList_iff, Option.bind_some]
      constructor
      · rintro ⟨binding, mem, rfl⟩
        obtain ⟨position, here⟩ := Array.mem_iff_getElem?.mp mem
        exact ⟨position, binding, here, rfl⟩
      · rintro ⟨position, binding, here, rfl⟩
        exact ⟨binding, Array.mem_of_getElem? here, rfl⟩

/-- The user was asked some times whether to stop, and went on. -/
inductive Polled [Console κ] : κ → κ → Prop where
  | here (console : κ) : Polled console console
  | asked {console last : κ} : (Console.escapes console).1 = false → Polled (Console.escapes console).2 last →
      Polled console last

theorem Polled.trans [Console κ] {console middle last : κ} (first : Polled console middle)
    (second : Polled middle last) : Polled console last := by
  induction first with
  | here => exact second
  | asked goes _ ih => exact .asked goes (ih second)

/-- Nothing was evaluated. Only block records, the count of statements and objects
    that nothing reaches may differ. -/
structure Machine.Idles [Console κ] (machine after : Machine κ) : Prop where
  ready : after.Ready
  store : after.store = machine.store
  console : Polled machine.console after.console
  draws : after.draws = machine.draws
  fault : after.fault? = machine.fault?
  roots : after.memory.roots = machine.memory.roots
  bindings : machine.memory.stack.SameVariables after.memory.stack
  contents : ∀ handle, machine.memory.ReachesObject handle →
    after.memory.heap.contents handle = machine.memory.heap.contents handle

namespace Machine.Idles

variable [Console κ] {machine after last : Machine κ} {value : Value} {handle : Handle}

theorem refl (ready : machine.Ready) : machine.Idles machine :=
  ⟨ready, rfl, .here _, rfl, rfl, rfl, .refl _, fun _ _ => rfl⟩

/-- What is reached stays reached. -/
theorem reaches (idles : machine.Idles after) (reaches : machine.memory.Reaches value) :
    after.memory.Reaches value := by
  induction reaches with
  | root root value mem holds =>
      refine .root root value (by rwa [idles.roots]) ?_
      cases root with
      | value _ | values _ => exact holds
      | scope index =>
          obtain ⟨position, binding, here, same⟩ := Memory.mem_rootValues_scope.mp holds
          exact Memory.mem_rootValues_scope.mpr
            ⟨position, binding, (idles.bindings.variableAt? _).trans here, same⟩
  | item cell values value list_reached list mem ih =>
      obtain ⟨object, at_cell, at_object⟩ := Memory.payload_eq_ok_iff_contents.mp (Memory.list_eq_ok_iff.mp list)
      have cell_reached : machine.memory.ReachesObject cell := .cell _ cell list_reached rfl
      have object_reached : machine.memory.ReachesObject object :=
        .target _ cell object list_reached rfl (Heap.target?_eq_some_iff.mpr at_cell)
      refine .item cell values value ih (Memory.list_eq_ok_iff.mpr ?_) mem
      refine Memory.payload_eq_ok_iff_contents.mpr ⟨object, ?_, ?_⟩
      · rw [idles.contents cell cell_reached, at_cell]
      · rw [idles.contents object object_reached, at_object]

theorem reachesObject (idles : machine.Idles after) (reaches : machine.memory.ReachesObject handle) :
    after.memory.ReachesObject handle := by
  cases reaches with
  | cell value cell reached named => exact .cell value handle (idles.reaches reached) named
  | target value cell object reached named stands =>
      have at_cell := Heap.target?_eq_some_iff.mp stands
      refine .target value cell handle (idles.reaches reached) named (Heap.target?_eq_some_iff.mpr ?_)
      rw [idles.contents cell (.cell value cell reached named), at_cell]

theorem trans (first : machine.Idles after) (second : after.Idles last) : machine.Idles last where
  ready := second.ready
  store := second.store.trans first.store
  console := first.console.trans second.console
  draws := second.draws.trans first.draws
  fault := second.fault.trans first.fault
  roots := second.roots.trans first.roots
  bindings := ⟨second.bindings.depth.trans first.bindings.depth,
    fun place => (second.bindings.variableAt? place).trans (first.bindings.variableAt? place)⟩
  contents handle reached :=
    (second.contents handle (first.reachesObject reached)).trans (first.contents handle reached)

end Machine.Idles

/-- What a statement that is skipped does to the open blocks. -/
inductive Shifts : List Branch → List Branch → Prop where
  | stays (blocks : List Branch) : Shifts blocks blocks
  | opens (blocks : List Branch) : Shifts blocks (⟨.ignoreHard, 0⟩ :: blocks)
  | closes (branch next : Branch) (outer : List Branch) : Shifts (branch :: next :: outer) (next :: outer)

/-- The byte of an arm behind the first. -/
def startsArm (byte : UInt8) : Prop :=
  Symbol.builtin? byte = some (.control .otherwise) ∨ Symbol.builtin? byte = some (.control .otherwiseWhen)

/-- The machine with other block records. -/
def Machine.Reblocks (machine after : Machine κ) : Prop :=
  ∃ stack, after = { machine with memory := { machine.memory with stack } } ∧
    machine.memory.stack.SameVariables stack ∧ Shifts machine.memory.stack.blocks stack.blocks

namespace Machine

open Eval (Gives)

variable {machine after last : Machine κ} {inner : Inner κ} {address code : Address} {limit levels : Nat}

theorem Reblocks.refl (machine : Machine κ) : machine.Reblocks machine :=
  ⟨machine.memory.stack, rfl, .refl _, .stays _⟩

theorem gives_skip (passed : machine.memory.stack.action = .ignoreSoft → ¬ startsArm (machine.store.byte address)) :
    Gives (skip inner (.starting address)) machine fun _ after => machine.Reblocks after := by
  have ends : ∀ {after : Machine κ} (expression : Expression), machine.Reblocks after →
      Gives (do return { expression with code := (← get).store.lineEnd expression.code }) after
        fun _ after => machine.Reblocks after :=
    fun _ reblocks => .pure reblocks
  have opens : Gives (Eval.onMemory address (Memory.pushBranch .ignoreHard 0)) machine
      fun _ after => machine.Reblocks after := by
    refine .onMemoryStack fun _ stack changed => ?_
    have pushed := ScopeStack.pushed_of_map changed
    refine ⟨_, rfl, ScopeStack.sameVariables_pushBranch pushed, ?_⟩
    rw [ScopeStack.blocks_pushBranch pushed]
    exact .opens _
  have closes : Gives (Eval.onStack ScopeStack.popBranch) machine
      fun popped after => popped = true → machine.Reblocks after := by
    refine .onStack fun popped => ?_
    obtain ⟨branch, next, outer, before, now⟩ := ScopeStack.blocks_popBranch popped
    refine ⟨_, rfl, ScopeStack.sameVariables_popBranch _, ?_⟩
    rw [before, now]
    exact .closes branch next outer
  have stays := ends (.starting address) (.refl machine)
  unfold skip
  refine .get_bind (.byteAt_bind ?_)
  cases found : Symbol.builtin? (machine.store.byte address) with
  | none =>
      simp only [Expression.starting, found]
      exact stays
  | some builtin =>
      cases builtin with
      | math function | value function | console function | file function =>
          simp only [Expression.starting, found]
          exact stays
      | control function =>
          simp only [Expression.starting, found]
          cases function with
          | leaveLoop | nextRound | answer | leave | quit => exact stays
          | whenTrue | loop | define => exact opens.bind fun _ _ reblocks => ends _ reblocks
          | close =>
              refine closes.bind fun popped after reblocks => ?_
              cases popped with
              | false => exact .raise _
              | true => exact ends _ (reblocks rfl)
          | otherwiseWhen =>
              have hard : machine.memory.stack.action ≠ .ignoreSoft := fun soft => passed soft (.inr found)
              simp only [if_neg hard]
              exact stays
          | otherwise =>
              have hard : machine.memory.stack.action ≠ .ignoreSoft := fun soft => passed soft (.inl found)
              simp only [if_neg hard]
              exact stays

variable [Console κ]

/-- What is skipped registers no root. -/
theorem gives_evaluate_skipped (ignored : machine.memory.stack.action.isIgnored = true)
    (passed : machine.memory.stack.action = .ignoreSoft → ¬ startsArm (machine.store.byte address)) :
    Gives (evaluate limit levels address Inner.statementCeiling true) machine
      fun _ after => machine.Reblocks after := by
  cases levels with
  | zero => exact .raise _
  | succ deeper =>
      rw [evaluate_succ]
      refine .get_bind (.always ?_)
      refine .get_bind ?_
      rw [if_pos ignored]
      refine (gives_skip passed).mono ?_
      rintro _ _ ⟨stack, rfl, same, shifts⟩
      refine ⟨stack, ?_, same, shifts⟩
      simp [Roots.release]

theorem Reblocks.idles (reblocks : machine.Reblocks after) (ready : after.Ready) : machine.Idles after := by
  obtain ⟨stack, rfl, same, -⟩ := reblocks
  exact ⟨ready, rfl, .here _, rfl, rfl, rfl, same, fun _ _ => rfl⟩

/-- Between two statements, the blocks stay as they are. -/
theorem gives_betweenStatements (ready : machine.Ready) :
    Gives betweenStatements machine fun _ after => machine.Idles after ∧ after.memory.stack = machine.memory.stack := by
  have asks : ∀ {middle : Machine κ}, machine.Idles middle → middle.memory.stack = machine.memory.stack →
      Gives (do if ← Eval.ask Console.escapes then throw .quit) middle
        fun _ after => machine.Idles after ∧ after.memory.stack = machine.memory.stack := by
    intro middle idles same
    refine Gives.bind (?_ : Gives _ middle fun escapes after =>
      escapes = false → machine.Idles after ∧ after.memory.stack = machine.memory.stack) ?_
    · rintro _ _ ⟨⟩ goes
      have polled : middle.Idles { middle with console := (Console.escapes middle.console).2 } :=
        ⟨⟨⟨idles.ready.harmless, idles.ready.sound⟩, idles.ready.tracked⟩, rfl, .asked goes (.here _), rfl, rfl, rfl,
          .refl _, fun _ _ => rfl⟩
      exact ⟨idles.trans polled, same⟩
    · intro escapes after holds
      cases escapes with
      | false => exact .pure (holds rfl)
      | true => exact .throw _
  refine Gives.bind (?_ : Gives _ machine fun _ counted =>
    machine.Idles counted ∧ counted.memory = machine.memory) ?_
  · rintro _ _ ⟨⟩
    exact ⟨⟨⟨⟨ready.harmless, ready.sound⟩, ready.tracked⟩, rfl, .here _, rfl, rfl, rfl, .refl _, fun _ _ => rfl⟩, rfl⟩
  rintro _ counted ⟨idles, same⟩
  refine .get_bind ?_
  split
  · refine Gives.bind (?_ : Gives _ counted fun _ collected =>
      machine.Idles collected ∧ collected.memory.stack = machine.memory.stack) ?_
    · rintro _ _ ⟨⟩
      have sound := idles.ready.sound
      have collected : counted.Idles { counted with memory := counted.memory.collect.2, recentStatements := 0 } :=
        ⟨⟨⟨idles.ready.harmless, sound.collect idles.ready.tracked⟩, idles.ready.tracked⟩, rfl, .here _, rfl, rfl, rfl,
          .refl _, fun handle reached => (sound.contents_collect handle).1 reached⟩
      refine ⟨idles.trans collected, ?_⟩
      rw [← same]
      rfl
    · rintro _ collected ⟨idles, same⟩
      exact asks idles same
  · exact asks idles (congrArg Memory.stack same)

/-- Run one line, or the feed behind it, in code that goes on. -/
def advance? (limit levels : Nat) (machine : Machine κ) (address : Address) : Option (Machine κ × Address) :=
  if machine.store.byte address = 0x0a then some (machine, address + 1)
  else if machine.store.byte address = 0 then none
  else
    match evaluate limit levels address Inner.statementCeiling true machine with
    | .error _ _ => none
    | .ok expression middle =>
      match betweenStatements middle with
      | .error _ _ => none
      | .ok _ after => some (after, expression.code)

/-- A line leads on to another address. -/
def Advances (limit levels : Nat) (machine : Machine κ) (address : Address) (after : Machine κ) (code : Address) :
    Prop :=
  machine.advance? limit levels address = some (after, code)

theorem Advances.newline_or_statement (advances : Advances limit levels machine address after code) :
    (machine.store.byte address = 0x0a ∧ machine = after ∧ address + 1 = code) ∨
      machine.store.byte address ≠ 0x0a ∧ machine.store.byte address ≠ 0 ∧ ∃ expression middle,
        evaluate limit levels address Inner.statementCeiling true machine = .ok expression middle ∧
          betweenStatements middle = .ok () after ∧ expression.code = code := by
  unfold Advances advance? at advances
  split at advances
  · next feed => exact .inl ⟨feed, by simpa using advances⟩
  · next no_feed =>
    split at advances
    · simp at advances
    · next some_byte =>
      cases ran : evaluate limit levels address Inner.statementCeiling true machine with
      | error interrupt middle => simp [ran] at advances
      | ok expression middle =>
          cases between : betweenStatements middle with
          | error interrupt last => simp [ran, between] at advances
          | ok _ last =>
              obtain ⟨rfl, code⟩ : last = after ∧ expression.code = code := by simpa [ran, between] using advances
              exact .inr ⟨no_feed, some_byte, expression, middle, rfl, between, code⟩

theorem Advances.runFrom (advances : Advances limit levels machine address after code) (steps : Nat) :
    runFrom limit levels (steps + 1) address machine = runFrom limit levels steps code after := by
  unfold Machine.runFrom
  obtain ⟨feed, rfl, rfl⟩ | ⟨feed, zero, expression, middle, ran, between, rfl⟩ := advances.newline_or_statement
  · rw [runCode]
    simp only [Bind.bind, EStateM.bind, Eval.byteAt, get, getThe, MonadStateOf.get, EStateM.get, pure, EStateM.pure,
      feed, if_true]
  · rw [runCode]
    simp only [Bind.bind, EStateM.bind, Eval.byteAt, get, getThe, MonadStateOf.get, EStateM.get, pure, EStateM.pure,
      feed, zero, if_false, orAnswer, ran, between]

theorem ready_of_evaluate {expression : Expression} {ceiling : Nat} {isStatement : Bool} (ready : machine.Ready)
    (ran : evaluate limit levels address ceiling isStatement machine = .ok expression after) : after.Ready := by
  have keeps := keeps_evaluate limit levels ready address ceiling isStatement
  unfold Eval.Keeps Eval.KeepsFrom at keeps
  rw [ran] at keeps
  exact keeps.1.ready ready

/-- A line is a statement of which `done` holds, and nothing is evaluated behind
    it. -/
theorem Advances.statement_gives {done : Machine κ → Prop} (advances : Advances limit levels machine address after code)
    (ready : machine.Ready) (feed : machine.store.byte address ≠ 0x0a)
    (gives : Gives (evaluate limit levels address Inner.statementCeiling true) machine fun _ middle => done middle) :
    ∃ middle, done middle ∧ middle.Idles after ∧ after.memory.stack = middle.memory.stack := by
  obtain ⟨is_feed, -⟩ | ⟨-, -, expression, middle, ran, between, -⟩ := advances.newline_or_statement
  · exact absurd is_feed feed
  · obtain ⟨idles, same⟩ := gives_betweenStatements (ready_of_evaluate ready ran) _ _ between
    exact ⟨middle, gives _ _ ran, idles, same⟩

/-- A line that is skipped. -/
theorem Advances.skips (advances : Advances limit levels machine address after code) (ready : machine.Ready)
    (ignored : machine.memory.stack.action.isIgnored = true)
    (passed : machine.memory.stack.action = .ignoreSoft → ¬ startsArm (machine.store.byte address)) :
    machine.Idles after ∧ Shifts machine.memory.stack.blocks after.memory.stack.blocks := by
  by_cases feed : machine.store.byte address = 0x0a
  · obtain ⟨-, rfl, -⟩ | ⟨no_feed, -⟩ := advances.newline_or_statement
    · exact ⟨.refl ready, .stays _⟩
    · exact absurd feed no_feed
  · have ready_middle : Gives (evaluate limit levels address Inner.statementCeiling true) machine
        fun _ middle => machine.Reblocks middle ∧ middle.Ready :=
      fun result middle ran => ⟨gives_evaluate_skipped ignored passed result middle ran, ready_of_evaluate ready ran⟩
    obtain ⟨middle, ⟨reblocks, ready_middle⟩, idles, same⟩ := advances.statement_gives ready feed ready_middle
    refine ⟨(reblocks.idles ready_middle).trans idles, ?_⟩
    obtain ⟨stack, rfl, -, shifts⟩ := reblocks
    rw [same]
    exact shifts

/-- Lines, each of them one of those in question, that are run while more than
    `depth` blocks are open. -/
inductive Within (limit levels depth : Nat) (lines : Machine κ → Address → Prop) (machine : Machine κ)
    (address : Address) : Machine κ → Address → Prop where
  | here : Within limit levels depth lines machine address machine address
  | advances {middle after : Machine κ} {code code' : Address} :
      Within limit levels depth lines machine address middle code → lines middle code →
      Advances limit levels middle code after code' → depth < after.memory.stack.blocks.length →
      Within limit levels depth lines machine address after code'

/-- Blocks that are skipped, around which there may be others. -/
def Skipped (branch : Branch) (outer blocks : List Branch) : Prop :=
  ∃ opened, blocks = opened ++ branch :: outer ∧ ∀ block ∈ opened, block.action = .ignoreHard

theorem Skipped.shifts {branch : Branch} {outer blocks blocks' : List Branch} (skipped : Skipped branch outer blocks)
    (shifts : Shifts blocks blocks') (still : outer.length < blocks'.length) : Skipped branch outer blocks' := by
  obtain ⟨opened, rfl, hard⟩ := skipped
  generalize same : opened ++ branch :: outer = blocks at shifts
  cases shifts with
  | stays => exact ⟨opened, same.symm, hard⟩
  | opens =>
      refine ⟨⟨.ignoreHard, 0⟩ :: opened, by rw [← same]; rfl, fun block mem => ?_⟩
      rcases List.mem_cons.mp mem with rfl | mem
      · rfl
      · exact hard block mem
  | closes first next rest =>
      cases opened with
      | nil =>
          obtain ⟨rfl, rfl⟩ : branch = first ∧ outer = next :: rest := by simpa using same
          simp at still
      | cons block opened =>
          obtain ⟨-, same⟩ : block = first ∧ opened ++ branch :: outer = next :: rest := by simpa using same
          exact ⟨opened, same.symm, fun block mem => hard block (List.mem_cons_of_mem _ mem)⟩

/-- In a block that is skipped nothing is evaluated until its end, or until the
    next arm if none was taken. -/
theorem Within.idles {branch : Branch} {outer : List Branch} {lines : Machine κ → Address → Prop}
    (within : Within limit levels outer.length lines machine address after code) (ready : machine.Ready)
    (blocks : machine.memory.stack.blocks = branch :: outer) (ignored : branch.action.isIgnored = true)
    (passed : branch.action = .ignoreSoft → ∀ middle code, lines middle code →
      middle.memory.stack.blocks = branch :: outer → ¬ startsArm (middle.store.byte code)) :
    machine.Idles after ∧ Skipped branch outer after.memory.stack.blocks := by
  induction within with
  | here => exact ⟨.refl ready, [], blocks, by simp⟩
  | @advances middle after code code' within line advances still ih =>
      obtain ⟨idles, skipped⟩ := ih
      -- Blocks that were opened since are skipped for good.
      obtain ⟨opened, same, hard⟩ := id skipped
      have action := ScopeStack.action_eq middle.memory.stack
      rw [same] at action
      cases opened with
      | nil =>
          have action : middle.memory.stack.action = branch.action := action
          rw [← action] at ignored passed
          obtain ⟨idles', shifts⟩ := advances.skips idles.ready ignored fun soft => passed soft middle code line same
          exact ⟨idles.trans idles', skipped.shifts shifts still⟩
      | cons block opened =>
          have action : middle.memory.stack.action = .ignoreHard := action.trans (hard block (List.mem_cons_self ..))
          obtain ⟨idles', shifts⟩ :=
            advances.skips idles.ready (by rw [action]; rfl) fun soft => by simp [action] at soft
          exact ⟨idles.trans idles', skipped.shifts shifts still⟩

end Machine

end PocketScript
