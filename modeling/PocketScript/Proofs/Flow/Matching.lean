import PocketScript.Proofs.Flow.Arms
import PocketScript.Proofs.Metering.Advancing
import PocketScript.Proofs.Schedule.Evaluations

/-! # The end that matches

A block that is skipped is not read for its structure ahead of time: its lines are passed one
by one, and each that opens or closes a block does so among the blocks that are skipped. The
block is closed by the first end line in front of which as many blocks were opened as closed,
whatever the lines hold.
-/

namespace PocketScript

/-- A line that begins with this byte opens a block. -/
def Symbol.opensBlock (byte : UInt8) : Bool :=
  match builtin? byte with
  | some (.control .whenTrue) | some (.control .loop) | some (.control .define) => true
  | _ => false

/-- A line that begins with this byte closes a block. -/
def Symbol.closesBlock (byte : UInt8) : Bool :=
  builtin? byte = some (.control .close)

namespace Store

/-- The code from an address on, read line by line: where the lines begin that are passed, and
    where the code goes on. -/
inductive Lines (store : Store) (address : Address) : List Address → Address → Prop where
  | here : Lines store address [] address
  | feed {lines : List Address} {code : Address} : Lines store address lines code →
      store.byte code = 0x0a → Lines store address lines (code + 1)
  | line {lines : List Address} {code : Address} : Lines store address lines code →
      endsLine (store.byte code) = false → Lines store address (lines ++ [code]) (store.lineEnd code)

/-- How many of these lines open a block. -/
def opened (store : Store) (lines : List Address) : Nat :=
  lines.countP fun line => Symbol.opensBlock (store.byte line)

/-- How many of these lines close a block. -/
def closed (store : Store) (lines : List Address) : Nat :=
  lines.countP fun line => Symbol.closesBlock (store.byte line)

/-- Each end line among these closes a block that one of them opened. -/
def Inside (store : Store) (lines : List Address) : Prop :=
  ∀ earlier line later, lines = earlier ++ line :: later → Symbol.closesBlock (store.byte line) = true →
    store.closed earlier < store.opened earlier

variable {store : Store} {lines : List Address} {address code line : Nat}

/-- No line lies behind the end of the store. -/
theorem Lines.le_capacity (passed : store.Lines address lines code) : code = address ∨ code ≤ capacity := by
  cases passed with
  | here => exact .inl rfl
  | @feed _ code _ feed =>
      have below : code < capacity := lt_capacity (by rw [feed]; decide)
      exact .inr below
  | @line lines code _ inside =>
      have below : code < capacity := lt_capacity fun zero => by
        rw [zero] at inside
        exact absurd inside (by decide)
      have scanned : (store.lineFrom code).length ≤ capacity - code := store.length_scanWithin_le _ _ _
      exact .inr (Nat.add_le_of_le_sub' (Nat.le_of_lt below) scanned)

theorem Inside.nil : store.Inside [] := by
  simp [Inside]

theorem Inside.concat (inside : store.Inside lines)
    (apart : Symbol.closesBlock (store.byte line) = true → store.closed lines < store.opened lines) :
    store.Inside (lines ++ [line]) := by
  intro earlier other later same closes
  rcases List.eq_nil_or_concat later with rfl | ⟨rest, last, rfl⟩
  · obtain ⟨rfl, rfl⟩ := List.append_inj' same rfl |>.imp_right List.singleton_inj.mp
    exact apart closes
  · rw [List.concat_eq_append, ← List.cons_append, ← List.append_assoc] at same
    exact inside earlier other rest (List.append_inj' same rfl).1 closes

theorem opened_concat : store.opened (lines ++ [line]) =
    store.opened lines + (Symbol.opensBlock (store.byte line)).toNat := by
  rw [opened, List.countP_append, List.countP_singleton, opened]
  cases Symbol.opensBlock (store.byte line) <;> rfl

theorem closed_concat : store.closed (lines ++ [line]) =
    store.closed lines + (Symbol.closesBlock (store.byte line)).toNat := by
  rw [closed, List.countP_append, List.countP_singleton, closed]
  cases Symbol.closesBlock (store.byte line) <;> rfl

theorem Inside.closed_le (inside : store.Inside lines) : store.closed lines ≤ store.opened lines := by
  induction lines using List.reverseRecOn with
  | nil => exact Nat.le_refl 0
  | append_singleton lines line ih =>
      have before := ih fun earlier other later same => inside earlier other (later ++ [line]) (by simp [same])
      have last := inside lines line [] rfl
      rw [closed_concat, opened_concat]
      cases closes : Symbol.closesBlock (store.byte line) with
      | false => exact Nat.le_trans before (Nat.le_add_right _ _)
      | true => exact Nat.le_trans (last closes) (Nat.le_add_right _ _)

end Store

namespace Symbol

variable {byte : UInt8}

theorem closesBlock_of_opensBlock (opens : opensBlock byte = true) : closesBlock byte = false := by
  unfold opensBlock at opens
  unfold closesBlock
  split at opens <;> simp_all

/-- The open blocks behind a line that is skipped for good. -/
def blocksBehind (byte : UInt8) (blocks : List Branch) : List Branch :=
  if opensBlock byte then ⟨.ignoreHard, 0⟩ :: blocks
  else if closesBlock byte then blocks.tail
  else blocks

theorem blocksBehind_close (closes : closesBlock byte = true) (block : Branch) (outer : List Branch) :
    blocksBehind byte (block :: outer) = outer := by
  have opens : opensBlock byte ≠ true := fun opens => by simp [closesBlock_of_opensBlock opens] at closes
  rw [blocksBehind, if_neg opens, if_pos closes]
  rfl

theorem blocksBehind_replicate {depth : Nat} (apart : closesBlock byte = true → 0 < depth) (blocks : List Branch) :
    blocksBehind byte (List.replicate depth ⟨.ignoreHard, 0⟩ ++ blocks) =
      List.replicate (depth + (opensBlock byte).toNat - (closesBlock byte).toNat) ⟨.ignoreHard, 0⟩ ++ blocks := by
  unfold blocksBehind
  cases opens : opensBlock byte with
  | true => simp [closesBlock_of_opensBlock opens, List.replicate_succ]
  | false =>
      cases closes : closesBlock byte with
      | true =>
          obtain ⟨lower, rfl⟩ : ∃ lower, depth = lower + 1 := ⟨depth - 1, by have := apart closes; omega⟩
          simp [List.replicate_succ]
      | false => simp

end Symbol

namespace ScopeStack

open PocketScript.Symbol

variable {stack middle after : ScopeStack} {branches branches' : List Branch} {scope : Scope}

/-- The same scopes, but for the blocks of the innermost one and the bytes that their records
    take. -/
def Reblocked (stack : ScopeStack) (blocks : List Branch) (after : ScopeStack) : Prop :=
  ∃ scope used records, stack.innermost? = some scope ∧
    after = stack.setInnermost { scope with branches := blocks, used, records }

theorem setInnermost_innermost (here : stack.innermost? = some scope) : stack.setInnermost scope = stack := by
  refine congrArg ScopeStack.mk (Array.ext_getElem? fun index => ?_)
  change (stack.setInnermost scope).scopes[index]? = _
  rw [getElem?_setInnermost here]
  split
  · next last => rw [← here, innermost?_eq, ← last, Nat.add_sub_cancel]
  · rfl

namespace Reblocked

theorem refl (here : stack.innermost? = some scope) : stack.Reblocked scope.branches stack :=
  ⟨scope, scope.used, scope.records, here, (setInnermost_innermost here).symm⟩

theorem trans (first : stack.Reblocked branches middle) (second : middle.Reblocked branches' after) :
    stack.Reblocked branches' after := by
  obtain ⟨scope, used, records, here, rfl⟩ := first
  obtain ⟨_, used', records', there, rfl⟩ := second
  rw [innermost?_setInnermost] at there
  obtain rfl := Option.some.inj there
  exact ⟨scope, used', records', here, by simp [setInnermost]⟩

theorem blocks (reblocked : stack.Reblocked branches after) : after.blocks = branches := by
  obtain ⟨scope, used, records, -, rfl⟩ := reblocked
  rw [ScopeStack.blocks, innermost?_setInnermost]
  rfl

theorem sameVariables (reblocked : stack.Reblocked branches after) : stack.SameVariables after := by
  obtain ⟨scope, used, records, here, rfl⟩ := reblocked
  exact sameVariables_setInnermost here rfl

theorem pushBranch {action : BranchAction} {address : Address} {ceiling : Nat}
    (pushed : stack.pushBranch action address ceiling = .ok after) :
    stack.Reblocked (⟨action, address⟩ :: stack.blocks) after := by
  cases here : stack.innermost? with
  | none => simp [ScopeStack.pushBranch, here] at pushed
  | some scope =>
      have same : stack.blocks = scope.branches := by simp [ScopeStack.blocks, here]
      simp only [ScopeStack.pushBranch, here] at pushed
      rw [same]
      split at pushed
      · obtain rfl := Except.ok.inj pushed
        exact ⟨scope, _, _, here, rfl⟩
      · split at pushed
        · cases pushed
        · obtain rfl := Except.ok.inj pushed
          exact ⟨scope, _, _, here, rfl⟩

theorem popBranch {block next : Branch} {outer : List Branch} (blocks : stack.blocks = block :: next :: outer) :
    stack.popBranch.1 = true ∧ stack.Reblocked (next :: outer) stack.popBranch.2 := by
  cases here : stack.innermost? with
  | none => simp [ScopeStack.blocks, here] at blocks
  | some scope =>
      have same : scope.branches = block :: next :: outer := by simpa [ScopeStack.blocks, here] using blocks
      simp only [ScopeStack.popBranch, here, same]
      exact ⟨trivial, scope, _, _, here, rfl⟩

end Reblocked

/-- Follow a line that is skipped for good. -/
def follow (stack : ScopeStack) (byte : UInt8) (ceiling : Nat) : Except MemoryError ScopeStack :=
  if opensBlock byte then stack.pushBranch .ignoreHard 0 ceiling
  else if closesBlock byte then .ok stack.popBranch.2
  else .ok stack

theorem pushBranch_error {action : BranchAction} {address : Address} {ceiling : Nat} {error : MemoryError}
    (refused : stack.pushBranch action address ceiling = .error error) : error = .collision := by
  unfold pushBranch at refused
  split at refused
  · exact (Except.error.inj refused).symm
  · dsimp only at refused
    split at refused
    · cases refused
    · split at refused
      · exact (Except.error.inj refused).symm
      · cases refused

/-- A line can always be followed above the outermost block, unless a record that it needs finds
    no room. -/
theorem follow_cases {block next : Branch} {outer : List Branch} (blocks : stack.blocks = block :: next :: outer)
    (byte : UInt8) (ceiling : Nat) :
    (opensBlock byte = true ∧ stack.follow byte ceiling = .error .collision) ∨
      ∃ after, stack.follow byte ceiling = .ok after ∧ stack.Reblocked (blocksBehind byte stack.blocks) after := by
  unfold follow blocksBehind
  cases opens : opensBlock byte with
  | true =>
      cases pushed : stack.pushBranch .ignoreHard 0 ceiling with
      | error error =>
          obtain rfl := pushBranch_error pushed
          exact .inl ⟨rfl, rfl⟩
      | ok after => exact .inr ⟨after, rfl, Reblocked.pushBranch pushed⟩
  | false =>
      cases closes : closesBlock byte with
      | true =>
          refine .inr ⟨stack.popBranch.2, rfl, ?_⟩
          rw [blocks]
          exact (Reblocked.popBranch blocks).2
      | false =>
          obtain ⟨scope, here⟩ : ∃ scope, stack.innermost? = some scope := by
            cases here : stack.innermost? with
            | none => simp [ScopeStack.blocks, here] at blocks
            | some scope => exact ⟨scope, rfl⟩
          have same : stack.blocks = scope.branches := by simp [ScopeStack.blocks, here]
          refine .inr ⟨stack, rfl, ?_⟩
          rw [same]
          exact .refl here

end ScopeStack

variable {κ : Type} [Console κ]

/-- The user was asked so often whether to stop, and went on each time. -/
inductive Asked : Nat → κ → κ → Prop where
  | never (console : κ) : Asked 0 console console
  | again {count : Nat} {console last : κ} : Asked count console last → (Console.escapes last).1 = false →
      Asked (count + 1) console (Console.escapes last).2

theorem Asked.polled {count : Nat} {console last : κ} (asked : Asked count console last) : Polled console last := by
  induction asked with
  | never console => exact .here console
  | again _ goes ih => exact ih.trans (.asked goes (.here _))

namespace Machine

open PocketScript.Symbol (opensBlock closesBlock blocksBehind)

/-- Lines were skipped, and the user was asked so often whether to stop. Nothing is different
    but the console, the open blocks of the innermost scope, which are given, and the count of
    statements; and objects that nothing reached are gone. -/
structure Skips (machine : Machine κ) (count : Nat) (blocks : List Branch) (after : Machine κ) : Prop where
  ready : after.Ready
  rest : after = { machine with
    console := after.console
    recentStatements := after.recentStatements
    memory := { machine.memory with heap := after.memory.heap, stack := after.memory.stack } }
  asked : Asked count machine.console after.console
  stack : machine.memory.stack.Reblocked blocks after.memory.stack
  heap : ∀ handle, after.memory.heap.contents handle = machine.memory.heap.contents handle ∨
    after.memory.heap.contents handle = none ∧ ¬ machine.memory.ReachesObject handle

/-- The user was asked whether to stop. -/
def polled (machine : Machine κ) : Machine κ :=
  { machine with console := (Console.escapes machine.console).2 }

variable {machine middle after last : Machine κ} {address code limit levels count : Nat} {blocks blocks' : List Branch}

theorem Skips.idles (skips : machine.Skips count blocks after) : machine.Idles after := by
  obtain ⟨ready, rest, asked, stack, heap⟩ := skips
  exact {
    ready
    store := by rw [rest]
    console := asked.polled
    draws := by rw [rest]
    fault := by rw [rest]
    roots := by rw [rest]
    bindings := stack.sameVariables
    contents := fun handle reached => (heap handle).resolve_right fun gone => gone.2 reached }

theorem Skips.refl {scope : Scope} (ready : machine.Ready) (here : machine.memory.stack.innermost? = some scope) :
    machine.Skips 0 scope.branches machine :=
  ⟨ready, rfl, .never _, .refl here, fun _ => .inl rfl⟩

theorem Skips.with_rest (skips : machine.Skips count blocks after) (console : κ) (recentStatements : Nat) (heap : Heap)
    (stack : ScopeStack) :
    { after with console, recentStatements, memory := { after.memory with heap, stack } } =
      { machine with console, recentStatements, memory := { machine.memory with heap, stack } } := by
  rw [skips.rest]

theorem Skips.reblocked (skips : machine.Skips count blocks after) {stack : ScopeStack}
    (reblocked : after.memory.stack.Reblocked blocks' stack) :
    machine.Skips count blocks' { after with memory := { after.memory with stack } } := by
  have evolves := Memory.Evolves.sameVariables skips.ready.sound reblocked.sameVariables
  have follows : after.Follows { after with memory := { after.memory with stack } } :=
    ⟨skips.ready.harmless, evolves.follows⟩
  exact ⟨follows.ready skips.ready, skips.with_rest _ _ _ _, skips.asked, skips.stack.trans reblocked, skips.heap⟩

/-- A collection removes what nothing reaches now, and so nothing reached before. -/
theorem Skips.collected (skips : machine.Skips count blocks after) (collected : after.Collected last) :
    machine.Skips count blocks last := by
  obtain ⟨memory, recent, rfl | rfl, rfl⟩ := collected
  · exact ⟨⟨⟨skips.ready.harmless, skips.ready.sound⟩, skips.ready.tracked⟩, skips.with_rest _ recent _ _, skips.asked,
      skips.stack, skips.heap⟩
  · have sound := skips.ready.sound
    refine ⟨⟨⟨skips.ready.harmless, sound.collect skips.ready.tracked⟩, skips.ready.tracked⟩,
      skips.with_rest _ recent _ _, skips.asked, skips.stack, fun handle => ?_⟩
    obtain ⟨kept, left⟩ := sound.contents_collect handle
    cases found : after.memory.collect.2.heap.contents handle with
    | some payload =>
        rw [← found, kept (left payload found).1]
        exact skips.heap handle
    | none =>
        by_cases reached : machine.memory.ReachesObject handle
        · have same := kept (skips.idles.reachesObject reached)
          rw [found] at same
          exact .inl (same.trans (skips.idles.contents handle reached))
        · exact .inr ⟨rfl, reached⟩

theorem Skips.again (skips : machine.Skips count blocks after) (goes : (Console.escapes after.console).1 = false) :
    machine.Skips (count + 1) blocks after.polled := by
  exact ⟨⟨⟨skips.ready.harmless, skips.ready.sound⟩, skips.ready.tracked⟩, skips.with_rest _ _ _ _,
    .again skips.asked goes, skips.stack, skips.heap⟩

omit [Console κ] in
theorem onMemory_pushBranch (machine : Machine κ) (action : BranchAction) (target address : Address) :
    Eval.onMemory address (Memory.pushBranch action target) machine =
      match machine.memory.stack.pushBranch action target machine.memory.heap.boundary with
      | .ok stack => .ok () { machine with memory := { machine.memory with stack } }
      | .error error => .error .quit { machine with fault? := some ⟨.memory error, address⟩ } := by
  unfold Eval.onMemory Eval.onMemoryAs Memory.pushBranch Memory.onStack
  cases pushed : machine.memory.stack.pushBranch action target machine.memory.heap.boundary with
  | ok stack => simp only [pushed, Except.map]
  | error error => simp only [pushed, Except.map, Eval.fail, Machine.noted_inattentive]

omit [Console κ] in
/-- The structure of a line is followed, and nothing else is looked at. -/
theorem skip_eq (hard : machine.memory.stack.action = .ignoreHard) (closable : machine.memory.stack.popBranch.1 = true)
    (inner : Inner κ) (address : Address) : skip inner (.starting address) machine =
      match machine.memory.stack.follow (machine.store.byte address) machine.memory.heap.boundary with
      | .ok stack => .ok { Expression.starting address with code := machine.store.lineEnd address }
          { machine with memory := { machine.memory with stack } }
      | .error error => .error .quit { machine with fault? := some ⟨.memory error, address⟩ } := by
  unfold skip
  refine (Eval.bind_of_ok rfl).trans ((Eval.bind_of_ok rfl).trans ?_)
  unfold ScopeStack.follow
  cases found : Symbol.builtin? (machine.store.byte address) with
  | none =>
      simp only [Expression.starting, found, opensBlock, closesBlock]
      rfl
  | some builtin =>
      cases builtin with
      | math function | value function | console function | file function =>
          simp only [Expression.starting, found, opensBlock, closesBlock]
          rfl
      | control function =>
          cases function with
          | leaveLoop | nextRound | answer | leave | quit =>
              simp only [Expression.starting, found, opensBlock, closesBlock]
              rfl
          | otherwise | otherwiseWhen =>
              simp only [Expression.starting, found, opensBlock, closesBlock, hard]
              rfl
          | whenTrue | loop | define =>
              simp only [Expression.starting, found, opensBlock, closesBlock, if_true]
              have opens := onMemory_pushBranch machine .ignoreHard 0 address
              cases pushed : machine.memory.stack.pushBranch .ignoreHard 0 machine.memory.heap.boundary with
              | ok stack =>
                  rw [pushed] at opens
                  exact Eval.bind_of_ok opens
              | error error =>
                  rw [pushed] at opens
                  exact Eval.bind_of_error opens
          | close =>
              have pops : Eval.onStack ScopeStack.popBranch machine =
                  .ok true { machine with
                    memory := { machine.memory with stack := machine.memory.stack.popBranch.2 } } := by
                rw [← closable]
                rfl
              simp only [Expression.starting, found, opensBlock, closesBlock]
              exact Eval.bind_of_ok pops

/-- What a line that is skipped for good comes to. -/
theorem evaluate_skipped (hard : machine.memory.stack.action = .ignoreHard)
    (closable : machine.memory.stack.popBranch.1 = true) (limit levels : Nat) (address : Address) :
    evaluate limit (levels + 1) address Inner.statementCeiling true machine =
      match machine.memory.stack.follow (machine.store.byte address) machine.memory.heap.boundary with
      | .ok stack => .ok { Expression.starting address with code := machine.store.lineEnd address }
          { machine with memory := { machine.memory with stack } }
      | .error error => .error .quit { machine with fault? := some ⟨.memory error, address⟩ } := by
  have all : Roots.release machine.memory.roots machine.memory.roots.size = machine.memory.roots := by
    simp [Roots.release]
  have skipped : frame (innerOf limit levels) address Inner.statementCeiling true machine =
      skip (innerOf limit levels) (.starting address) machine := by
    refine (Eval.bind_of_ok rfl).trans ?_
    rw [if_pos (by rw [hard]; rfl)]
  rw [evaluate_succ]
  refine (Eval.bind_of_ok rfl).trans ?_
  rw [Eval.always, skipped, skip_eq hard closable]
  cases machine.memory.stack.follow (machine.store.byte address) machine.memory.heap.boundary with
  | ok stack => simp only [all]
  | error error => simp only [all]

/-- Running on from a line. -/
theorem runFrom_line {steps : Nat} (inside : Store.endsLine (machine.store.byte address) = false) :
    runFrom limit levels (steps + 1) address machine =
      orAnswer (evaluate limit levels address Inner.statementCeiling true) (fun expression => do
        betweenStatements
        runFrom limit levels steps expression.code) machine := by
  have ⟨feed, zero⟩ : machine.store.byte address ≠ 0x0a ∧ machine.store.byte address ≠ 0 := by
    simpa [Store.endsLine] using inside
  unfold runFrom
  rw [runCode]
  refine (Eval.bind_of_ok rfl).trans ?_
  rw [if_neg feed, if_neg zero]

theorem runFrom_feed {steps : Nat} (feed : machine.store.byte address = 0x0a) :
    runFrom limit levels (steps + 1) address machine = runFrom limit levels steps (address + 1) machine := by
  unfold runFrom
  rw [runCode]
  refine (Eval.bind_of_ok rfl).trans ?_
  rw [if_pos feed]

theorem runFrom_end {steps : Nat} (zero : machine.store.byte address = 0) :
    runFrom limit levels (steps + 1) address machine = .ok .missing machine := by
  unfold runFrom
  rw [runCode]
  refine (Eval.bind_of_ok rfl).trans ?_
  rw [zero, if_neg (by decide), if_pos rfl]
  rfl

/-- After a line there may be a collection, and then the user is asked whether to stop. -/
theorem Skips.betweenStatements (skips : machine.Skips count blocks after) :
    ∃ last, machine.Skips count blocks last ∧
      ((Console.escapes last.console).1 = true ∧ Machine.betweenStatements after = .error .quit last.polled ∨
        machine.Skips (count + 1) blocks last.polled ∧ Machine.betweenStatements after = .ok () last.polled) := by
  obtain ⟨last, collected, ran⟩ := betweenStatements_eq after
  have skips := skips.collected collected
  refine ⟨last, skips, ?_⟩
  rw [ran]
  have asks : Eval.ask Console.escapes last = .ok (Console.escapes last.console).1 last.polled := rfl
  cases stops : (Console.escapes last.console).1 with
  | true =>
      rw [stops] at asks
      exact .inl ⟨rfl, Eval.bind_of_ok asks⟩
  | false =>
      rw [stops] at asks
      exact .inr ⟨skips.again stops, Eval.bind_of_ok asks⟩

/-- Lines of a block were skipped up to an address, without its end. -/
structure Skipping (machine : Machine κ) (address : Address) (block : Branch) (below : List Branch)
    (lines : List Address) (code : Address) (after : Machine κ) : Prop where
  passed : machine.store.Lines address lines code
  inside : machine.store.Inside lines
  skips : machine.Skips lines.length
    (List.replicate (machine.store.opened lines - machine.store.closed lines) ⟨.ignoreHard, 0⟩ ++ block :: below) after

/-- What comes next if at most `steps` lines and line feeds are passed. -/
inductive SkippingEnds (machine : Machine κ) (address : Address) (steps : Nat) (below : List Branch)
    (lines : List Address) (code : Address) (after : Machine κ) : Prop where
  /-- So many were passed; there are not more than bytes in the store. -/
  | unfinished (few : steps ≤ Store.capacity)
      (ran : ∀ limit levels, runFrom limit (levels + 1) steps address machine = .error .unfinished after)
  /-- The code ends. -/
  | codeEnds (zero : machine.store.byte code = 0)
      (ran : ∀ limit levels, runFrom limit (levels + 1) steps address machine = .ok .missing after)
  /-- The record of a block finds no room. -/
  | collides (opens : opensBlock (machine.store.byte code) = true)
      (ran : ∀ limit levels, runFrom limit (levels + 1) steps address machine =
        .error .quit { after with fault? := some ⟨.memory .collision, code⟩ })
  /-- The user stops the program after one more line. -/
  | escapes (last : Machine κ) (inside : Store.endsLine (machine.store.byte code) = false)
      (skips : machine.Skips lines.length (blocksBehind (machine.store.byte code) after.memory.stack.blocks) last)
      (stops : (Console.escapes last.console).1 = true)
      (ran : ∀ limit levels, runFrom limit (levels + 1) steps address machine = .error .quit last.polled)
  /-- The block is closed by the end that matches, and the code goes on behind it. -/
  | closes (last : Machine κ) (left : Nat) (closes : closesBlock (machine.store.byte code) = true)
      (matching : machine.store.closed lines = machine.store.opened lines)
      (skips : machine.Skips (lines.length + 1) below last) (fewer : left < steps)
      (ran : ∀ limit levels, runFrom limit (levels + 1) steps address machine =
        runFrom limit (levels + 1) left (machine.store.lineEnd code) last)

namespace Skipping

variable {block : Branch} {below : List Branch} {lines : List Address} {steps used : Nat}

theorem start {machine : Machine κ} (ready : machine.Ready) (blocks : machine.memory.stack.blocks = block :: below)
    (address : Address) : machine.Skipping address block below [] address machine := by
  refine ⟨.here, .nil, ?_⟩
  cases here : machine.memory.stack.innermost? with
  | none => simp [ScopeStack.blocks, here] at blocks
  | some scope =>
      have same : scope.branches = block :: below := by simpa [ScopeStack.blocks, here] using blocks
      have skips := Skips.refl ready here
      rwa [same] at skips

theorem feed (skipping : machine.Skipping address block below lines code after)
    (feed : machine.store.byte code = 0x0a) : machine.Skipping address block below lines (code + 1) after :=
  ⟨skipping.passed.feed feed, skipping.inside, skipping.skips⟩

/-- A line that is not the end of the block. -/
theorem line (skipping : machine.Skipping address block below lines code after)
    (inside : Store.endsLine (machine.store.byte code) = false)
    (apart : closesBlock (machine.store.byte code) = true → machine.store.closed lines < machine.store.opened lines)
    (skips : machine.Skips (lines.length + 1)
      (blocksBehind (machine.store.byte code) after.memory.stack.blocks) last) :
    machine.Skipping address block below (lines ++ [code]) (machine.store.lineEnd code) last := by
  have fewer := skipping.inside.closed_le
  refine ⟨skipping.passed.line inside, skipping.inside.concat apart, ?_⟩
  rw [skipping.skips.stack.blocks,
    Symbol.blocksBehind_replicate fun closes => Nat.sub_pos_of_lt (apart closes)] at skips
  rw [List.length_append, List.length_singleton, Store.opened_concat, Store.closed_concat]
  have same : ∀ opened closed opens closes : Nat, closed ≤ opened →
      opened - closed + opens - closes = opened + opens - (closed + closes) := by omega
  rwa [same _ _ _ _ fewer] at skips

/-- The innermost block is skipped for good, and it is not the outermost. -/
theorem innermost (skipping : machine.Skipping address block below lines code after)
    (hard : block.action = .ignoreHard) (bottom : below ≠ []) :
    ∃ first next outer, after.memory.stack.blocks = first :: next :: outer ∧ first.action = .ignoreHard := by
  rw [skipping.skips.stack.blocks]
  obtain ⟨next, outer, rfl⟩ := List.exists_cons_of_ne_nil bottom
  cases machine.store.opened lines - machine.store.closed lines with
  | zero => exact ⟨block, next, outer, rfl, hard⟩
  | succ depth =>
      cases depth with
      | zero => exact ⟨_, block, next :: outer, rfl, rfl⟩
      | succ depth => exact ⟨_, _, _, rfl, rfl⟩

/-- A line is passed, unless its block finds no room or the user stops the program behind it. -/
theorem passes (skipping : machine.Skipping address block below lines code after) (hard : block.action = .ignoreHard)
    (bottom : below ≠ []) (inside : Store.endsLine (machine.store.byte code) = false) :
    (opensBlock (machine.store.byte code) = true ∧ ∀ limit levels steps,
        runFrom limit (levels + 1) (steps + 1) code after =
          .error .quit { after with fault? := some ⟨.memory .collision, code⟩ }) ∨
      ∃ last : Machine κ,
        machine.Skips lines.length (blocksBehind (machine.store.byte code) after.memory.stack.blocks) last ∧
        ((Console.escapes last.console).1 = true ∧
            (∀ limit levels steps, runFrom limit (levels + 1) (steps + 1) code after = .error .quit last.polled) ∨
          machine.Skips (lines.length + 1) (blocksBehind (machine.store.byte code) after.memory.stack.blocks)
              last.polled ∧
            ∀ limit levels steps, runFrom limit (levels + 1) (steps + 1) code after =
              runFrom limit (levels + 1) steps (machine.store.lineEnd code) last.polled) := by
  obtain ⟨first, next, outer, blocks, first_hard⟩ := skipping.innermost hard bottom
  have action : after.memory.stack.action = .ignoreHard := by
    rw [ScopeStack.action_eq, blocks]
    exact first_hard
  have closable := (ScopeStack.Reblocked.popBranch blocks).1
  rw [← skipping.skips.idles.store] at inside ⊢
  have runs (limit levels steps : Nat) : runFrom limit (levels + 1) (steps + 1) code after = _ := runFrom_line inside
  have skipped (limit levels : Nat) := evaluate_skipped action closable limit levels code
  rcases ScopeStack.follow_cases blocks (after.store.byte code) after.memory.heap.boundary with
    ⟨opens, refused⟩ | ⟨stack, followed, reblocked⟩
  · simp only [refused] at skipped
    refine .inl ⟨opens, fun limit levels steps => ?_⟩
    rw [runs, orAnswer, skipped]
  · simp only [followed] at skipped
    obtain ⟨last, skips, asked⟩ := (skipping.skips.reblocked reblocked).betweenStatements
    refine .inr ⟨last, skips, ?_⟩
    rcases asked with ⟨stops, quits⟩ | ⟨skips', goes⟩
    · refine .inl ⟨stops, fun limit levels steps => ?_⟩
      rw [runs, orAnswer, skipped]
      exact Eval.bind_of_error quits
    · refine .inr ⟨skips', fun limit levels steps => ?_⟩
      rw [runs, orAnswer, skipped]
      exact Eval.bind_of_ok goes

/-- Lines are skipped until one of the things happens that end it. -/
theorem ends (skipping : machine.Skipping address block below lines code after) (hard : block.action = .ignoreHard)
    (bottom : below ≠ []) (steps : Nat) (forward : address + used ≤ code)
    (ran : ∀ limit levels more, runFrom limit (levels + 1) (more + used) address machine =
      runFrom limit (levels + 1) more code after) :
    ∃ lines code after, machine.Skipping address block below lines code after ∧
      machine.SkippingEnds address (steps + used) below lines code after := by
  induction steps generalizing lines code after used with
  | zero =>
      have few : 0 + used ≤ Store.capacity := by
        rcases skipping.passed.le_capacity with rfl | within <;> omega
      exact ⟨lines, code, after, skipping, .unfinished few fun limit levels => ran limit levels 0⟩
  | succ steps ih =>
      have store := skipping.skips.idles.store
      have one_more (more : Nat) : more + (used + 1) = more + 1 + used := by omega
      by_cases feed : machine.store.byte code = 0x0a
      · rw [← one_more]
        have further : address + (used + 1) ≤ code + 1 := by omega
        refine ih (skipping.feed feed) further fun limit levels more => ?_
        rw [one_more, ran, runFrom_feed (store ▸ feed)]
      by_cases zero : machine.store.byte code = 0
      · refine ⟨lines, code, after, skipping, .codeEnds zero fun limit levels => ?_⟩
        rw [ran, runFrom_end (store ▸ zero)]
      have inside : Store.endsLine (machine.store.byte code) = false := by simp [Store.endsLine, feed, zero]
      rcases skipping.passes hard bottom inside with ⟨opens, fails⟩ | ⟨last, skips, ⟨stops, quits⟩ | ⟨skips', goes⟩⟩
      · refine ⟨lines, code, after, skipping, .collides opens fun limit levels => ?_⟩
        rw [ran, fails]
      · refine ⟨lines, code, after, skipping, .escapes last inside skips stops fun limit levels => ?_⟩
        rw [ran, quits]
      · by_cases matching : closesBlock (machine.store.byte code) = true ∧
            machine.store.closed lines = machine.store.opened lines
        · refine ⟨lines, code, after, skipping, .closes last.polled steps matching.1 matching.2 ?_ (by omega)
            fun limit levels => ?_⟩
          · have fresh : after.memory.stack.blocks = block :: below := by
              rw [skipping.skips.stack.blocks, matching.2, Nat.sub_self]
              rfl
            rwa [fresh, Symbol.blocksBehind_close matching.1] at skips'
          · rw [ran, goes]
        · have apart (closes : closesBlock (machine.store.byte code) = true) :
              machine.store.closed lines < machine.store.opened lines :=
            Nat.lt_of_le_of_ne skipping.inside.closed_le fun same => matching ⟨closes, same⟩
          have further : address + (used + 1) ≤ machine.store.lineEnd code :=
            Nat.lt_of_le_of_lt forward (Store.lt_lineEnd inside)
          rw [← one_more]
          refine ih (skipping.line inside apart skips') further fun limit levels more => ?_
          rw [one_more, ran, goes]

end Skipping

/-- A program with a block in it that has two arms:

        if:1
        else;
        end;
        end;
-/
def slotOfNestedBlock : List UInt8 :=
  [1, 77, 65, 73, 78] ++ List.replicate 12 0 ++ [10, 0] ++ [152, 49, 10, 154, 10, 155, 10, 155, 10, 0]

/-- A machine that skips that program as part of a block. -/
def inSkippedBlock : Machine Script :=
  { inFirstArm.withAction .ignoreHard with store := Store.ofImage slotOfNestedBlock.toArray }

end Machine

end PocketScript
