import PocketScript.Console.Script
import PocketScript.Proofs.Flow.Arms
import PocketScript.Proofs.Imports.Levelling
import PocketScript.Proofs.Imports.Sealing

/-! # Imported code stays in its file

The statements that imported code runs by itself, outside of calls and other imports,
lie in the file that is imported, and the blocks that were open before stay open, as long
as no statement reaches one of these: the end of a block that was opened before closes it,
and goes back to its header if it is a loop, and so does the next round of such a loop.
Nothing closes the blocks that imported code leaves open itself.
-/

namespace PocketScript

variable {κ α : Type}

/-- If evaluation goes on, it does on the original of copies. -/
theorem Eval.Coincident.gives {reached : Copies → Prop} {done : Copies → α → Prop} {evaluation : Eval κ α}
    {machine : Machine κ} {second : EStateM.Result Interrupt (Machine κ) α}
    (coincident : Coincident reached done (evaluation machine) second) :
    Gives evaluation machine fun result after => ∃ later, reached later ∧ after.WorksOn later ∧ done later result := by
  intro result after ran
  rw [ran] at coincident
  cases coincident with
  | ok here works holds => exact ⟨_, here, works, holds⟩

namespace Branch

/-- The outer blocks are still open, and of the loops that are open inside of them the
    headers are known. -/
inductive Around (known : Address → Prop) (outer : List Branch) : List Branch → Prop where
  | intro (inside : List Branch) {kept : List Branch} (persist : Persist outer kept) (loops : LeadTo known inside) :
      Around known outer (inside ++ kept)

namespace Around

open Machine (LoopInside)

variable {known known' : Address → Prop} {outer blocks blocks' : List Branch} {address header : Address}

theorem here (outer : List Branch) : Around known outer outer :=
  .intro [] (persist_refl outer) nofun

theorem mono (more : ∀ address, known address → known' address) (around : Around known outer blocks) :
    Around known' outer blocks := by
  obtain ⟨inside, persist, loops⟩ := around
  exact .intro inside persist fun branch mem loop => more _ (loops branch mem loop)

theorem length_le (around : Around known outer blocks) : outer.length ≤ blocks.length := by
  obtain ⟨inside, persist, -⟩ := around
  rw [List.length_append, persist.length_eq]
  exact Nat.le_add_left _ _

theorem addresses (around : Around known outer blocks) :
    ∃ inside, blocks.map (·.address) = inside ++ outer.map (·.address) := by
  obtain ⟨inside, persist, -⟩ := around
  exact ⟨inside.map (·.address), by rw [List.map_append, persist.addresses_eq]⟩

/-- Moving blocks inside of the outer ones. -/
theorem moves (around : Around known outer blocks) (moves : Moves outer.length address blocks blocks')
    (here : known address) : Around known outer blocks' := by
  obtain @⟨inside, kept, persist, loops⟩ := around
  generalize same : inside ++ kept = blocks at moves
  obtain @⟨closed, opened, rest, rest', below, persist', loops'⟩ := moves
  obtain ⟨middle, rfl, rfl⟩ : ∃ middle, inside = closed ++ middle ∧ rest = middle ++ kept := by
    obtain ⟨beyond, rfl, rfl⟩ | split := List.append_eq_append_iff.mp same
    · rw [persist.length_eq, List.length_append] at below
      obtain rfl : beyond = [] := List.eq_nil_of_length_eq_zero (by omega)
      exact ⟨[], by simp, rfl⟩
    · exact split
  obtain ⟨middle', kept, rfl, stays, outside⟩ := persist'.split
  rw [← List.append_assoc]
  refine .intro (opened ++ middle') (persist.trans outside) fun branch mem loop => ?_
  obtain new | old := List.mem_append.mp mem
  · exact loops' branch new loop ▸ here
  · exact stays.loops known (fun branch mem => loops branch (List.mem_append_right closed mem)) branch old loop

theorem header_of_close (around : Around known outer blocks) (below : outer.length < blocks.length)
    (loop : blocks.head? = some ⟨.loop, header⟩) : known header := by
  obtain ⟨inside, persist, loops⟩ := around
  cases inside with
  | nil => exact absurd persist.length_eq (Nat.ne_of_lt below)
  | cons branch rest =>
      obtain rfl := Option.some.inj loop
      exact loops _ List.mem_cons_self rfl

theorem header_of_nextRound (around : Around known outer blocks) (inner : LoopInside outer.length blocks)
    (found : (Scope.continueLoop blocks).2 = some header) : known header := by
  obtain ⟨-, loop, mem, is_loop, rfl⟩ : Moves _ header _ _ ∧ _ := inner.moves found
  obtain ⟨inside, persist, loops⟩ := around
  rw [List.length_append, persist.length_eq, Nat.add_sub_cancel, List.take_left] at mem
  exact loops loop mem is_loop

end Around

end Branch

namespace Machine

open Eval (Gives)
open Branch (Around)

variable {machine middle after : Machine κ} {address header slot : Address} {copies : Copies} {expression : Expression}
  {outer : List Branch}

/-- A statement goes back to the header of a loop. -/
inductive GoesBackTo (machine : Machine κ) (header : Address) : Control → Prop where
  | close : machine.memory.stack.branch? = some ⟨.loop, header⟩ → GoesBackTo machine header .close
  | nextRound : machine.memory.stack.continueLoop.1 = some header → GoesBackTo machine header .nextRound

theorem gives_goesBack {function : Control} (back : goesBack (.control function) = true) (value : Value)
    (expression : Expression) : Gives (control function value expression) machine fun result _ =>
      result.code = expression.code ∨ GoesBackTo machine result.code function := by
  cases function with
  | close =>
      refine .get_bind (Gives.any.bind fun popped _ _ => ?_)
      split
      · split
        · next loop => exact .pure (.inr (.close loop))
        · exact .pure (.inl rfl)
      · refine .get_bind ?_
        split
        · exact .raise _
        · exact .throw _
  | nextRound =>
      refine Gives.bind (?_ : Gives _ machine fun found _ => found = machine.memory.stack.continueLoop.1) ?_
      · exact .onStack rfl
      intro found _ same
      split
      · exact .pure (.inr (.nextRound same.symm))
      · exact .raise _
  | leave | answer | quit | whenTrue | loop | otherwiseWhen | otherwise | leaveLoop | define => cases back

/-- A statement goes back only to loops that are open inside of the outer blocks, if it
    does not reach these. -/
theorem GoesBackTo.known {function : Control} {known : Address → Prop} (goes : GoesBackTo machine header function)
    (around : Around known outer machine.memory.stack.blocks) (stays : StaysInside outer.length machine address)
    (here : Symbol.builtin? (machine.store.byte address) = some (.control function))
    (running : machine.memory.stack.action.isIgnored = false) : known header := by
  cases goes with
  | close loop => exact around.header_of_close (stays.close here) (machine.memory.stack.branch?_eq ▸ loop)
  | nextRound found =>
      exact around.header_of_nextRound (stays.nextRound here running) (machine.memory.stack.continueLoop_eq.1 ▸ found)

variable [Console κ] {limit levels ceiling : Nat}

omit [Console κ] in
theorem goesBack_spec {byte : UInt8} (back : (Symbol.builtin? byte).any goesBack = true) :
    ∃ function, Symbol.builtin? byte = some (.control function) ∧ goesBack (.control function) = true := by
  cases is : Symbol.builtin? byte with
  | none => simp [is] at back
  | some builtin =>
      rw [is] at back
      cases builtin with
      | control function => exact ⟨function, rfl, back⟩
      | math function | value function | console function | file function => cases back

/-- The end of a block or the next round of a loop has no arguments. -/
theorem readPrimary_goesBack {function : Control} (back : goesBack (.control function) = true)
    (here : Symbol.builtin? (machine.store.byte address) = some (.control function)) (inner : Inner κ) :
    readPrimary inner (.starting address) true machine =
      control function .missing { Expression.starting address with code := address + 1 } machine.withArguments := by
  have byte : machine.store.byte address = (Builtin.control function).byte := byte_of_builtin? here
  rw [show readPrimary inner (.starting address) true machine = applyBuiltin inner (.control function)
    (.starting address) true machine from readPrimary_builtin byte]
  cases function with
  | close | nextRound => rfl
  | leave | answer | quit | whenTrue | loop | otherwiseWhen | otherwise | leaveLoop | define => cases back

omit [Console κ] in
theorem WorksOn.withRoots (works : machine.WorksOn copies) (roots : Roots) :
    { machine with memory := { machine.memory with roots } }.WorksOn copies :=
  works.withMemory ⟨works.memory.heap, works.memory.stack⟩

/-- The end of a block or the next round of a loop goes on in the same slot, if it does
    not reach the outer blocks. -/
theorem gives_primary_goesBack {function : Control} (back : goesBack (.control function) = true)
    (is : Symbol.builtin? (machine.store.byte address) = some (.control function)) (works : machine.WorksOn copies)
    (here : copies.Knows (some slot) address)
    (around : Around (copies.Knows (some slot)) outer machine.memory.stack.blocks)
    (stays : StaysInside outer.length machine address) (running : machine.memory.stack.action.isIgnored = false)
    (inner : Inner κ) : Gives (readPrimary inner (.starting address) true) machine fun primary after =>
      after.WorksOn copies ∧ primary.Known copies (some slot) := by
  intro primary after ran
  rw [readPrimary_goesBack back is] at ran
  have behind : copies.Knows (some slot) (address + 1) := by
    refine here.next fun zero => ?_
    rw [works.store, zero] at is
    cases is
  have anywhere : Expression.Known copies none { Expression.starting address with code := address + 1 } :=
    ⟨here.anywhere, behind.anywhere, trivial⟩
  have controls : Eval.Still copies (control function .missing _ : Eval κ Expression) _ :=
    still_control function (fun _ => rfl) trivial anywhere behind.anywhere
  obtain ⟨_, rfl, works', known⟩ := (controls _ (works.withRoots _)).gives primary after ran
  refine ⟨works', known.start, ?_, known.value⟩
  obtain same | goes := gives_goesBack back _ _ primary after ran
  · exact same ▸ behind
  · exact goes.known around ⟨stays.close, stays.nextRound⟩ is running

/-- A statement in a slot goes on there, if it does not reach the outer blocks. -/
theorem gives_statement (works : machine.WorksOn copies) (here : copies.Knows (some slot) address)
    (around : Around (copies.Knows (some slot)) outer machine.memory.stack.blocks)
    (stays : StaysInside outer.length machine address) : Gives (evaluate limit levels address ceiling true) machine
      fun expression after => ∃ later, copies ≤ later ∧ after.WorksOn later ∧ expression.Known later (some slot) := by
  cases levels with
  | zero => exact .raise _
  | succ levels =>
      have inside : Inner.Coinciding (innerOf (κ := κ) limit levels) :=
        coinciding_innerOf fun lower _ copies own? start ceiling isStatement free known =>
          coincides_evaluate limit lower free known ceiling
      rw [evaluate_succ]
      refine .get_bind (.always (Gives.mono (?_ : Gives _ machine fun expression before =>
        ∃ later, copies ≤ later ∧ before.WorksOn later ∧ expression.Known later (some slot)) ?_))
      · refine .get_bind ?_
        cases running : machine.memory.stack.action.isIgnored with
        | true =>
            rw [if_pos rfl]
            exact (coincides_skip inside here (Expression.known_starting here) machine works).gives
        | false =>
            rw [if_neg Bool.false_ne_true]
            by_cases back : (Symbol.builtin? (machine.store.byte address)).any goesBack = true
            · obtain ⟨function, is, back⟩ := goesBack_spec back
              refine (gives_primary_goesBack back is works here around stays running _).bind ?_
              rintro primary middle ⟨works, known⟩
              exact (coincides_readRest inside ceiling _ known middle works).gives
            · have free : (Symbol.builtin? (copies.original.byte address)).any goesBack = true → some slot = none :=
                fun there => absurd (works.store ▸ there) back
              exact ((coincides_readPrimary inside (fun _ => free) here).bind fun _ _ _ known =>
                coincides_readRest inside ceiling _ known) machine works |>.gives
      · rintro expression before ⟨later, more, works, known⟩
        exact ⟨later, more, works.withRoots _, known⟩

/-- The blocks that are open when evaluation goes on or answers. -/
def blocksAfter? : EStateM.Result Interrupt (Machine κ) α → Option (List Branch)
  | .ok _ after | .error (.answer _) after => some after.memory.stack.blocks
  | .error _ _ => none

/-- Imports in a statement leave blocks open as they were: the same ones are open behind
    the statement if they are put back after each import. -/
def Level (limit levels : Nat) (machine : Machine κ) (address : Address) : Prop :=
  ∀ blocks, blocksAfter? (evaluate limit levels address Inner.statementCeiling true machine) = some blocks →
    ∃ blocks', blocksAfter? (evaluateLevelled limit levels address Inner.statementCeiling true machine) = some blocks' ∧
      Branch.Persist blocks' blocks

theorem level_of_same (same : blocksAfter? (evaluateLevelled limit levels address Inner.statementCeiling true machine) =
    blocksAfter? (evaluate limit levels address Inner.statementCeiling true machine)) :
    Level limit levels machine address :=
  fun blocks here => ⟨blocks, same.trans here, Branch.persist_refl blocks⟩

/-- A statement that does not reach the outer blocks moves only those inside. -/
theorem Level.moves (level : Level limit levels machine address) {depth : Nat} {blocks : List Branch}
    (inside : depth ≤ machine.memory.stack.blocks.length) (stays : StaysInside depth machine address)
    (here : blocksAfter? (evaluate limit levels address Inner.statementCeiling true machine) = some blocks) :
    Moves depth address machine.memory.stack.blocks blocks := by
  obtain ⟨blocks', here, persist⟩ := level blocks here
  have moves := proceeds_statement limit levels Inner.statementCeiling inside stays
  refine Moves.persist ?_ persist
  cases ran : evaluateLevelled limit levels address Inner.statementCeiling true machine with
  | ok expression after =>
      rw [ran] at here
      exact Option.some.inj here ▸ moves.gives expression after ran
  | error interrupt after =>
      rw [ran] at here
      cases interrupt with
      | answer value => exact Option.some.inj here ▸ moves.answers value after ran
      | quit | unfinished => cases here

/-- The statements that code from an address on runs by itself, each with the machine that
    it runs on. -/
def ownStatements (statement : Address → Eval κ Expression) :
    (steps : Nat) → Address → Machine κ → List (Address × Machine κ)
  | 0, _, _ => []
  | steps + 1, address, machine =>
    if machine.store.byte address = 0x0a then ownStatements statement steps (address + 1) machine
    else if machine.store.byte address = 0 then []
    else
      (address, machine) ::
        match statement address machine with
        | .ok expression evaluated =>
          match betweenStatements evaluated with
          | .ok _ after => ownStatements statement steps expression.code after
          | .error _ _ => []
        | .error _ _ => []

theorem gives_betweenStatements_stack :
    Gives betweenStatements machine fun _ after => after.memory.stack = machine.memory.stack := by
  obtain ⟨collected, ⟨memory, recent, either, rfl⟩, ran⟩ := betweenStatements_eq machine
  have same : memory.stack = machine.memory.stack := by rcases either with rfl | rfl <;> rfl
  suffices asks : Gives _ _ fun _ after => after.memory.stack = machine.memory.stack from
    fun _ after ended => asks _ after (ran.symm.trans ended)
  refine Gives.bind (?_ : Gives _ _ fun _ after => after.memory.stack = machine.memory.stack) ?_
  · rintro _ _ ⟨⟩
    exact same
  · intro escapes after same
    split
    · exact .throw _
    · exact .pure same

omit [Console κ] in
theorem works_itself (sealed : machine.store.Sealed) : machine.WorksOn sealed.copies := by
  have all (address : Address) : sealed.copies.Knows none address := .inl rfl
  exact ⟨rfl, Memory.leadsTo_of_all all _, fun _ _ => all _⟩

/-- Code in a slot goes on at an address, and the outer blocks are still open. -/
def GoesOnIn (slot : Address) (outer : List Branch) (address : Address) (machine : Machine κ) : Prop :=
  ∃ copies : Copies, machine.WorksOn copies ∧ copies.Knows (some slot) address ∧
    Around (copies.Knows (some slot)) outer machine.memory.stack.blocks

/-- The outer blocks are still open, and maybe others inside. -/
def StillOpen (outer : List Branch) (machine : Machine κ) : Prop :=
  ∃ inside, machine.memory.stack.blocks.map (·.address) = inside ++ outer.map (·.address)

namespace GoesOnIn

variable {statement : Address → Eval κ Expression}

omit [Console κ] in
theorem inData (within : GoesOnIn slot outer address machine) :
    Store.dataAddress slot ≤ address ∧ address ≤ Store.dataAddress slot + Store.fileLimit := by
  obtain ⟨_, -, here, -⟩ := within
  obtain ⟨length, offset, text, inside, rfl⟩ := here
  exact ⟨Nat.le_add_right _ _, Nat.add_le_add_left (Nat.le_trans inside text.short) _⟩

omit [Console κ] in
theorem stillOpen (within : GoesOnIn slot outer address machine) : StillOpen outer machine := by
  obtain ⟨_, -, -, around⟩ := within
  exact around.addresses

omit [Console κ] in
theorem behind_newline (within : GoesOnIn slot outer address machine) (newline : machine.store.byte address = 0x0a) :
    GoesOnIn slot outer (address + 1) machine := by
  obtain ⟨copies, works, here, around⟩ := within
  exact ⟨copies, works, here.next_of_eq (works.store ▸ newline) (by decide), around⟩

/-- A statement that does not reach the outer blocks. -/
theorem proceeds_statement (within : GoesOnIn slot outer address machine)
    (stays : StaysInside outer.length machine address) (level : Level limit levels machine address) :
    Eval.Proceeds (evaluate limit levels address Inner.statementCeiling true) machine
      (fun expression after => GoesOnIn slot outer expression.code after) (StillOpen outer) := by
  obtain ⟨copies, works, here, around⟩ := within
  refine ⟨fun expression after ran => ?_, fun value after ran => ?_⟩
  · have moves := level.moves around.length_le stays (congrArg blocksAfter? ran)
    obtain ⟨later, further, works', known⟩ := gives_statement works here around stays expression after ran
    have further (address : Address) (known : copies.Knows (some slot) address) : later.Knows (some slot) address :=
      known.mono further
    exact ⟨later, works', known.code, (around.mono further).moves moves (further _ here)⟩
  · have moves := level.moves around.length_le stays (congrArg blocksAfter? ran)
    exact (around.moves moves here).addresses

theorem gives_betweenStatements (within : GoesOnIn slot outer address machine) :
    Gives betweenStatements machine fun _ after => GoesOnIn slot outer address after := by
  obtain ⟨copies, works, here, around⟩ := within
  intro _ after ran
  obtain ⟨_, rfl, works', -⟩ := (quiet_betweenStatements _ works).gives _ after ran
  exact ⟨_, works', here, gives_betweenStatements_stack _ after ran ▸ around⟩

/-- If all statements that code runs by itself go on in its slot, it runs no others, and
    the outer blocks are still open at its end. -/
theorem runCode (within : GoesOnIn slot outer address machine) (steps : Nat)
    (goesOn : ∀ run ∈ ownStatements statement steps address machine, GoesOnIn slot outer run.1 run.2 →
      Eval.Proceeds (statement run.1) run.2 (fun expression after => GoesOnIn slot outer expression.code after)
        (StillOpen outer)) :
    (∀ run ∈ ownStatements statement steps address machine,
      Store.dataAddress slot ≤ run.1 ∧ run.1 ≤ Store.dataAddress slot + Store.fileLimit) ∧
    Gives (runCode statement steps address) machine fun _ after => StillOpen outer after := by
  induction steps generalizing address machine with
  | zero => exact ⟨List.forall_mem_nil _, .throw _⟩
  | succ steps ih =>
      unfold ownStatements at goesOn ⊢
      unfold Machine.runCode
      split at goesOn
      · next newline =>
        rw [if_pos newline]
        obtain ⟨inside, ends⟩ := ih (within.behind_newline newline) goesOn
        exact ⟨inside, .byteAt_bind (by rwa [if_pos newline])⟩
      next starts =>
      rw [if_neg starts]
      split at goesOn
      · next zero =>
        rw [if_pos zero]
        exact ⟨List.forall_mem_nil _, .byteAt_bind (by rw [if_neg starts, if_pos zero]; exact .pure within.stillOpen)⟩
      next more =>
      rw [if_neg more]
      obtain ⟨first, goesOn⟩ := List.forall_mem_cons.mp goesOn
      have proceeds := first within
      suffices runs : _ ∧ Gives (orAnswer (statement address) _) machine _ from
        ⟨List.forall_mem_cons.mpr ⟨within.inData, runs.1⟩,
          .byteAt_bind (by rw [if_neg starts, if_neg more]; exact runs.2)⟩
      cases ran : statement address machine with
      | ok expression evaluated =>
          have next := proceeds.gives expression evaluated ran
          cases between : betweenStatements evaluated with
          | ok _ after =>
              have rest := ih (next.gives_betweenStatements _ after between) (by simpa only [ran, between] using goesOn)
              refine ⟨by simpa only [between] using rest.1, fun value last answered => rest.2 value last ?_⟩
              simpa only [orAnswer, ran, Bind.bind, EStateM.bind, between] using answered
          | error interrupt after =>
              refine ⟨by simp [between], fun value last answered => ?_⟩
              simp [orAnswer, ran, Bind.bind, EStateM.bind, between] at answered
      | error interrupt evaluated =>
          refine ⟨List.forall_mem_nil _, fun value last answered => ?_⟩
          unfold orAnswer at answered
          rw [ran] at answered
          cases interrupt with
          | answer value =>
              cases answered
              exact proceeds.answers _ _ ran
          | quit | unfinished => cases answered

end GoesOnIn

/-- The statements that an import runs by itself, each with the machine that it runs on. -/
def importStatements (limit levels : Nat) (slot : Address) (machine : Machine κ) : List (Address × Machine κ) :=
  ownStatements (fun address => evaluate limit levels address Inner.statementCeiling true) limit
    (Store.dataAddress slot) machine

/-- The statements that an import runs by itself lie in the file that is imported, and
    afterwards all blocks are still open that were open before, in the same order and
    with the same headers, if no statement reaches them and nested imports leave the
    blocks as they were. Inside of them, there may be blocks that the import left open. -/
theorem import_stays_in_file (sealed : machine.store.Sealed) (file : slot ∈ machine.store.files)
    (stays : ∀ run ∈ importStatements limit levels slot machine,
      StaysInside machine.memory.stack.blocks.length run.2 run.1)
    (level : ∀ run ∈ importStatements limit levels slot machine, Level limit levels run.2 run.1) :
    (∀ run ∈ importStatements limit levels slot machine,
      Store.dataAddress slot ≤ run.1 ∧ run.1 ≤ Store.dataAddress slot + Store.fileLimit) ∧
    Gives ((innerOf limit levels).code (Store.dataAddress slot)) machine fun _ after =>
      StillOpen machine.memory.stack.blocks after := by
  obtain ⟨mem, present⟩ := List.mem_filter.mp file
  have starts : GoesOnIn slot machine.memory.stack.blocks (Store.dataAddress slot) machine :=
    ⟨sealed.copies, works_itself sealed, (sealed.copies.files.file slot mem present).text.shares, .here _⟩
  exact starts.runCode limit fun run mem within => within.proceeds_statement (stays run mem) (level run mem)

/-- The first slot with a file under the name `LIB`. -/
def slotOfImported (code : List UInt8) : List UInt8 :=
  [1, 76, 73, 66] ++ List.replicate 13 0 ++ [UInt8.ofNat code.length, 0] ++ code ++ [0]

/-- A machine that has that slot, in a loop with the given header. -/
def startImport (code : List UInt8) (header : Address) : Machine Script :=
  let machine := start (Store.ofImage (slotOfImported code).toArray) (Script.ofAnswers [])
    { Configuration.standard with seed? := some 1 }
  { machine with memory := { machine.memory with stack := ⟨#[⟨0, 18, #[], [⟨.loop, header⟩, ⟨.run, 0⟩], 2⟩]⟩ } }

instance (depth : Nat) (blocks : List Branch) : Decidable (LoopInside depth blocks) :=
  inferInstanceAs (Decidable (∃ branch ∈ blocks.take (blocks.length - depth), branch.action = .loop))

instance {κ : Type} (depth : Nat) (machine : Machine κ) (address : Address) :
    Decidable (StaysInside depth machine address) :=
  decidable_of_iff ((Symbol.builtin? (machine.store.byte address) = some (.control .close) →
      depth < machine.memory.stack.blocks.length) ∧
      (Symbol.builtin? (machine.store.byte address) = some (.control .nextRound) →
        machine.memory.stack.action.isIgnored = false → LoopInside depth machine.memory.stack.blocks))
    ⟨fun ⟨close, nextRound⟩ => ⟨close, nextRound⟩, fun ⟨close, nextRound⟩ => ⟨close, nextRound⟩⟩

/-- The imported lines `A=0`, `while:A<2`, `A+=1` and `end;` run in a loop of their own. -/
theorem import_stays_in_file_loop :
    let machine := startImport [65, 61, 48, 10, 156, 65, 60, 50, 10, 65, 139, 49, 10, 155] 1043
    machine.store.Sealed ∧ 0 ∈ machine.store.files ∧
      (∀ run ∈ importStatements 20 4 0 machine, StaysInside machine.memory.stack.blocks.length run.2 run.1) ∧
      (∀ run ∈ importStatements 20 4 0 machine, Level 20 4 run.2 run.1) ∧
      (∀ run ∈ importStatements 20 4 0 machine,
        Store.dataAddress 0 ≤ run.1 ∧ run.1 ≤ Store.dataAddress 0 + Store.fileLimit) ∧
      Gives ((innerOf 20 4).code (Store.dataAddress 0)) machine fun _ after =>
        StillOpen machine.memory.stack.blocks after := by
  intro machine
  have image : machine.store = Store.ofImage (slotOfImported _).toArray := rfl
  have present : machine.store.isPresent 0 = true := by
    rw [image, ofImage_toArray _ (by decide +kernel)]
    decide +kernel
  have file : 0 ∈ machine.store.files := List.mem_filter.mpr ⟨by decide, present⟩
  have sealed : machine.store.Sealed := by
    refine Store.sealed_ofImage (by decide +kernel) (by decide +kernel) ?_ ?_ <;>
      rw [ofImage_toArray _ (by decide +kernel)] <;> decide +kernel
  have runs : ∀ run ∈ importStatements 20 4 0 machine, StaysInside machine.memory.stack.blocks.length run.2 run.1 ∧
      blocksAfter? (evaluateLevelled 20 4 run.1 Inner.statementCeiling true run.2) =
        blocksAfter? (evaluate 20 4 run.1 Inner.statementCeiling true run.2) := by
    unfold machine startImport
    rw [ofImage_toArray _ (by decide +kernel)]
    decide +kernel
  have stays run mem := (runs run mem).1
  have level run mem := level_of_same (runs run mem).2
  exact ⟨sealed, file, stays, level, import_stays_in_file sealed file stays level⟩

/-- The imported lines `if:1` and `ret;` leave a block open in the loop that they are
    imported in. The imported line `end;` goes back to the header of that loop. -/
theorem import_leaves_file :
    blocksAfter? ((innerOf 20 4).code (Store.dataAddress 0) (startImport [152, 49, 10, 161] 1043)) =
        some [⟨.run, 0⟩, ⟨.loop, 1043⟩, ⟨.run, 0⟩] ∧
      (importStatements 20 4 0 (startImport [155] 1043)).map (·.1) = [19, 1043] := by
  unfold startImport
  rw [ofImage_toArray _ (by decide +kernel), ofImage_toArray _ (by decide +kernel)]
  decide +kernel

end Machine

end PocketScript
