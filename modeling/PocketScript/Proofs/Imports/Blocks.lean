import PocketScript.Proofs.Flow.Idling
import PocketScript.Proofs.Frame.Evaluations

/-! # Blocks around a statement

What a statement does to the open blocks, told apart by their addresses: some of the
innermost are closed, others are opened, and all the rest stay open where they were.
-/

namespace PocketScript

/-- The block is still open, maybe with something else happening in it; it is no loop
    that was none before. -/
structure Branch.Persists (before after : Branch) : Prop where
  address : after.address = before.address
  loop : after.action = .loop → before.action = .loop

namespace Branch

variable {blocks blocks' blocks'' : List Branch}

/-- The same blocks are open. -/
abbrev Persist : List Branch → List Branch → Prop :=
  List.Forall₂ Branch.Persists

theorem persist_refl (blocks : List Branch) : Persist blocks blocks :=
  List.forall₂_same.mpr fun _ _ => ⟨rfl, id⟩

theorem persist_of_eq (same : blocks' = blocks) : Persist blocks blocks' :=
  same ▸ persist_refl _

theorem Persist.trans (first : Persist blocks blocks') (second : Persist blocks' blocks'') :
    Persist blocks blocks'' := by
  induction first generalizing blocks'' with
  | nil => exact second
  | cons persists _ ih =>
      obtain ⟨after, rest, persists', persist, rfl⟩ := List.forall₂_cons_left_iff.mp second
      exact .cons ⟨persists'.address.trans persists.address, persists.loop ∘ persists'.loop⟩ (ih persist)

theorem Persist.addresses_eq (persist : Persist blocks blocks') :
    blocks'.map (·.address) = blocks.map (·.address) := by
  induction persist with
  | nil => rfl
  | cons persists _ ih => rw [List.map_cons, List.map_cons, persists.address, ih]

theorem Persist.split {front back : List Branch} (persist : Persist (front ++ back) blocks) :
    ∃ front' back', blocks = front' ++ back' ∧ Persist front front' ∧ Persist back back' := by
  have taken := List.forall₂_take front.length persist
  have dropped := List.forall₂_drop front.length persist
  rw [List.take_left] at taken
  rw [List.drop_left] at dropped
  exact ⟨_, _, (List.take_append_drop front.length blocks).symm, taken, dropped⟩

theorem Persist.loops (persist : Persist blocks blocks') (holds : Address → Prop)
    (loops : ∀ branch ∈ blocks, branch.action = .loop → holds branch.address) :
    ∀ branch ∈ blocks', branch.action = .loop → holds branch.address := by
  induction persist with
  | nil => exact nofun
  | cons persists _ ih =>
      obtain ⟨first, rest⟩ := List.forall_mem_cons.mp loops
      exact List.forall_mem_cons.mpr ⟨fun loop => persists.address ▸ first (persists.loop loop), ih rest⟩

/-- Something else happens in the innermost block, which is no loop then. -/
theorem persist_modifyHead (blocks : List Branch) {action : BranchAction} (still : action ≠ .loop) :
    Persist blocks (blocks.modifyHead ({ · with action })) := by
  cases blocks with
  | nil => exact .nil
  | cons branch outer => exact .cons ⟨rfl, fun loop => absurd loop still⟩ (persist_refl _)

theorem persist_breakLoop (blocks : List Branch) : Persist blocks (Scope.breakLoop blocks).1 := by
  induction blocks with
  | nil => exact .nil
  | cons branch outer ih =>
      have skipped : branch.Persists { branch with action := .ignoreHard } := ⟨rfl, nofun⟩
      unfold Scope.breakLoop
      dsimp only
      split
      · exact .cons skipped (persist_refl _)
      · exact .cons skipped ih

/-- Going back to the header of a loop closes what is inside. The outermost block
    stays open. -/
theorem continueLoop_spec {blocks : List Branch} {address : Address}
    (found : (Scope.continueLoop blocks).2 = some address) :
    ∃ inside loop outer, blocks = inside ++ loop :: outer ∧ (∀ branch ∈ inside, branch.action ≠ .loop) ∧
      loop.action = .loop ∧ loop.address = address ∧
      ((Scope.continueLoop blocks).1 = outer ∨ outer = [] ∧ (Scope.continueLoop blocks).1 = [loop]) := by
  induction blocks with
  | nil => cases found
  | cons branch rest ih =>
      cases rest with
      | nil =>
          unfold Scope.continueLoop at found
          split at found
          · next loop => exact ⟨[], branch, [], rfl, nofun, loop, Option.some.inj found, .inr ⟨rfl, rfl⟩⟩
          · cases found
      | cons next outer =>
          unfold Scope.continueLoop at found ⊢
          split at found
          · next loop =>
            rw [if_pos loop]
            exact ⟨[], branch, next :: outer, rfl, nofun, loop, Option.some.inj found, .inl rfl⟩
          · next other =>
            rw [if_neg other]
            obtain ⟨inside, loop, outer', blocks, none, here, same, after⟩ := ih found
            refine ⟨branch :: inside, loop, outer', by rw [blocks, List.cons_append], ?_, here, same, after⟩
            exact List.forall_mem_cons.mpr ⟨other, none⟩

end Branch

namespace ScopeStack

variable {stack : ScopeStack}

theorem branch?_eq (stack : ScopeStack) : stack.branch? = stack.blocks.head? := by
  rw [branch?, blocks]
  cases stack.innermost? <;> rfl

theorem blocks_modifyBranches {scope : Scope} (here : stack.innermost? = some scope)
    (change : List Branch → List Branch) : (stack.modifyBranches change).blocks = change stack.blocks := by
  simp [modifyBranches, blocks, here, innermost?_setInnermost]

/-- The blocks of an earlier moment can be put back. -/
theorem Framed.blocks_putBack {after : ScopeStack} (framed : stack.Framed after) :
    (after.modifyBranches fun _ => stack.blocks).blocks = stack.blocks := by
  cases here : after.innermost? with
  | some scope => exact blocks_modifyBranches here _
  | none =>
      have empty : stack.scopes.size = 0 := by
        rw [← framed.depth]
        exact Array.size_eq_zero_iff.mpr (Array.back?_eq_none_iff.mp here)
      have none : stack.innermost? = none := Array.back?_eq_none_iff.mpr (Array.size_eq_zero_iff.mp empty)
      simp [ScopeStack.modifyBranches, blocks, here, none]

theorem blocks_breakLoop (stack : ScopeStack) : stack.breakLoop.2.blocks = (Scope.breakLoop stack.blocks).1 := by
  unfold breakLoop
  cases here : stack.innermost? with
  | none => simp [blocks, here, Scope.breakLoop]
  | some scope => simp [blocks, here, innermost?_setInnermost]

theorem continueLoop_eq (stack : ScopeStack) :
    stack.continueLoop.1 = (Scope.continueLoop stack.blocks).2 ∧
      stack.continueLoop.2.blocks = (Scope.continueLoop stack.blocks).1 := by
  unfold continueLoop
  cases here : stack.innermost? with
  | none => simp [blocks, here, Scope.continueLoop]
  | some scope => simp [blocks, here, innermost?_setInnermost]

theorem blocks_popBranch_of_false (stays : stack.popBranch.1 = false) : stack.popBranch.2.blocks = stack.blocks := by
  cases here : stack.innermost? with
  | none => simp [popBranch, here]
  | some scope =>
      cases branches : scope.branches with
      | nil => simp [popBranch, here, branches]
      | cons branch rest =>
          cases rest with
          | nil => simp [popBranch, here, branches]
          | cons next outer => simp [popBranch, here, branches] at stays

end ScopeStack

/-- What a statement at `address` does to the open blocks, of which the outer `depth`
    stay open: some of the others are closed, and if a loop is opened it goes back to
    the statement. -/
inductive Moves (depth : Nat) (address : Address) : List Branch → List Branch → Prop where
  | intro (closed opened : List Branch) {rest kept : List Branch} (outer : depth ≤ rest.length)
      (persist : Branch.Persist rest kept)
      (loops : ∀ branch ∈ opened, branch.action = .loop → branch.address = address) :
      Moves depth address (closed ++ rest) (opened ++ kept)

namespace Moves

variable {depth : Nat} {address : Address} {blocks blocks' blocks'' : List Branch}

theorem of_persist (inside : depth ≤ blocks.length) (persist : Branch.Persist blocks blocks') :
    Moves depth address blocks blocks' :=
  .intro [] [] inside persist nofun

theorem opens (inside : depth ≤ blocks.length) (persist : Branch.Persist blocks blocks') (branch : Branch)
    (loop : branch.action = .loop → branch.address = address) : Moves depth address blocks (branch :: blocks') :=
  .intro [] [branch] inside persist (List.forall_mem_singleton.mpr loop)

theorem closes (closed : List Branch) (outer : depth ≤ blocks.length) (persist : Branch.Persist blocks blocks') :
    Moves depth address (closed ++ blocks) blocks' :=
  .intro closed [] outer persist nofun

theorem persist (moves : Moves depth address blocks blocks') (persist : Branch.Persist blocks' blocks'') :
    Moves depth address blocks blocks'' := by
  obtain ⟨closed, opened, outer, persist', loops⟩ := moves
  obtain ⟨front, back, rfl, opened_persist, kept_persist⟩ := persist.split
  exact .intro closed front outer (persist'.trans kept_persist) (opened_persist.loops (· = address) loops)

end Moves

namespace Machine

variable {κ : Type}

/-- The same blocks are open in both machines. -/
abbrev BlocksStay (machine after : Machine κ) : Prop :=
  Branch.Persist machine.memory.stack.blocks after.memory.stack.blocks

/-- Between both machines, a statement at `address` moved blocks. -/
abbrev BlocksMove (machine : Machine κ) (depth : Nat) (address : Address) (after : Machine κ) : Prop :=
  Moves depth address machine.memory.stack.blocks after.memory.stack.blocks

variable {machine middle after : Machine κ} {blocks : List Branch} {depth : Nat} {address : Address}

theorem BlocksStay.of_blocks (now : after.memory.stack.blocks = blocks)
    (persist : Branch.Persist machine.memory.stack.blocks blocks) : machine.BlocksStay after := by
  rwa [BlocksStay, now]

theorem BlocksStay.of_same (before : middle.memory.stack.blocks = machine.memory.stack.blocks)
    (stay : middle.BlocksStay after) : machine.BlocksStay after := by
  rwa [BlocksStay, ← before]

theorem BlocksMove.of_blocks (now : after.memory.stack.blocks = blocks)
    (moves : Moves depth address machine.memory.stack.blocks blocks) : machine.BlocksMove depth address after := by
  rwa [BlocksMove, now]

theorem BlocksMove.of_same (before : middle.memory.stack.blocks = machine.memory.stack.blocks)
    (moves : middle.BlocksMove depth address after) : machine.BlocksMove depth address after := by
  rwa [BlocksMove, ← before]

end Machine

end PocketScript
