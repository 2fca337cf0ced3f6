import PocketScript.Machine.Evaluation
import PocketScript.Proofs.Flow.Text
import PocketScript.Proofs.Machine.Giving

/-! # Code goes forward

Reading a literal or a name goes on behind it, and what is done to an expression that was
read does not go back. Scanning ends with the store.
-/

namespace PocketScript

variable {κ : Type}

namespace Store

variable {store : Store} {address after : Address}

theorem length_scanWithin_le (store : Store) (stop : UInt8 → Bool) (count : Nat) (address : Address) :
    (store.scanWithin stop count address).length ≤ count := by
  induction count generalizing address with
  | zero => exact Nat.le_refl _
  | succ count ih =>
      unfold scanWithin
      split
      · exact Nat.zero_le _
      · exact Nat.succ_le_succ (ih _)

/-- A definition has fewer commas than there are bytes behind its own. -/
theorem parameterCount_lt (store : Store) (header : Address) : store.parameterCount header < capacity := by
  have counted : store.parameterCount header ≤ (store.lineFrom (header + 1)).length := List.count_le_length
  have scanned : (store.lineFrom (header + 1)).length ≤ capacity - (header + 1) :=
    store.length_scanWithin_le _ _ _
  have some_bytes : 0 < capacity := by decide
  omega

/-- A line ends behind an address in it. -/
theorem lt_lineEnd (inside : endsLine (store.byte address) = false) : address < store.lineEnd address := by
  have some_byte : store.byte address ≠ 0 := by
    intro zero
    rw [zero] at inside
    exact absurd inside (by decide)
  have below := lt_capacity some_byte
  have room : capacity - address = capacity - (address + 1) + 1 := by omega
  unfold lineEnd lineFrom scan
  rw [room, scanWithin, if_neg (by rw [inside]; exact Bool.false_ne_true), List.length_cons]
  exact Nat.lt_add_of_pos_right (Nat.succ_pos _)

theorem le_lineEnd (store : Store) (address : Address) : address ≤ store.lineEnd address :=
  Nat.le_add_right _ _

/-- Whoever goes forward in the store needs one step less. -/
theorem enough_behind {address after steps : Nat} (forward : address < after) (below : address < capacity)
    (enough : capacity - address < steps + 1) : capacity - after < steps := by
  omega

theorem lt_of_restOfString? {count : Nat} {escaped : Bool} {bytes : List UInt8}
    (found : store.restOfString? count escaped address = some (bytes, after)) : address < after := by
  induction count generalizing escaped address bytes with
  | zero => cases found
  | succ count ih =>
      unfold restOfString? at found
      dsimp only at found
      split at found
      · cases found
      split at found
      · obtain ⟨⟨rest, last⟩, read, same⟩ := Option.map_eq_some_iff.mp found
        obtain ⟨-, rfl⟩ := Prod.mk.inj same
        exact Nat.lt_trans (Nat.lt_succ_self _) (ih read)
      split at found
      · exact Nat.lt_trans (Nat.lt_succ_self _) (ih found)
      split at found
      · obtain ⟨-, rfl⟩ := Prod.mk.inj (Option.some.inj found)
        exact Nat.lt_succ_self _
      · obtain ⟨⟨rest, last⟩, read, same⟩ := Option.map_eq_some_iff.mp found
        obtain ⟨-, rfl⟩ := Prod.mk.inj same
        exact Nat.lt_trans (Nat.lt_succ_self _) (ih read)

end Store

namespace Machine

open Eval (Gives)

variable {machine : Machine κ} {expression : Expression}

theorem gives_readName_lt (address : Address) :
    Gives (readName address) machine fun name _ => address < name.2 := by
  unfold readName
  refine .get_bind ?_
  cases machine.store.name? address with
  | none => exact .raise _
  | some bytes =>
      cases bytes with
      | nil => exact .raise _
      | cons byte rest => exact .pure (by simp)

theorem gives_readVariable_lt : Gives (readVariable expression) machine fun result _ =>
    expression.start < result.code := by
  unfold readVariable
  refine (gives_readName_lt expression.start).bind fun name after behind => .get_bind ?_
  dsimp only
  split
  · exact .pure behind
  · exact .pure behind

theorem gives_readNumberLiteral_lt : Gives (readNumberLiteral expression) machine fun result _ =>
    expression.start < result.code := by
  unfold readNumberLiteral
  refine .get_bind ?_
  dsimp only
  split
  · exact .raise _
  · exact .pure (Nat.lt_of_lt_of_le (Nat.lt_succ_self _) (Nat.le_add_right _ _))

theorem gives_readCharacterLiteral_lt : Gives (readCharacterLiteral expression) machine fun result _ =>
    expression.start < result.code := by
  unfold readCharacterLiteral
  refine .get_bind ?_
  extract_lets store first
  have behind : expression.start < (if first = 0x5c then
      (Store.unescape (store.byte (expression.start + 2)), expression.start + 3)
      else (first, expression.start + 2)).2 := by
    split
    · exact Nat.lt_add_of_pos_right (by decide)
    · exact Nat.lt_add_of_pos_right (by decide)
  generalize (if first = 0x5c then _ else _ : UInt8 × Address) = found at behind ⊢
  dsimp only
  split
  · exact .raise _
  · exact .pure (Nat.lt_succ_of_lt behind)

theorem gives_readStringLiteral_lt : Gives (readStringLiteral expression) machine fun result _ =>
    expression.start < result.code := by
  unfold readStringLiteral
  refine .get_bind ?_
  split
  · exact .raise _
  · next bytes code read =>
    have behind := Store.lt_of_restOfString? read
    exact Gives.bind .any fun cell after _ => .pure (Nat.lt_of_succ_lt behind)

theorem gives_assign_code (value : Value) : Gives (assign expression value) machine fun result _ =>
    result.code = expression.code := by
  unfold assign
  dsimp only
  split
  · exact Gives.bind .any fun _ _ _ => .pure rfl
  · exact Gives.bind .any fun _ _ _ => Gives.bind .any fun _ _ _ => Gives.bind .any fun _ _ _ => .pure rfl

theorem gives_update_code (operator : Combination) (right : Value) :
    Gives (update operator expression right) machine fun result _ => result.code = expression.code := by
  unfold update
  dsimp only
  split
  · exact .raise _
  · refine Gives.bind .any fun current after _ => ?_
    split
    · split
      · exact Gives.bind .any fun _ _ _ => Gives.bind .any fun _ _ _ => .pure rfl
      · exact .raise _
    · split
      · exact Gives.bind .any fun _ _ _ => .pure rfl
      · exact .raise _
    · exact .raise _

theorem gives_applyStep_code (direction : Step) : Gives (applyStep direction expression) machine fun result _ =>
    result.code = expression.code + 1 := by
  unfold applyStep
  dsimp only
  split
  · split
    · exact .raise _
    · exact Gives.bind .any fun _ _ _ => .pure rfl
  · exact .raise _

theorem gives_define_same : Gives (define expression) machine fun result _ => result = expression := by
  unfold define
  dsimp only
  refine Gives.bind .any fun name _ _ => .get_bind ?_
  have binds (place : VariableRef) (machine : Machine κ) : Gives (do
      (Destination.variable place).write .kept (.function expression.start) expression.start
      Eval.onMemory expression.start (Memory.pushBranch .ignoreHard 0)
      return expression) machine fun result _ => result = expression :=
    Gives.bind .any fun _ _ _ => Gives.bind .any fun _ _ _ => .pure rfl
  split
  · exact binds _ _
  · exact Gives.bind .any fun _ _ _ => binds _ _

/-- Operating on memory leaves the store and the configuration alone. -/
theorem gives_onMemory_rest {α : Type} (address : Address) (operation : MemoryM α) :
    Gives (Eval.onMemory address operation) machine fun _ after =>
      after.store = machine.store ∧ after.configuration = machine.configuration := by
  intro result after ran
  unfold Eval.onMemory Eval.onMemoryAs at ran
  cases operated : operation machine.memory with
  | ok result memory =>
      rw [operated] at ran
      cases ran
      exact ⟨rfl, rfl⟩
  | error error memory =>
      rw [operated] at ran
      cases ran

end Machine

end PocketScript
