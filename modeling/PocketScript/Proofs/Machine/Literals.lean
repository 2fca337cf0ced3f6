import PocketScript.Machine.Literal
import PocketScript.Proofs.Machine.Expressions

/-! # Literals and names keep memory sound -/

namespace PocketScript

namespace Machine

open Eval (Keeps)

variable {κ : Type} {machine : Machine κ} {inner : Inner κ} {expression : Expression} {value : Value}

theorem keeps_readName (steady : machine.Steady) (address : Address) :
    Keeps (readName address) machine fun _ after => after = machine := by
  refine .get_bind ?_
  split
  · exact .raise steady _
  · exact .raise steady _
  · exact .pure steady rfl

theorem keeps_readVariable (steady : machine.Steady) (bare : expression.Bare) :
    Keeps (readVariable expression) machine fun result after => result.Valid after.memory := by
  refine (keeps_readName steady _).bind ?_
  rintro ⟨name, code⟩ _ - rfl
  refine .get_bind ?_
  dsimp only
  split
  · next place found =>
    obtain ⟨binding, there⟩ := Option.isSome_iff_exists.mp (ScopeStack.isSome_of_find found)
    refine .pure steady ⟨?_, fun destination same => ?_⟩
    · simpa [Memory.variableValue?, there] using steady.sound.bound place binding there
    · obtain rfl := Option.some.inj same
      exact ScopeStack.isSome_of_find found
  · exact .pure steady (.ofNone (bare.valid _).value bare.destination)

theorem keeps_readNumberLiteral (steady : machine.Steady) (bare : expression.Bare) :
    Keeps (readNumberLiteral expression) machine fun result after => result.Valid after.memory := by
  refine .get_bind ?_
  dsimp only
  split
  · exact .raise steady _
  · exact .pure steady (.ofNone trivial bare.destination)

theorem keeps_readCharacterLiteral (steady : machine.Steady) (bare : expression.Bare) :
    Keeps (readCharacterLiteral expression) machine fun result after => result.Valid after.memory := by
  refine .get_bind ?_
  dsimp only
  split
  -- Escaped or not, the character has to be closed.
  · split
    · exact .raise steady _
    · exact .pure steady (.ofNone trivial bare.destination)
  · split
    · exact .raise steady _
    · exact .pure steady (.ofNone trivial bare.destination)

theorem keeps_readStringLiteral (steady : machine.Steady) (bare : expression.Bare) :
    Keeps (readStringLiteral expression) machine fun result after => result.Valid after.memory := by
  refine .get_bind ?_
  split
  · exact .raise steady _
  · next bytes code _ =>
    refine (Keeps.onMemory steady (steady.sound.createString bytes)).bind ?_
    rintro cell after follows ⟨-, live⟩
    exact .pure follows.steady (.ofNone live bare.destination)

/-- While its elements are evaluated, the list is registered. -/
theorem keeps_readElements (inside : inner.Sound) (start : Address) (steps : Nat) (ready : machine.Ready)
    {list : Value} (guards : machine.memory.roots.Guards list) (address : Address) (index : Nat) :
    Keeps (readElements inner start list steps address index) machine fun _ _ => True := by
  induction steps generalizing machine address index with
  | zero => exact .unfinished ready.toSteady
  | succ steps ih =>
      refine .byteAt_bind ?_
      split
      · exact .raise ready.toSteady _
      · split
        · exact .pure ready.toSteady trivial
        · refine (inside.argument ready _).bind ?_
          intro element after follows fresh
          split
          · exact .raise follows.steady _
          · have steady := follows.steady
            have inserts := steady.sound.insertElement (follows.live guards) fresh.value index
            refine (Keeps.onMemory steady inserts).bind ?_
            rintro - last follows' -
            have since := follows.trans follows'
            exact ih (since.ready ready) (since.memory.roots.guards guards) _ _

theorem keeps_readListLiteral (inside : inner.Sound) (ready : machine.Ready) (bare : expression.Bare) :
    Keeps (readListLiteral inner expression) machine fun result after => result.Valid after.memory := by
  have none : ∀ value ∈ ([] : List Value), machine.memory.Live value := by simp
  refine (Keeps.onMemory ready.toSteady (ready.sound.createList none)).bind ?_
  rintro cell created follows ⟨-, live⟩
  refine (Keeps.track follows.steady live).bind ?_
  rintro - tracked follows' ⟨-, guards⟩
  have since := follows.trans follows'
  refine (keeps_readElements inside _ _ (since.ready ready) guards _ _).bind ?_
  rintro code after follows'' -
  exact .pure follows''.steady (.ofNone (follows''.live guards) bare.destination)

end Machine

end PocketScript
