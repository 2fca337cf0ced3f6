import PocketScript.Machine.Operator
import PocketScript.Proofs.Machine.Literals

/-! # Operators keep memory sound

The left operand is registered while the right one is evaluated, and so is a
sequence while its index is. A destination that was handed over by an expression
that was left is not, and is loose from then on.
-/

namespace PocketScript

namespace Machine

open Eval (Keeps)

variable {κ : Type} {machine : Machine κ} {inner : Inner κ} {expression : Expression}
  {left right value : Value}

theorem keeps_combine (operator : Combination) (steady : machine.Steady)
    (live : machine.memory.Live left) (live' : machine.memory.Live right) (start : Address) :
    Keeps (combine operator left right start) machine fun value after =>
      machine.memory.Evolves after.memory ∧ after.memory.Live value := by
  unfold combine
  split
  · exact .raise steady _
  · split
    · exact .pure steady ⟨.refl steady.sound, trivial⟩
    · exact .raise steady _
  · split
    · exact .onMemory steady (steady.sound.concatenate live live')
    · exact .raise steady _
  · exact .raise steady _

theorem keeps_string {cell : Handle} (steady : machine.Steady) (live : machine.memory.Live (.string cell))
    (start : Address) :
    Keeps (Eval.viewMemory start (·.string cell)) machine fun _ after => machine.memory.Evolves after.memory := by
  obtain ⟨bytes, string⟩ := Memory.live_string_iff.mp live
  exact (Keeps.viewMemory steady (by simp [string])).mono fun _ _ _ seen => seen.1

theorem keeps_compare (operator : Comparison) (steady : machine.Steady)
    (live : machine.memory.Live left) (live' : machine.memory.Live right) (start : Address) :
    Keeps (compare operator left right start) machine fun value after =>
      machine.memory.Evolves after.memory ∧ after.memory.Live value := by
  unfold compare
  split
  · exact .raise steady _
  · exact .pure steady ⟨.refl steady.sound, trivial⟩
  · dsimp only
    split
    all_goals try exact .raise steady _
    all_goals
      refine (keeps_string steady live start).bind ?_
      intro _ after follows evolves
      refine (keeps_string follows.steady (evolves.keeps _ live') start).bind ?_
      intro _ last follows' evolves'
      exact .pure follows'.steady ⟨evolves.trans evolves', trivial⟩
  · exact .raise steady _

theorem keeps_assign (steady : machine.Steady) (valid : expression.Valid machine.memory)
    (live : machine.memory.Live value) :
    Keeps (assign expression value) machine fun result after => result.Valid after.memory := by
  unfold assign
  split
  · next destination here =>
    refine (destination.keeps_write steady (valid.destination _ here) live _).bind ?_
    intro _ after follows evolves
    exact .pure follows.steady (valid.evolves evolves)
  · refine (keeps_readName steady _).bind ?_
    rintro ⟨name, code⟩ _ - rfl
    refine (Keeps.onMemory steady (steady.sound.createVariable (Memory.live_missing _) name)).bind ?_
    rintro place created follows ⟨evolves, there⟩
    have held : (Destination.variable place).Held .kept created.memory := there
    refine (Destination.keeps_write follows.steady held (evolves.keeps _ live) _).bind ?_
    intro _ after follows' evolves'
    refine .pure follows'.steady ⟨evolves'.keeps _ (evolves.keeps _ valid.value), fun destination same => ?_⟩
    obtain rfl := Option.some.inj same
    exact evolves'.places place there

/-- The string that is written to in place is live, for it was read just now. -/
theorem keeps_update (operator : Combination) (steady : machine.Steady)
    (valid : expression.Valid machine.memory) (live : machine.memory.Live right) :
    Keeps (update operator expression right) machine fun result after => result.Valid after.memory := by
  unfold update
  dsimp only
  split
  · exact .raise steady _
  · next destination here =>
    refine (destination.keeps_read steady (valid.destination _ here) _).bind ?_
    rintro current read follows ⟨evolves, live_current⟩
    have valid := valid.evolves evolves
    have live := evolves.keeps _ live
    split
    · split
      · refine (Keeps.viewMemory follows.steady (Memory.length_ne live_current)).bind ?_
        rintro length seen follows' ⟨evolves', -⟩
        have inserts := follows'.steady.sound.insertSequence (evolves'.keeps _ live_current)
          (evolves'.keeps _ live) length
        refine (Keeps.onMemory follows'.steady inserts).bind ?_
        rintro _ after follows'' ⟨evolves'', -⟩
        exact .pure follows''.steady (valid.evolves (evolves'.trans evolves''))
      · exact .raise follows.steady _
    · split
      · refine (destination.keeps_write follows.steady (valid.destination _ here) (Memory.live_number _ _) _).bind ?_
        intro _ after follows' evolves'
        exact .pure follows'.steady (valid.evolves evolves')
      · exact .raise follows.steady _
    · exact .raise follows.steady _

theorem keeps_applyStep (direction : Step) (steady : machine.Steady) (valid : expression.Valid machine.memory) :
    Keeps (applyStep direction expression) machine fun result after => result.Valid after.memory := by
  unfold applyStep
  dsimp only
  split
  · split
    · exact .raise steady _
    · next destination here =>
      refine (destination.keeps_write steady (valid.destination _ here) (Memory.live_number _ _) _).bind ?_
      intro _ after follows evolves
      have valid := valid.evolves evolves
      exact .pure follows.steady ⟨valid.value, valid.destination⟩
  · exact .raise steady _

theorem keeps_applyBinary (operator : BinaryOperator) (inside : inner.Sound) (ready : machine.Ready)
    (valid : expression.Valid machine.memory) :
    Keeps (applyBinary inner operator expression) machine fun result after => result.Valid after.memory := by
  refine (Keeps.track ready.toSteady valid.value).bind ?_
  rintro - tracked follows ⟨evolves, guards⟩
  have valid := valid.evolves evolves
  refine (inside.expression (follows.ready ready) _ _ _).bind ?_
  intro right evaluated follows' fresh
  have valid := valid.outlast follows'.memory (follows'.live guards) right.code
  refine (Keeps.track follows'.steady fresh.value).bind ?_
  rintro - after follows'' ⟨evolves'', -⟩
  have valid := valid.evolves evolves''
  have live := evolves''.keeps _ fresh.value
  have steady := follows''.steady
  split
  · exact .raise steady _
  · dsimp only
    split
    · exact keeps_assign steady valid live
    · exact keeps_update _ steady valid live
    · refine (keeps_combine _ steady valid.value live _).bind ?_
      rintro value last follows ⟨-, live⟩
      exact .pure follows.steady (.ofNone live rfl)
    · refine (keeps_compare _ steady valid.value live _).bind ?_
      rintro value last follows ⟨-, live⟩
      exact .pure follows.steady (.ofNone live rfl)

theorem keeps_applyUnary (operator : UnaryOperator) (inside : inner.Sound) (ready : machine.Ready)
    (bare : expression.Bare) :
    Keeps (applyUnary inner operator expression) machine fun result after => result.Valid after.memory := by
  refine (inside.expression ready _ _ _).bind ?_
  intro operand evaluated follows fresh
  have steady := follows.steady
  dsimp only
  split
  · exact .raise steady _
  · split
    · exact .pure steady (.ofNone trivial bare.destination)
    · exact .pure steady (.ofNone trivial bare.destination)
    · exact .pure steady (.ofNone trivial bare.destination)
    · split
      · exact .raise steady _
      · next destination here =>
        have held := fresh.destination destination here
        refine (destination.keeps_write steady held (Memory.live_number _ _) _).bind ?_
        intro _ written follows' evolves
        refine (destination.keeps_read follows'.steady (held.evolves evolves) _).bind ?_
        rintro value after follows'' ⟨evolves', live⟩
        refine .pure follows''.steady ⟨live, fun other same => ?_⟩
        obtain rfl := Option.some.inj same
        exact (held.evolves evolves).evolves evolves'
  · exact .raise steady _

theorem keeps_readParenthesis (inside : inner.Sound) (ready : machine.Ready) :
    Keeps (readParenthesis inner expression) machine fun result after => result.Valid after.memory := by
  refine (inside.argument ready _).bind ?_
  intro operand after follows fresh
  refine .byteAt_bind ?_
  split
  · exact .raise follows.steady _
  · exact .pure follows.steady ⟨fresh.value, fresh.destination⟩

/-- A selected destination is kept by a registration of its sequence. -/
theorem keeps_select (steady : machine.Steady) (live : machine.memory.Live value) (index : Float32)
    (start : Address) :
    Keeps (select value index start) machine fun destination after =>
      machine.memory.Evolves after.memory ∧
        ∀ memory : Memory, memory.roots.Guards value → destination.Held .kept memory := by
  unfold select
  split
  · refine (Keeps.viewMemory steady (Memory.length_ne live)).bind ?_
    rintro length after follows ⟨evolves, -⟩
    dsimp only
    split
    · exact .raise follows.steady _
    · exact .pure follows.steady ⟨evolves, fun memory guards => guards rfl⟩
  · refine (Keeps.viewMemory steady (Memory.length_ne live)).bind ?_
    rintro length after follows ⟨evolves, -⟩
    dsimp only
    split
    · exact .raise follows.steady _
    · exact .pure follows.steady ⟨evolves, fun memory guards => guards rfl⟩
  · exact .raise steady _

theorem keeps_applyIndex [Heeding κ] (inside : inner.Sound) (ready : machine.Ready)
    (guards : machine.memory.roots.Guards expression.value) :
    Keeps (applyIndex inner expression) machine fun result after => result.Valid after.memory := by
  unfold applyIndex
  dsimp only
  split
  · exact .raise ready.toSteady _
  · refine (inside.argument ready _).bind ?_
    intro index evaluated follows fresh
    have steady := follows.steady
    split
    · exact .raise steady _
    · refine .byteAt_bind ?_
      split
      · exact .raise steady _
      · split
        · refine (keeps_select steady (follows.live guards) _ _).bind ?_
          rintro destination selected follows' ⟨evolves, held⟩
          refine (Keeps.track follows'.steady (evolves.keeps _ (follows.live guards))).bind ?_
          rintro - tracked follows'' ⟨-, guards'⟩
          have held := held tracked.memory guards'
          refine (destination.keeps_read follows''.steady held _).bind ?_
          rintro value after follows''' ⟨evolves', live⟩
          refine .pure follows'''.steady ⟨live, fun other same => ?_⟩
          obtain rfl := Option.some.inj same
          exact (held.evolves evolves').ofKept follows'''.steady.sound _
        · exact .raise steady _

end Machine

end PocketScript
