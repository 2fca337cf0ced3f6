import PocketScript.Proofs.Schedule.Tallying

/-! # Operands of two runs

Literals, names, destinations and the operators on values that are at hand, on
two machines that are alike but for handles.
-/

namespace PocketScript

open Eval (Calm Tally StaysSpent)

variable {κ : Type} {pairing next : Pairing} {value value' left left' right right' : Value} {address start : Address}
  {expression expression' : Expression} {destination destination' : Destination} {hold : Hold}

/-- The same place, but for the cell. -/
inductive Destination.Mirrors (pairing : Pairing) : Destination → Destination → Prop where
  | named (place : VariableRef) : Mirrors pairing (.variable place) (.variable place)
  | element {list list' : Handle} (paired : pairing list list') (index : Nat) :
      Mirrors pairing (.element list index) (.element list' index)
  | character {string string' : Handle} (paired : pairing string string') (index : Nat) :
      Mirrors pairing (.character string index) (.character string' index)

/-- The same bytes consumed, and values and destinations alike. -/
inductive Expression.Mirrors (pairing : Pairing) : Expression → Expression → Prop where
  | parts (start code : Address) {value value' : Value} (values : value.Mirrors pairing value')
      {destination? destination?' : Option Destination}
      (destination : Option.Rel (Destination.Mirrors pairing) destination? destination?') (hold : Hold) :
      Mirrors pairing ⟨start, code, value, destination?, hold⟩ ⟨start, code, value', destination?', hold⟩

theorem Destination.Mirrors.mono (mirrors : destination.Mirrors pairing destination') (grown : pairing ≤ next) :
    destination.Mirrors next destination' := by
  cases mirrors with
  | named place => exact .named place
  | element paired index => exact .element (grown _ _ paired) index
  | character paired index => exact .character (grown _ _ paired) index

theorem Destination.rel_mono {destination? destination?' : Option Destination}
    (alike : Option.Rel (Destination.Mirrors pairing) destination? destination?') (grown : pairing ≤ next) :
    Option.Rel (Destination.Mirrors next) destination? destination?' := by
  cases alike with
  | none => exact .none
  | some mirrors => exact .some (mirrors.mono grown)

theorem Expression.mirrors_starting (pairing : Pairing) (start : Address) :
    (Expression.starting start).Mirrors pairing (.starting start) :=
  .parts start start .missing .none .loose

namespace Eval

theorem Tally.raise {α : Type} {done : Pairing → α → α → Prop} (kind : FaultKind) (address : Address) :
    Tally pairing (raise kind address : Eval κ α) (raise kind address) done :=
  (Calm.raise kind address).tally

theorem Tally.get_bind {α : Type} {done : Pairing → α → α → Prop} {rest rest' : Machine κ → Eval κ α}
    (goes : ∀ machine other : Machine κ, machine.Mirrors pairing other →
      Tally pairing (rest machine) (rest' other) done) :
    Tally pairing (get >>= rest) (get >>= rest') done :=
  fun machine other mirrors => goes machine other mirrors machine other mirrors

theorem Tally.pure {α : Type} {done : Pairing → α → α → Prop} {result result' : α}
    (holds : done pairing result result') :
    Tally pairing (Pure.pure result : Eval κ α) (Pure.pure result') done :=
  (Calm.pure holds).tally

/-- A value that is missing on one side is missing on the other. -/
theorem Tally.unless_missing {α : Type} {done : Pairing → α → α → Prop} {evaluation evaluation' : Eval κ α}
    (alike : value.Mirrors pairing value') (kind : FaultKind) (address : Address)
    (goes : Tally pairing evaluation evaluation' done) :
    Tally pairing (if value.isMissing then Eval.raise kind address else evaluation)
      (if value'.isMissing then Eval.raise kind address else evaluation') done := by
  rw [alike.isMissing_eq]
  split
  · exact .raise kind address
  · exact goes

theorem Tally.edit (address : Address) {edit edit' : Edit} (alike : edit.Mirrors pairing edit')
    {cause : MemoryError → FaultCause} (ofMemory : IsOfMemory cause) :
    Tally pairing (Eval.onMemoryAs cause address edit.run : Eval κ Unit) (Eval.onMemoryAs cause address edit'.run)
      fun _ _ _ => True :=
  .onMemoryAs ofMemory address fun _ _ mirrors => mirrors.edit alike

theorem Tally.copy (address : Address) {copy copy' : Copy} (alike : copy.Mirrors pairing copy') :
    Tally pairing (onMemory address copy.run : Eval κ Value) (onMemory address copy'.run) Value.Mirrors :=
  .onMemoryAs isOfMemory address fun _ _ mirrors => mirrors.copy alike

theorem Tally.createString (address : Address) (bytes : List UInt8) :
    Tally pairing (onMemory address (Memory.createString bytes) : Eval κ Handle)
      (onMemory address (Memory.createString bytes)) fun next => next := by
  refine .onMemoryAs isOfMemory address fun _ _ mirrors => ?_
  have created := mirrors.createSequence (.bytes bytes)
  exact created

theorem Tally.createList (address : Address) :
    Tally pairing (onMemory address (Memory.createList []) : Eval κ Handle)
      (onMemory address (Memory.createList [])) fun next => next := by
  refine .onMemoryAs isOfMemory address fun _ _ mirrors => ?_
  have created := mirrors.createSequence (.values .nil)
  exact created

theorem Calm.createVariable (address : Address) (name : String) (alike : value.Mirrors pairing value') :
    Calm pairing (onMemory address (Memory.createVariable name value) : Eval κ VariableRef)
      (onMemory address (Memory.createVariable name value')) Eq :=
  .onMemoryAs isOfMemory address fun _ _ mirrors => mirrors.createVariable name alike

theorem Calm.pushBranch (address : Address) (action : BranchAction) (code : Address) :
    Calm pairing (onMemory address (Memory.pushBranch action code) : Eval κ Unit)
      (onMemory address (Memory.pushBranch action code)) fun _ _ => True :=
  .onMemoryAs isOfMemory address fun _ _ mirrors => mirrors.pushBranch action code

end Eval

namespace Destination.Mirrors

theorem calm_read (alike : destination.Mirrors pairing destination') (hold : Hold) (address : Address) :
    Calm pairing (destination.read hold address : Eval κ Value) (destination'.read hold address)
      (Value.Mirrors pairing) := by
  cases alike with
  | named place =>
      refine .viewMemory address fun memory other mirrors => ?_
      have here := mirrors.variableValue? place
      generalize memory.variableValue? place = found, other.variableValue? place = found' at here
      cases here with
      | none => exact .error .dangling
      | some alike => exact .ok alike
  | element paired index =>
      exact .onMemoryAs (Eval.isOfMemory_hold hold) address fun _ _ mirrors =>
        mirrors.look (mirrors.element paired index)
  | character paired index =>
      have reads : Calm pairing (Eval.onMemoryAs hold.cause address (Memory.look (·.byte _ index)) : Eval κ UInt8)
          (Eval.onMemoryAs hold.cause address (Memory.look (·.byte _ index))) Eq :=
        .onMemoryAs (Eval.isOfMemory_hold hold) address fun _ _ mirrors => mirrors.look (mirrors.byte paired index)
      refine reads.bind_eq fun byte => ?_
      exact .pure (.number _)

theorem tally_write (alike : destination.Mirrors pairing destination') (hold : Hold)
    (values : value.Mirrors pairing value') (address : Address) :
    Tally pairing (destination.write hold value address : Eval κ Unit) (destination'.write hold value' address)
      fun _ _ _ => True := by
  cases alike with
  | named place =>
      refine Calm.tally ((Calm.onMemoryAs Eval.isOfMemory address fun _ _ mirrors =>
        mirrors.setVariable place values).mono fun _ _ _ => trivial)
  | element paired index => exact .edit address (.setElement paired index values) (Eval.isOfMemory_hold hold)
  | character paired index =>
      cases values with
      | number number => exact .edit address (.setByte paired index _) (Eval.isOfMemory_hold hold)
      | missing | string _ | list _ | function _ => exact .raise _ _

end Destination.Mirrors

namespace Machine

theorem calm_readName (address : Address) :
    Calm pairing (readName address : Eval κ (String × Address)) (readName address) Eq := by
  refine .get_bind fun machine other mirrors => ?_
  rw [mirrors.store]
  cases machine.store.name? address with
  | none => exact .raise _ _
  | some bytes =>
      cases bytes with
      | nil => exact .raise _ _
      | cons byte rest => exact .pure rfl

theorem calm_readVariable (alike : expression.Mirrors pairing expression') :
    Calm pairing (readVariable expression : Eval κ Expression) (readVariable expression')
      (Expression.Mirrors pairing) := by
  obtain ⟨start, code, values, destinations, hold⟩ := alike
  refine (calm_readName start).bind_eq fun ⟨name, code⟩ => ?_
  refine .get_bind fun machine other mirrors => ?_
  dsimp only
  rw [mirrors.memory.stack.find?_eq]
  cases machine.memory.stack.find? name with
  | none => exact .pure (.parts _ _ values destinations _)
  | some place =>
      refine .pure (.parts _ _ ?_ (.some (.named place)) _)
      have here := mirrors.memory.variableValue? place
      generalize machine.memory.variableValue? place = found, other.memory.variableValue? place = found' at here
      cases here with
      | none => exact .missing
      | some alike => exact alike

theorem calm_readNumberLiteral (alike : expression.Mirrors pairing expression') :
    Calm pairing (readNumberLiteral expression : Eval κ Expression) (readNumberLiteral expression')
      (Expression.Mirrors pairing) := by
  obtain ⟨start, code, values, destinations, hold⟩ := alike
  refine .get_bind fun machine other mirrors => ?_
  dsimp only
  rw [mirrors.store]
  cases machine.store.restOfNumber? (Store.numberLiteralLimit - 1) 0 (start + 1) with
  | none => exact .raise _ _
  | some rest => exact .pure (.parts _ _ (.number _) destinations _)

theorem calm_readCharacterLiteral (alike : expression.Mirrors pairing expression') :
    Calm pairing (readCharacterLiteral expression : Eval κ Expression) (readCharacterLiteral expression')
      (Expression.Mirrors pairing) := by
  obtain ⟨start, code, values, destinations, hold⟩ := alike
  refine .get_bind fun machine other mirrors => ?_
  dsimp only
  rw [mirrors.store]
  generalize (if machine.store.byte (start + 1) = 0x5c then
    (Store.unescape (machine.store.byte (start + 2)), start + 3)
    else (machine.store.byte (start + 1), start + 2)) = literal
  split
  · exact .raise _ _
  · exact .pure (.parts _ _ (.number _) destinations _)

theorem tally_readStringLiteral (alike : expression.Mirrors pairing expression') :
    Tally pairing (readStringLiteral expression : Eval κ Expression) (readStringLiteral expression')
      Expression.Mirrors := by
  obtain ⟨start, code, values, destinations, hold⟩ := alike
  refine Tally.get_bind fun machine other mirrors => ?_
  dsimp only
  rw [mirrors.store]
  cases machine.store.restOfString? (Store.capacity - (start + 1)) false (start + 1) with
  | none => exact .raise _ _
  | some literal =>
      refine (Tally.createString start literal.1).bind (by grind) (by grind) fun next cell cell' grown paired => ?_
      exact .pure (.parts _ _ (.string paired) (Destination.rel_mono destinations grown) _)

theorem tally_combine (operator : Combination) (lefts : left.Mirrors pairing left')
    (rights : right.Mirrors pairing right') (start : Address) :
    Tally pairing (combine operator left right start : Eval κ Value) (combine operator left' right' start)
      Value.Mirrors := by
  cases lefts with
  | missing => exact .raise _ _
  | number a =>
      cases rights with
      | number b =>
          dsimp only [combine]
          cases operator.apply a b with
          | none => exact .raise _ _
          | some number => exact .pure (.number number)
      | missing | string _ | list _ | function _ => exact .raise _ _
  | string front =>
      cases rights with
      | string back =>
          dsimp only [combine]
          by_cases joins : operator = .add
          · rw [if_pos joins, if_pos joins]
            exact .copy start (.concatenation front back)
          · rw [if_neg joins, if_neg joins]
            exact .raise _ _
      | missing | number _ | list _ | function _ => exact .raise _ _
  | list _ | function _ => exact .raise _ _

theorem calm_compare (operator : Comparison) (lefts : left.Mirrors pairing left')
    (rights : right.Mirrors pairing right') (start : Address) :
    Calm pairing (compare operator left right start : Eval κ Value) (compare operator left' right' start)
      (Value.Mirrors pairing) := by
  cases lefts with
  | missing => exact .raise _ _
  | number a =>
      cases rights with
      | number b => exact .pure (.number _)
      | missing | string _ | list _ | function _ => exact .raise _ _
  | string front =>
      cases rights with
      | string back =>
          have bytes : ∀ {cell cell' : Handle}, pairing cell cell' →
              Calm pairing (Eval.viewMemory start (·.string cell) : Eval κ (List UInt8))
                (Eval.viewMemory start (·.string cell')) Eq :=
            fun paired => .viewMemory start fun _ _ mirrors => mirrors.string paired
          dsimp only [compare]
          cases operator with
          | equal | unequal =>
              refine (bytes front).bind_eq fun first => ?_
              refine (bytes back).bind_eq fun second => ?_
              exact .pure (.number _)
          | greater | less | atLeast | atMost => exact .raise _ _
      | missing | number _ | list _ | function _ => exact .raise _ _
  | list _ | function _ => exact .raise _ _

theorem tally_assign (alike : expression.Mirrors pairing expression') (new : value.Mirrors pairing value') :
    Tally pairing (assign expression value : Eval κ Expression) (assign expression' value') Expression.Mirrors := by
  obtain ⟨start, code, values, destinations, hold⟩ := alike
  cases destinations with
  | some place =>
      refine (place.tally_write hold new start).bind (by grind) (by grind) fun next _ _ grown _ => ?_
      exact .pure (.parts _ _ (values.mono grown) (.some (place.mono grown)) _)
  | none =>
      refine (calm_readName start).bind_eq_tally fun named => ?_
      refine (Calm.createVariable start named.1 .missing).bind_eq_tally fun place => ?_
      refine ((Destination.Mirrors.named place).tally_write .kept new start).bind (by grind) (by grind)
        fun next _ _ grown _ => ?_
      exact .pure (.parts _ _ (values.mono grown) (.some (.named place)) _)

theorem tally_update (operator : Combination) (alike : expression.Mirrors pairing expression')
    (rights : right.Mirrors pairing right') :
    Tally pairing (update operator expression right : Eval κ Expression) (update operator expression' right')
      Expression.Mirrors := by
  obtain ⟨start, code, values, destinations, hold⟩ := alike
  cases destinations with
  | none => exact .raise _ _
  | @some destination destination' place =>
      refine (place.calm_read hold start).bind_tally fun current current' currents => ?_
      cases currents with
      | missing | list _ | function _ => exact .raise _ _
      | number a =>
          cases rights with
          | missing | string _ | list _ | function _ => exact .raise _ _
          | number b =>
              dsimp only
              cases operator.update a b with
              | none => exact .raise _ _
              | some number =>
                  refine (place.tally_write hold (.number number) start).bind (by grind) (by grind)
                    fun next _ _ grown _ => ?_
                  exact .pure (.parts _ _ (values.mono grown) (.some (place.mono grown)) _)
      | string front =>
          cases rights with
          | missing | number _ | list _ | function _ => exact .raise _ _
          | string back =>
              dsimp only
              by_cases joins : operator = .add
              · rw [if_pos joins, if_pos joins]
                have measures : Calm pairing (Eval.viewMemory start (·.length (.string _)) : Eval κ Nat)
                    (Eval.viewMemory start (·.length (.string _))) Eq :=
                  .viewMemory start fun _ _ mirrors => mirrors.length (.string front)
                refine measures.bind_eq_tally fun length => ?_
                refine (Tally.edit start (.insertSequence (.string front) length (.string back))
                  Eval.isOfMemory).bind (by grind) (by grind) fun next _ _ grown _ => ?_
                exact .pure (.parts _ _ (values.mono grown) (.some (place.mono grown)) _)
              · rw [if_neg joins, if_neg joins]
                exact .raise _ _

theorem tally_applyStep (direction : Step) (alike : expression.Mirrors pairing expression') :
    Tally pairing (applyStep direction expression : Eval κ Expression) (applyStep direction expression')
      Expression.Mirrors := by
  obtain ⟨start, code, values, destinations, hold⟩ := alike
  cases values with
  | missing | string _ | list _ | function _ => exact .raise _ _
  | number number =>
      cases destinations with
      | none => exact .raise _ _
      | some place =>
          refine (place.tally_write hold (.number _) start).bind (by grind) (by grind) fun next _ _ grown _ => ?_
          exact .pure (.parts _ _ (.number number) (.some (place.mono grown)) _)

theorem calm_select (alike : value.Mirrors pairing value') (index : Float32) (start : Address) :
    Calm pairing (select value index start : Eval κ Destination) (select value' index start)
      (Destination.Mirrors pairing) := by
  have length : Calm pairing (Eval.viewMemory start (·.length value) : Eval κ Nat)
      (Eval.viewMemory start (·.length value')) Eq := .viewMemory start fun _ _ mirrors => mirrors.length alike
  cases alike with
  | missing | number _ | function _ => exact .raise _ _
  | string paired =>
      refine length.bind_eq fun count => ?_
      dsimp only
      split
      · exact .raise _ _
      · exact .pure (.character paired _)
  | list paired =>
      refine length.bind_eq fun count => ?_
      dsimp only
      split
      · exact .raise _ _
      · exact .pure (.element paired _)

end Machine

end PocketScript
