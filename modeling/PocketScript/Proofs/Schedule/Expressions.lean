import PocketScript.Proofs.Schedule.Operands

/-! # Expressions of two runs

Operators, parentheses, indices and lists, on two machines that are alike but for
handles, if what is evaluated one level further in tallies.
-/

namespace PocketScript

open Eval (Calm Tally StaysSpent)

variable {κ : Type} {pairing next : Pairing} {value value' : Value} {address start : Address}
  {expression expression' left left' : Expression} {inner : Inner κ}

namespace Machine

/-- What is evaluated one level further in ends the same way on both sides. -/
structure Inner.Tallies (inner : Inner κ) : Prop where
  stays : Inner.StaysSpent inner
  expression : ∀ pairing start ceiling isStatement, Tally pairing (inner.expression start ceiling isStatement)
    (inner.expression start ceiling isStatement) Expression.Mirrors
  code : ∀ pairing address, Tally pairing (inner.code address) (inner.code address) Value.Mirrors
  body : ∀ body, inner.body? = some body → ∀ pairing address,
    Tally pairing (body address) (body address) Value.Mirrors

theorem Inner.Tallies.argument (tallies : Inner.Tallies inner) (pairing : Pairing) (start : Address) :
    Tally pairing (inner.argument start) (inner.argument start) Expression.Mirrors :=
  tallies.expression pairing start _ false

theorem tally_applyBinary (tallies : Inner.Tallies inner) (operator : BinaryOperator)
    (alike : left.Mirrors pairing left') :
    Tally pairing (applyBinary inner operator left) (applyBinary inner operator left') Expression.Mirrors := by
  have operand := tallies.stays.expression
  obtain ⟨start, code, values, destinations, hold⟩ := alike
  refine (Calm.track _ _).bind_tally fun _ _ _ => ?_
  refine (tallies.expression pairing _ _ _).bind (by grind) (by grind) fun next right right' grown rights => ?_
  obtain ⟨start', code', rights, -, -⟩ := rights
  have lefts := values.mono grown
  have places := Destination.rel_mono destinations grown
  refine (Calm.track _ _).bind_tally fun _ _ _ => ?_
  refine Tally.unless_missing rights _ _ ?_
  cases operator with
  | assign => exact tally_assign (.parts _ _ lefts places _) rights
  | update operator => exact tally_update operator (.parts _ _ lefts places _) rights
  | combine operator =>
      refine (tally_combine operator lefts rights start).bind (by grind) (by grind) fun _ _ _ _ results => ?_
      exact .pure (.parts _ _ results .none _)
  | compare operator =>
      refine (calm_compare operator lefts rights start).bind_tally fun _ _ results => ?_
      exact .pure (.parts _ _ results .none _)

theorem tally_applyUnary (tallies : Inner.Tallies inner) (operator : UnaryOperator)
    (alike : expression.Mirrors pairing expression') :
    Tally pairing (applyUnary inner operator expression) (applyUnary inner operator expression')
      Expression.Mirrors := by
  have operand := tallies.stays.expression
  obtain ⟨start, code, values, destinations, hold⟩ := alike
  refine (tallies.expression pairing _ _ _).bind (fun right => ?_) (fun right => ?_)
    fun next right right' grown rights => ?_
  · dsimp only
    split <;> grind
  · dsimp only
    split <;> grind
  obtain ⟨start', code', rights, places, hold'⟩ := rights
  have kept := Destination.rel_mono destinations grown
  cases rights with
  | missing | string _ | list _ | function _ => exact .raise _ _
  | number number =>
      cases operator with
      | negate | not | complement => exact .pure (.parts _ _ (.number _) kept _)
      | step direction =>
          cases places with
          | none => exact .raise _ _
          | some place =>
              refine (place.tally_write hold'.handOver (.number _) start).bind (by grind) (by grind)
                fun next' _ _ grown' _ => ?_
              have place := place.mono grown'
              refine (place.calm_read hold'.handOver start).bind_tally fun _ _ results => ?_
              exact .pure (.parts _ _ results (.some place) _)

theorem tally_readParenthesis (tallies : Inner.Tallies inner) (alike : expression.Mirrors pairing expression') :
    Tally pairing (readParenthesis inner expression) (readParenthesis inner expression') Expression.Mirrors := by
  obtain ⟨start, code, values, destinations, hold⟩ := alike
  refine (tallies.argument pairing _).bind (by grind) (by grind) fun next inside inside' grown insides => ?_
  obtain ⟨start', code', values, destinations, hold⟩ := insides
  refine (Calm.byteAt code').bind_eq_tally fun byte => ?_
  split
  · exact .raise _ _
  · exact .pure (.parts _ _ values destinations _)

theorem tally_applyIndex (tallies : Inner.Tallies inner) (alike : expression.Mirrors pairing expression') :
    Tally pairing (applyIndex inner expression) (applyIndex inner expression') Expression.Mirrors := by
  obtain ⟨start, code, values, destinations, hold⟩ := alike
  refine Tally.unless_missing values _ _ ?_
  refine (tallies.argument pairing _).bind (by grind) (by grind) fun next index index' grown indices => ?_
  obtain ⟨start', code', indices, -, -⟩ := indices
  refine Tally.unless_missing indices _ _ ?_
  refine (Calm.byteAt code').bind_eq_tally fun byte => ?_
  split
  · exact .raise _ _
  · cases indices with
    | missing | string _ | list _ | function _ => exact .raise _ _
    | number number =>
        have bases := values.mono grown
        refine (calm_select bases number start).bind_tally fun place place' places => ?_
        refine (Calm.track _ _).bind_tally fun _ _ _ => ?_
        refine (places.calm_read .kept start).bind_tally fun _ _ results => ?_
        exact .pure (.parts _ _ results (.some places) _)

theorem tally_readElements (tallies : Inner.Tallies inner) (start : Address) (alike : value.Mirrors pairing value')
    (steps : Nat) (address : Address) (index : Nat) :
    Tally pairing (readElements inner start value steps address index)
      (readElements inner start value' steps address index) fun _ => Eq := by
  have stays := staysSpent_readElements tallies.stays
  induction steps generalizing pairing address index with
  | zero => exact Calm.unfinished.tally
  | succ steps ih =>
      refine (Calm.byteAt address).bind_eq_tally fun byte => ?_
      split
      · exact .raise _ _
      split
      · exact .pure rfl
      refine (tallies.argument pairing _).bind (by grind) (by grind) fun next element element' grown elements => ?_
      obtain ⟨start', code', elements, -, -⟩ := elements
      refine Tally.unless_missing elements _ _ ?_
      refine (Tally.edit start (.insertElement (alike.mono grown) index elements) Eval.isOfMemory).bind (by grind)
        (by grind) fun next' _ _ grown' _ => ?_
      exact ih (alike.mono (le_trans grown grown')) code' (index + 1)

theorem tally_readListLiteral (tallies : Inner.Tallies inner) (alike : expression.Mirrors pairing expression') :
    Tally pairing (readListLiteral inner expression) (readListLiteral inner expression') Expression.Mirrors := by
  have stays := staysSpent_readElements tallies.stays
  obtain ⟨start, code, values, destinations, hold⟩ := alike
  refine (Tally.createList start).bind (by grind) (by grind) fun next cell cell' grown paired => ?_
  refine (Calm.track _ _).bind_tally fun _ _ _ => ?_
  refine (tally_readElements tallies start (.list paired) _ _ _).bind (by grind) (by grind) ?_
  rintro next' after _ grown' rfl
  have destinations := Destination.rel_mono destinations (le_trans grown grown')
  exact .pure (.parts _ _ (.list (grown' _ _ paired)) destinations _)

end Machine

end PocketScript
