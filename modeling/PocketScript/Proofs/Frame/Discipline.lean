import PocketScript.Proofs.Frame.Evaluations

/-! # Frame discipline

However the evaluation of an expression ends, the registered roots, the number of
scopes and the counter of nesting are what they were before, and of the scopes other
than the innermost only global variables may have other values. A call leaves all
scopes as they were, again but for the values of global variables, so it gives back
every byte that it used.
-/

namespace PocketScript

open Eval (Respects)

variable {κ : Type}

namespace Machine

/-- Every root that was registered is released. -/
theorem roots_releasing {evaluation : Eval κ Expression} (machine : Machine κ)
    (leaves : Eval.Leaves (.ofMemory machine.memory none) evaluation) :
    (Eval.last (Eval.releasing evaluation machine)).memory.roots = machine.memory.roots := by
  have kept := (leaves machine (.ofLoose _)).roots
  unfold Eval.releasing
  simp only [Bind.bind, EStateM.bind, get, getThe, MonadStateOf.get, EStateM.get, Eval.last_always]
  exact kept

variable [Console κ]

/-- What an evaluation does to the scopes and the roots that were there before it. -/
theorem framed_evaluate (steps levels : Nat) (start : Address) (ceiling : Nat) (isStatement : Bool)
    (machine : Machine κ) :
    let after := Eval.last (evaluate steps levels start ceiling isStatement machine)
    after.memory.roots = machine.memory.roots ∧ machine.memory.stack.Framed after.memory.stack := by
  intro after
  let own : MemoryFrame := .ofMemory machine.memory none
  have evaluation : Respects own (evaluate steps levels start ceiling isStatement : Eval κ Expression) (·.Within own) :=
    respects_evaluate steps levels (show own.Loose from rfl) start ceiling isStatement
  have kept := evaluation.leaves machine (.ofLoose _)
  refine ⟨?_, kept.stack⟩
  cases levels with
  | zero => rfl
  | succ levels =>
      have inside : Inner.Framed False (innerOf (κ := κ) steps levels) := framed_innerOf
        fun lower _ frame start ceiling isStatement loose =>
          respects_evaluate steps lower loose start ceiling isStatement
      have inFrame : Respects own (frame (innerOf (κ := κ) steps levels) start ceiling isStatement) (·.Within own) :=
        respects_frame inside start ceiling (.inl rfl)
      rw [show after = _ from
        congrArg Eval.last (congrFun (evaluate_succ steps levels start ceiling isStatement) machine)]
      exact roots_releasing machine inFrame.leaves

/-- A call leaves all scopes as they were but for the values of global variables. -/
theorem called_function (steps levels : Nat) (header : Address) (arguments : List Value) (start : Address)
    (machine : Machine κ) :
    machine.memory.Called (Eval.last (runBody
      (runCode (fun address => evaluate steps levels address Inner.statementCeiling true) steps)
      header arguments start machine)).memory :=
  called_runBody (fun _ address loose =>
    leaves_runCode (fun address => (respects_evaluate steps levels loose address _ true).leaves) steps address) ..

/-- Evaluate one level deeper, unless so many levels are counted that no further one
    is allowed. -/
def entering [Witness κ] {α : Type} (address : Address) (evaluation : Eval κ α) : Eval κ α := fun machine =>
  if machine.configuration.maxDepth ≤ machine.depth then Eval.raise .expressionTooComplex address machine
  else Eval.nested evaluation machine

/-- The levels that are left are those that are not counted yet. -/
theorem evaluate_eq_entering [Witness κ] (machine : Machine κ) (steps : Nat) (start : Address) (ceiling : Nat)
    (isStatement : Bool) :
    let levels := machine.configuration.maxDepth - machine.depth
    evaluate steps levels start ceiling isStatement machine =
      entering start (Eval.releasing (frame (innerOf steps (levels - 1)) start ceiling isStatement)) machine := by
  intro levels
  unfold entering
  cases left : levels with
  | zero => rw [if_pos (Nat.sub_eq_zero_iff_le.1 left), evaluate_zero]
  | succ deeper => rw [if_neg (by omega), evaluate_deeper, Nat.add_sub_cancel]

/-- A call that finds no level left is one that is refused. -/
theorem call_eq_entering [Witness κ] (machine : Machine κ) (steps : Nat) (header : Address) (arguments : List Value)
    (call : Address) :
    let levels := machine.configuration.maxDepth - machine.depth
    let body := runCode (fun address => evaluate steps (levels - 1) address Inner.statementCeiling true) steps
    ((innerOf steps levels).body?.elim (Eval.raise .expressionTooComplex call) fun body =>
      Eval.nested (runBody body header arguments call)) machine =
      entering call (runBody body header arguments call) machine := by
  intro levels body
  unfold entering body
  cases left : levels with
  | zero =>
      rw [if_pos (Nat.sub_eq_zero_iff_le.1 left)]
      rfl
  | succ deeper =>
      rw [if_neg (by omega)]
      rfl

/-- The same evaluation with and without a witness ends the same way. However it ends,
    the counter of nesting is what it was before, and what the witness kept shows no
    count beyond the limit meanwhile. -/
structure Counts {α : Type} (machine : Machine κ) (watched : EStateM.Result Interrupt (Machine (Witnessed κ)) α)
    (plain : EStateM.Result Interrupt (Machine κ) α) : Prop where
  erased : plain = Eval.unwitnessed machine.depth watched
  restored : (Eval.last plain).depth = machine.depth
  within : ∀ depth, .noted (.entered depth) ∈ (Eval.last watched).console.events →
    depth ≤ machine.configuration.maxDepth

/-- The levels that an evaluation may use are those that are not counted yet. -/
theorem counts_of_attests {α : Type} {levels : Nat} {machine : Machine κ} {watched : Eval (Witnessed κ) α}
    {plain : Eval κ α} (attests : Eval.Attests levels watched plain)
    (left : levels ≤ machine.configuration.maxDepth - machine.depth) :
    machine.Counts (watched machine.witnessed) (plain machine) := by
  obtain ⟨⟨events, account⟩, same⟩ := attests machine.witnessed
  have erased : plain machine = Eval.unwitnessed machine.depth (watched machine.witnessed) := same machine.depth
  refine ⟨erased, ?_, fun depth mem => ?_⟩
  · rw [erased]
    cases watched machine.witnessed with
    | ok | error => rfl
  · rw [account.kept] at mem
    have within : machine.depth < depth ∧ depth ≤ machine.depth + levels := account.within depth mem
    omega

theorem counts_entering {α : Type} {levels : Nat} {machine : Machine κ} {watched : Eval (Witnessed κ) α}
    {plain : Eval κ α} (attests : Eval.Attests levels watched plain)
    (left : levels = machine.configuration.maxDepth - machine.depth - 1) (address : Address) :
    machine.Counts (entering address watched machine.witnessed) (entering address plain machine) := by
  unfold entering
  by_cases full : machine.configuration.maxDepth ≤ machine.depth
  · have refused : Eval.Attests (κ := κ) (α := α) 0 (Eval.raise .expressionTooComplex address)
        (Eval.raise .expressionTooComplex address) := .raise _ _
    rw [if_pos full, if_pos (show machine.witnessed.configuration.maxDepth ≤ machine.witnessed.depth from full)]
    exact counts_of_attests refused (Nat.zero_le _)
  · have deeper : Eval.Attests (levels + 1) (Eval.nested watched) (Eval.nested plain) :=
      attests.nested (Nat.le_refl _)
    rw [if_neg full, if_neg (show ¬ machine.witnessed.configuration.maxDepth ≤ machine.witnessed.depth from full)]
    exact counts_of_attests deeper (by omega)

/-- A call that is one level deeper leaves all scopes as they were as well. -/
theorem called_entering (steps levels : Nat) (header : Address) (arguments : List Value) (call : Address)
    (machine : Machine κ) :
    machine.memory.stack.Revalued (Eval.last (entering call (runBody
      (runCode (fun address => evaluate steps levels address Inner.statementCeiling true) steps)
      header arguments call) machine)).memory.stack := by
  unfold entering
  by_cases full : machine.configuration.maxDepth ≤ machine.depth
  · rw [if_pos full]
    exact .refl _
  · rw [if_neg full]
    have called := (called_function steps levels header arguments call machine.enter).stack
    show machine.memory.stack.Revalued (Eval.last (Eval.always leave _ machine.enter)).memory.stack
    rw [Eval.last_always]
    exact called

/-- Evaluation at any depth of nesting leaves its frame alone. It is refused exactly if
    the limit is counted, and otherwise counts one level more; the counter is given back
    and never beyond the limit; roots and scopes are left alone. A call counts the same
    way, and leaves all scopes as they were. -/
theorem evaluate_keeps_frame (machine : Machine κ) (steps : Nat) (start : Address) (ceiling : Nat)
    (isStatement : Bool) :
    let levels := machine.configuration.maxDepth - machine.depth
    let result := evaluate steps levels start ceiling isStatement machine
    let after := Eval.last result
    result = entering start (Eval.releasing (frame (innerOf steps (levels - 1)) start ceiling isStatement)) machine ∧
      machine.Counts (evaluate steps levels start ceiling isStatement machine.witnessed) result ∧
      after.memory.roots = machine.memory.roots ∧
      machine.memory.stack.Framed after.memory.stack ∧
      ∀ header arguments call,
        let body {κ : Type} [Console κ] [Witness κ] : Address → Eval κ Value :=
          runCode (fun address => evaluate steps (levels - 1) address Inner.statementCeiling true) steps
        let result := entering call (runBody body header arguments call) machine
        let returned := Eval.last result
        ((innerOf steps levels).body?.elim (Eval.raise .expressionTooComplex call) fun body =>
            Eval.nested (runBody body header arguments call)) machine = result ∧
          machine.Counts (entering call (runBody body header arguments call) machine.witnessed) result ∧
          machine.memory.stack.Revalued returned.memory.stack ∧
          returned.memory.stack.boundary = machine.memory.stack.boundary := by
  intro levels result after
  obtain ⟨roots, stack⟩ := framed_evaluate steps levels start ceiling isStatement machine
  refine ⟨evaluate_eq_entering machine steps start ceiling isStatement,
    counts_of_attests (attests_evaluate steps levels start ceiling isStatement) (Nat.le_refl _), roots, stack, ?_⟩
  intro header arguments call body result returned
  have called := called_entering steps (levels - 1) header arguments call machine
  refine ⟨call_eq_entering machine steps header arguments call, ?_, called, called.boundary⟩
  exact counts_entering (attests_runBody (attests_runCode (fun _ => attests_evaluate _ _ _ _ _) _) _ _ _) rfl _

end Machine

end PocketScript
