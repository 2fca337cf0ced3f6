import PocketScript.Proofs.Machine.Builtins
import PocketScript.Proofs.Machine.Calls
import PocketScript.Proofs.Machine.Operators
import PocketScript.Proofs.Witness.Evaluations

/-! # Evaluation keeps memory sound

A collection happens between two statements only, with every open scope
registered, so it removes nothing that a variable, a registration or a list
holds. What an expression needs while another one is evaluated is registered,
and by induction on the levels of nesting that are left, all evaluation keeps
memory sound.
-/

namespace PocketScript

namespace Machine

open Eval (Keeps KeepsFrom)

variable {κ : Type} {machine : Machine κ} {inner : Inner κ} {expression : Expression}

/-- Before anything binds to it from behind, the value of an expression is
    registered. -/
theorem keeps_readRest [Heeding κ] (inside : inner.Sound) (ceiling steps : Nat) (ready : machine.Ready)
    (valid : expression.Valid machine.memory) :
    Keeps (readRest inner ceiling steps expression) machine fun result after => result.Valid after.memory := by
  induction steps generalizing machine expression with
  | zero => exact .unfinished ready.toSteady
  | succ steps ih =>
      refine (Keeps.track ready.toSteady valid.value).bind ?_
      rintro - tracked follows ⟨evolves, guards⟩
      have ready := follows.ready ready
      have valid := valid.evolves evolves
      refine .byteAt_bind ?_
      split
      · refine (keeps_applyStep _ ready.toSteady valid).bind ?_
        exact fun result after follows valid => ih (follows.ready ready) valid
      · split
        · refine (keeps_applyIndex inside ready guards).bind ?_
          exact fun result after follows valid => ih (follows.ready ready) valid
        · split
          · refine (keeps_applyCall inside ready valid).bind ?_
            exact fun result after follows valid => ih (follows.ready ready) valid
          · split
            · split
              · refine (keeps_applyBinary _ inside ready valid).bind ?_
                exact fun result after follows valid => ih (follows.ready ready) valid
              · exact .pure ready.toSteady valid
            · exact .pure ready.toSteady valid

theorem keeps_collect (ready : machine.Ready) : Keeps collect machine fun _ _ => True :=
  ⟨⟨ready.harmless, ready.sound.collect ready.tracked, rfl, fun _ there => there, .refl _⟩, trivial⟩

/-- An answer ends the code with a value that is live. -/
theorem keeps_orAnswer {statement : Eval κ Expression} {next : Expression → Eval κ Value}
    {done : Expression → Machine κ → Prop} (first : Keeps statement machine done)
    (rest : ∀ result after, machine.Follows after → done result after →
      Keeps (next result) after fun value after => after.memory.Live value) :
    Keeps (orAnswer statement next) machine fun value after => after.memory.Live value := by
  unfold Keeps KeepsFrom at first
  cases ran : statement machine with
  | ok result middle =>
      simp only [ran] at first
      have second := (rest result middle first.1 first.2).from first.1
      unfold KeepsFrom at second
      unfold Keeps KeepsFrom orAnswer
      simpa only [ran] using second
  | error interrupt middle =>
      simp only [ran] at first
      unfold Keeps KeepsFrom orAnswer
      simp only [ran]
      cases interrupt with
      | answer value | quit | unfinished => exact first

variable [Console κ]

theorem keeps_readPrimary (inside : inner.Sound) (ready : machine.Ready) (bare : expression.Bare)
    (isStatement : Bool) :
    Keeps (readPrimary inner expression isStatement) machine fun result after => result.Valid after.memory := by
  have steady := ready.toSteady
  refine .byteAt_bind ?_
  split
  · exact keeps_readNumberLiteral steady bare
  split
  · exact keeps_readVariable steady bare
  split
  · exact keeps_readCharacterLiteral steady bare
  split
  · exact keeps_readStringLiteral steady bare
  split
  · exact keeps_readListLiteral inside ready bare
  split
  · exact keeps_readParenthesis inside ready
  split
  · exact keeps_applyBuiltin _ inside ready bare isStatement
  · exact keeps_applyUnary _ inside ready bare
  · exact .raise steady _

theorem keeps_frame [Heeding κ] (inside : inner.Sound) (ready : machine.Ready) (start : Address) (ceiling : Nat)
    (isStatement : Bool) :
    Keeps (frame inner start ceiling isStatement) machine fun result after => result.Valid after.memory := by
  have bare := Expression.bare_starting start
  refine .get_bind ?_
  split
  · exact (keeps_skip inside ready bare).mono fun result after _ bare => bare.valid after.memory
  · refine (keeps_readPrimary inside ready bare isStatement).bind ?_
    exact fun result after follows valid => keeps_readRest inside _ _ (follows.ready ready) valid

theorem keeps_betweenStatements (ready : machine.Ready) :
    Keeps betweenStatements machine fun _ _ => True := by
  have stops : ∀ {machine : Machine κ}, machine.Steady →
      Keeps (do if ← Eval.ask Console.escapes then throw .quit) machine fun _ _ => True := by
    intro machine steady
    refine (keeps_ask steady _).bind ?_
    intro escapes after follows _
    split
    · exact .quit follows.steady
    · exact .pure follows.steady trivial
  refine Keeps.bind (?_ : Keeps _ machine fun _ after => after.memory = machine.memory) ?_
  · exact ⟨.ofMemory_eq ready.toSteady ready.harmless rfl, rfl⟩
  intro _ counted follows _
  refine .get_bind ?_
  split
  · refine (keeps_collect (follows.ready ready)).bind ?_
    exact fun _ after follows' _ => stops follows'.steady
  · exact stops follows.steady

theorem keeps_runCode {statement : Address → Eval κ Expression}
    (keeps : ∀ {machine : Machine κ}, machine.Ready → ∀ address,
      Keeps (statement address) machine fun result after => result.Fresh after.memory)
    (steps : Nat) (ready : machine.Ready) (address : Address) :
    Keeps (runCode statement steps address) machine fun value after => after.memory.Live value := by
  induction steps generalizing machine address with
  | zero => exact .unfinished ready.toSteady
  | succ steps ih =>
      refine .byteAt_bind ?_
      split
      · exact ih ready _
      split
      · exact .pure ready.toSteady (Memory.live_missing _)
      refine keeps_orAnswer (keeps ready address) ?_
      intro result after follows _
      have ready := follows.ready ready
      refine (keeps_betweenStatements ready).bind ?_
      exact fun _ last follows' _ => ih (follows'.ready ready) _

/-- If all that has fewer levels left is sound. -/
theorem sound_innerOf_of [Heeding κ] {steps levels : Nat}
    (keeps : ∀ lower ≤ levels, ∀ {machine : Machine κ}, machine.Ready → ∀ start ceiling isStatement,
      Keeps (evaluate steps lower start ceiling isStatement) machine fun result after => result.Fresh after.memory) :
    (innerOf (κ := κ) steps levels).Sound := by
  have runs : ∀ lower ≤ levels, ∀ {machine : Machine κ}, machine.Ready → ∀ address,
      Keeps (runCode (fun address => evaluate steps lower address Inner.statementCeiling true) steps address) machine
        fun value after => after.memory.Live value :=
    fun lower fewer _ ready address => keeps_runCode (fun ready _ => keeps lower fewer ready _ _ _) steps ready address
  refine ⟨keeps levels (Nat.le_refl _), runs levels (Nat.le_refl _), fun some_body _ ready address => ?_⟩
  obtain ⟨lower, less, rfl⟩ := runCode_of_body? some_body
  exact runs lower (Nat.le_of_lt less) ready address

theorem keeps_evaluate [Heeding κ] (steps levels : Nat) (ready : machine.Ready) (start : Address) (ceiling : Nat)
    (isStatement : Bool) :
    Keeps (evaluate steps levels start ceiling isStatement) machine
      fun result after => result.Fresh after.memory := by
  induction levels using Nat.strongRecOn generalizing machine start ceiling isStatement with
  | ind levels ih =>
      cases levels with
      | zero =>
          rw [evaluate_zero]
          exact .raise ready.toSteady _
      | succ levels =>
          have inside := sound_innerOf_of fun lower fewer => ih lower (Nat.lt_succ_of_le fewer)
          have enters := Follows.enter ready.toSteady
          rw [evaluate_deeper]
          refine KeepsFrom.nested (Keeps.from (Keeps.releasing
            (keeps_frame inside (enters.ready ready) start ceiling isStatement) ?_) enters) fun _ _ fresh => fresh
          exact fun result after steady valid roots => valid.release steady.sound roots

theorem sound_innerOf [Heeding κ] (steps levels : Nat) : (innerOf (κ := κ) steps levels).Sound :=
  sound_innerOf_of fun lower _ => keeps_evaluate steps lower

end Machine

end PocketScript
