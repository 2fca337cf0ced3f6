import PocketScript.Proofs.Schedule.Builtins

/-! # Evaluation of two runs

Expressions and code on two machines that are alike but for handles. Between two
statements, each machine collects when it is due there, which takes objects away
at most. So by induction on the levels of nesting, evaluation tallies.
-/

namespace PocketScript

open Eval (Calm Tally StaysSpent Lost Matched)

variable {κ : Type} [Console κ] {pairing next : Pairing} {expression expression' : Expression} {inner : Inner κ}

namespace Machine

theorem tally_readPrimary (tallies : Inner.Tallies inner) (alike : expression.Mirrors pairing expression')
    (isStatement : Bool) :
    Tally pairing (readPrimary inner expression isStatement) (readPrimary inner expression' isStatement)
      Expression.Mirrors := by
  have numbers := calm_readNumberLiteral (κ := κ) alike
  have names := calm_readVariable (κ := κ) alike
  have characters := calm_readCharacterLiteral (κ := κ) alike
  have strings := tally_readStringLiteral (κ := κ) alike
  have lists := tally_readListLiteral tallies alike
  have parentheses := tally_readParenthesis tallies alike
  have builtins := fun builtin => tally_applyBuiltin tallies builtin alike isStatement
  have operators := fun operator => tally_applyUnary tallies operator alike
  have same : expression'.start = expression.start := by
    cases alike
    rfl
  unfold readPrimary
  rw [same]
  refine (Calm.byteAt _).bind_eq_tally fun byte => ?_
  split
  · exact numbers.tally
  split
  · exact names.tally
  split
  · exact characters.tally
  split
  · exact strings
  split
  · exact lists
  split
  · exact parentheses
  split
  · exact builtins _
  · exact operators _
  · exact .raise _ _

omit [Console κ] in
theorem tally_readRest (tallies : Inner.Tallies inner) (ceiling steps : Nat)
    (alike : expression.Mirrors pairing expression') :
    Tally pairing (readRest inner ceiling steps expression) (readRest inner ceiling steps expression')
      Expression.Mirrors := by
  have rests := staysSpent_readRest tallies.stays ceiling
  induction steps generalizing pairing expression expression' with
  | zero => exact Calm.unfinished.tally
  | succ steps ih =>
      have same : expression'.code = expression.code := by
        cases alike
        rfl
      unfold readRest
      rw [same]
      refine (Calm.track _ _).bind_tally fun _ _ _ => ?_
      refine (Calm.byteAt _).bind_eq_tally fun byte => ?_
      split
      · exact (tally_applyStep _ alike).bind (rests _) (rests _) fun _ _ _ _ steps => ih steps
      split
      · exact (tally_applyIndex tallies alike).bind (rests _) (rests _) fun _ _ _ _ indices => ih indices
      split
      · exact (tally_applyCall tallies alike).bind (rests _) (rests _) fun _ _ _ _ calls => ih calls
      split
      · split
        · exact (tally_applyBinary tallies _ alike).bind (rests _) (rests _) fun _ _ _ _ operations => ih operations
        · exact .pure alike
      · exact .pure alike

theorem tally_frame (tallies : Inner.Tallies inner) (pairing : Pairing) (start : Address) (ceiling : Nat)
    (isStatement : Bool) :
    Tally pairing (frame inner start ceiling isStatement) (frame inner start ceiling isStatement)
      Expression.Mirrors := by
  have rests := staysSpent_readRest tallies.stays ceiling
  refine Tally.get_bind fun machine other mirrors => ?_
  rw [mirrors.memory.stack.action_eq]
  have starting := Expression.mirrors_starting pairing start
  split
  · exact tally_skip tallies starting
  · refine (tally_readPrimary tallies starting isStatement).bind (rests _) (rests _) fun _ _ _ _ primaries => ?_
    exact tally_readRest tallies ceiling _ primaries

/-- A machine on which a collection was made, or none. -/
def Collected (machine after : Machine κ) : Prop :=
  ∃ memory recentStatements, (memory = machine.memory ∨ memory = machine.memory.collect.2) ∧
    after = { machine with memory, recentStatements }

/-- Between two statements there may be a collection, and then the question
    whether the user wants to stop. -/
theorem betweenStatements_eq (machine : Machine κ) :
    ∃ after, machine.Collected after ∧ betweenStatements machine =
      (Eval.ask Console.escapes >>= fun escapes => if escapes then throw .quit else pure () : Eval κ Unit) after := by
  by_cases due : machine.configuration.collectAfterAllocations < machine.memory.heap.recentAllocations ∨
      machine.configuration.collectAfterStatements < machine.recentStatements + 1
  · refine ⟨{ machine with memory := machine.memory.collect.2, recentStatements := 0 }, ⟨_, _, .inr rfl, rfl⟩, ?_⟩
    refine (Eval.bind_of_ok rfl).trans ((Eval.bind_of_ok rfl).trans ?_)
    dsimp only
    rw [if_pos due]
    exact Eval.bind_of_ok rfl
  · refine ⟨{ machine with recentStatements := machine.recentStatements + 1 }, ⟨_, _, .inl rfl, rfl⟩, ?_⟩
    refine (Eval.bind_of_ok rfl).trans ((Eval.bind_of_ok rfl).trans ?_)
    dsimp only
    rw [if_neg due]

omit [Console κ] in
/-- What is paired is alike after collections, as far as it is still there. -/
theorem Mirrors.collected {machine other after after' : Machine κ} (mirrors : machine.Mirrors pairing other)
    (collected : machine.Collected after) (collected' : other.Collected after')
    (unspent : ¬ after.memory.heap.Spent) (unspent' : ¬ after'.memory.heap.Spent) : after.Mirrors pairing after' := by
  obtain ⟨memory, recent, some_memory, rfl⟩ := collected
  obtain ⟨memory', recent', some_memory', rfl⟩ := collected'
  have fades : machine.memory.Fades memory := by
    rcases some_memory with rfl | rfl
    · exact mirrors.memory.tidy.fades
    · exact mirrors.memory.tidy.fades_collect
  have fades' : other.memory.Fades memory' := by
    rcases some_memory' with rfl | rfl
    · exact mirrors.memory.tidy'.fades
    · exact mirrors.memory.tidy'.fades_collect
  exact ⟨⟨mirrors.store, mirrors.console, mirrors.draws, mirrors.fault?⟩, mirrors.maxDepth,
    mirrors.memory.fades fades fades' unspent unspent'⟩

theorem tally_betweenStatements (pairing : Pairing) :
    Tally pairing (betweenStatements : Eval κ Unit) betweenStatements fun _ _ _ => True := by
  intro machine other mirrors
  obtain ⟨after, collected, ran⟩ := betweenStatements_eq machine
  obtain ⟨after', collected', ran'⟩ := betweenStatements_eq other
  rw [ran, ran']
  have asks : StaysSpent (Eval.ask Console.escapes >>= fun escapes => if escapes then throw .quit else pure () :
    Eval κ Unit) := by grind
  by_cases spent : after.memory.heap.Spent
  · exact .inl (.inr (asks after spent))
  by_cases spent' : after'.memory.heap.Spent
  · exact .inr (.inl (.inr (asks after' spent')))
  have same : Tally pairing (Eval.ask Console.escapes >>= fun escapes => if escapes then throw .quit else pure () :
      Eval κ Unit) (Eval.ask Console.escapes >>= fun escapes => if escapes then throw .quit else pure ())
      fun _ _ _ => True := by
    refine (Calm.ask _).bind_eq_tally fun escapes => ?_
    split
    · exact Calm.quit.tally
    · exact .pure trivial
  exact same after after' (mirrors.collected collected collected' spent spent')

omit [Console κ] in
theorem Lost.orAnswer {statement : Eval κ Expression} {next : Expression → Eval κ Value} {machine : Machine κ}
    (lost : Lost (statement machine)) (stays : ∀ expression, StaysSpent (next expression)) :
    Lost (orAnswer statement next machine) := by
  unfold Machine.orAnswer
  rcases lost with ruined | spent
  · generalize statement machine = result at ruined
    cases ruined with
    | failed here ruinous => exact .inl (.failed here ruinous)
  · refine .inr ?_
    cases ran : statement machine with
    | ok expression after =>
        rw [ran] at spent
        exact stays expression after spent
    | error interrupt after =>
        rw [ran] at spent
        cases interrupt with
        | answer value | quit | unfinished => exact spent

omit [Console κ] in
/-- A statement that answers on one side answers on the other. -/
theorem tally_orAnswer {statement : Eval κ Expression} {goes : Expression → Eval κ Value}
    (tally : Tally pairing statement statement Expression.Mirrors) (stays : ∀ expression, StaysSpent (goes expression))
    (rest : ∀ next expression expression', pairing ≤ next → expression.Mirrors next expression' →
      Tally next (goes expression) (goes expression') Value.Mirrors) :
    Tally pairing (orAnswer statement goes) (orAnswer statement goes) Value.Mirrors := by
  intro machine other mirrors
  rcases tally machine other mirrors with lost | lost | matched
  · exact .inl (Lost.orAnswer lost stays)
  · exact .inr (.inl (Lost.orAnswer lost stays))
  · unfold orAnswer
    generalize statement machine = first, statement other = second at matched ⊢
    cases matched with
    | ok grown mirrors alike =>
        refine (rest _ _ _ grown alike _ _ mirrors).imp_right (Or.imp_right fun matched => ?_)
        exact matched.mono (fun _ more => le_trans grown more) fun _ _ _ _ holds => holds
    | answer grown mirrors alike => exact .inr (.inr (.ok grown mirrors alike))
    | quit alike => exact .inr (.inr (.quit alike))
    | unfinished alike => exact .inr (.inr (.unfinished alike))

theorem tally_runCode {statement : Address → Eval κ Expression} (stays : ∀ address, StaysSpent (statement address))
    (tallies : ∀ pairing address, Tally pairing (statement address) (statement address) Expression.Mirrors)
    (steps : Nat) (pairing : Pairing) (address : Address) :
    Tally pairing (runCode statement steps address) (runCode statement steps address) Value.Mirrors := by
  have runs := staysSpent_runCode stays
  induction steps generalizing pairing address with
  | zero => exact Calm.unfinished.tally
  | succ steps ih =>
      refine (Calm.byteAt address).bind_eq_tally fun byte => ?_
      split
      · exact ih pairing _
      split
      · exact .pure .missing
      refine tally_orAnswer (tallies pairing address) (fun _ => .bind staysSpent_betweenStatements fun _ => runs _ _) ?_
      rintro next _ _ grown ⟨start, code, values, destinations, hold⟩
      refine (tally_betweenStatements next).bind (fun _ => runs _ _) (fun _ => runs _ _) fun next' _ _ _ _ => ?_
      exact ih next' code

theorem tally_evaluate (steps levels : Nat) (pairing : Pairing) (start : Address) (ceiling : Nat) (isStatement : Bool) :
    Tally pairing (evaluate (κ := κ) steps levels start ceiling isStatement)
      (evaluate steps levels start ceiling isStatement) Expression.Mirrors := by
  induction levels using Nat.strongRecOn generalizing pairing start ceiling isStatement with
  | ind levels ih =>
      cases levels with
      | zero => exact .raise _ _
      | succ levels =>
          have runs : ∀ lower ≤ levels, ∀ pairing address,
              Tally pairing (runCode (κ := κ) (fun address => evaluate steps lower address Inner.statementCeiling true)
                steps address) (runCode (fun address => evaluate steps lower address Inner.statementCeiling true)
                steps address) Value.Mirrors :=
            fun lower fewer => tally_runCode (fun _ => staysSpent_evaluate steps lower _ _ _)
              (fun pairing address => ih lower (Nat.lt_succ_of_le fewer) pairing address _ _) steps
          have inside : Inner.Tallies (innerOf (κ := κ) steps levels) := by
            refine ⟨staysSpent_innerOf fun lower _ => staysSpent_evaluate steps lower, ih levels (Nat.lt_succ_self _),
              runs levels (Nat.le_refl _), fun body some_body => ?_⟩
            obtain ⟨lower, less, rfl⟩ := runCode_of_body? some_body
            exact runs lower (Nat.le_of_lt less)
          rw [evaluate_succ]
          exact (tally_frame inside pairing start ceiling isStatement).releasing

end Machine

end PocketScript
