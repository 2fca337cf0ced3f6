import Mathlib.Tactic.Ring
import PocketScript.Proofs.Machine.Evaluations
import PocketScript.Proofs.Metering.Statements

/-! # Evaluation is measured

By induction on the levels of nesting that are left: an expression has at most as many
parts as its code has bytes, and each of them evaluates one level further in a bounded
number of times. Code runs through at most as many statements as the store has bytes as
long as no loop is open, because each of them goes forward.
-/

namespace PocketScript

variable {κ : Type} {cost : Nat} {metered : Inner (Metered κ)} {inner : Inner κ} {machine : Machine (Metered κ)}
  {expression : Expression}

namespace Machine

open Eval (Measured Passes Calmly Gives)

theorem measured_readPrimary [Console κ] (measured : Inner.Measured cost metered inner) (settled : machine.Settled)
    (start : Address) (isStatement : Bool) :
    Measured (2 * Store.capacity * cost) (readPrimary metered (.starting start) isStatement)
      (readPrimary inner (.starting start) isStatement) machine
      fun result after => Opening result after ∧ start < result.code := by
  have one : cost ≤ 2 * Store.capacity * cost := Nat.le_mul_of_pos_left _ (by decide)
  have elements : (Store.capacity + 1) * cost ≤ 2 * Store.capacity * cost := Nat.mul_le_mul_right _ (by decide)
  have calm {count : Nat} {evaluation' : Eval (Metered κ) Expression} {evaluation : Eval κ Expression}
      (measured : Measured count evaluation' evaluation machine (Calmly fun result => start < result.code))
      (fewer : count ≤ 2 * Store.capacity * cost) :
      Measured (2 * Store.capacity * cost) evaluation' evaluation machine
        fun result after => Opening result after ∧ start < result.code :=
    measured.mono (fun _ => fewer) fun _ _ _ calm => ⟨.inl calm.1, calm.2⟩
  unfold readPrimary
  refine .byteAt_bind ?_
  split
  · exact calm (.passing_gives (passes_readNumberLiteral _) settled gives_readNumberLiteral_lt) (Nat.zero_le _)
  split
  · exact calm (.passing_gives (passes_readVariable _) settled gives_readVariable_lt) (Nat.zero_le _)
  split
  · exact calm (.passing_gives (passes_readCharacterLiteral _) settled gives_readCharacterLiteral_lt) (Nat.zero_le _)
  split
  · exact calm (.passing_gives (passes_readStringLiteral _) settled gives_readStringLiteral_lt) (Nat.zero_le _)
  split
  · exact calm (measured_readListLiteral measured settled) elements
  split
  · exact calm (measured_readParenthesis measured settled) one
  cases Symbol.builtin? (machine.store.byte (Expression.starting start).start) with
  | some builtin => exact measured_applyBuiltin measured builtin isStatement settled rfl
  | none =>
      cases UnaryOperator.ofByte? (machine.store.byte (Expression.starting start).start) with
      | some operator => exact calm (measured_applyUnary measured operator settled) one
      | none => exact (Measured.raise _ _).free

/-- What binds to an expression from behind asks for a value, except a binary operator. -/
theorem measured_part {count : Nat} {evaluation' : Eval (Metered κ) Expression} {evaluation : Eval κ Expression}
    (opening : machine.console.looped = false → Opening expression machine)
    (refuses : expression.value = .missing → Measured 0 evaluation' evaluation machine fun _ _ => False)
    (measured : machine.Settled → Measured count evaluation' evaluation machine
      (Calmly fun result => expression.code < result.code)) :
    Measured count evaluation' evaluation machine (Calmly fun result => expression.code < result.code) := by
  by_cases missing : expression.value = .missing
  · exact (refuses missing).mono (fun _ => Nat.zero_le _) fun _ _ _ no => no.elim
  · exact measured fun none => (opening none).resolve_right fun opened => missing opened.2

theorem measured_applyStep (direction : Step)
    (opening : machine.console.looped = false → Opening expression machine) :
    Measured 0 (applyStep direction expression) (applyStep direction expression) machine
      (Calmly fun result => expression.code < result.code) := by
  refine measured_part opening (fun missing => ?_) fun settled => ?_
  · unfold applyStep
    rw [missing]
    exact .raise _ _
  · refine (Measured.passing_gives (passes_applyStep _ _) settled (gives_applyStep_code _)).imp ?_
    intro _ result _ calm
    exact ⟨calm.1, Nat.lt_of_succ_le (Nat.le_of_eq calm.2.symm)⟩

theorem measured_index (measured : Inner.Measured cost metered inner)
    (opening : machine.console.looped = false → Opening expression machine) :
    Measured cost (applyIndex metered expression) (applyIndex inner expression) machine
      (Calmly fun result => expression.code < result.code) := by
  refine measured_part opening (fun missing => ?_) fun settled => measured_applyIndex measured settled
  unfold applyIndex
  rw [missing]
  exact .raise _ _

theorem measured_call (measured : Inner.Measured cost metered inner)
    (opening : machine.console.looped = false → Opening expression machine) :
    Measured (2 * Store.capacity * cost) (applyCall metered expression) (applyCall inner expression) machine
      (Calmly fun result => expression.code < result.code) := by
  refine measured_part opening (fun missing => ?_) fun settled => measured_applyCall measured settled
  unfold applyCall
  rw [missing]
  exact .raise _ _

theorem zero_no_operator : Step.ofByte? 0 = none ∧ BinaryOperator.ofByte? 0 = none :=
  ⟨rfl, rfl⟩

/-- An operand that begins after a loop was opened notices it. Nothing else is done to an
    expression without a value, and no loop is open otherwise. -/
theorem measured_readRest (measured : Inner.Measured cost metered inner) (ceiling steps : Nat)
    (opening : machine.console.looped = false → Opening expression machine)
    (enough : machine.console.looped = false → Store.capacity - expression.code < steps) :
    Measured (steps * (2 * Store.capacity * cost)) (readRest metered ceiling steps expression)
      (readRest inner ceiling steps expression) machine
      fun result after => after.Noticeable ∧ expression.code ≤ result.code := by
  induction steps generalizing machine expression with
  | zero =>
      refine (Measured.unfinished (Bool.eq_true_of_not_eq_false fun none => ?_)).free
      exact Nat.not_lt_zero _ (enough none)
  | succ steps ih =>
      unfold readRest
      refine .seq (measured_track _) fun _ tracked kept => .byteAt_bind ?_
      have opening (none : tracked.console.looped = false) : Opening expression tracked := by
        rw [Opening, Memory.Loopless, (kept none).2]
        exact opening (kept none).1
      have enough (none : tracked.console.looped = false) := enough (kept none).1
      have one : cost ≤ 2 * Store.capacity * cost := Nat.le_mul_of_pos_left _ (by decide)
      have stops : Measured ((steps + 1) * (2 * Store.capacity * cost)) (pure expression) (pure expression) tracked
          fun result after => after.Noticeable ∧ expression.code ≤ result.code :=
        (Measured.pure fun none => ⟨(opening none).noticeable, Nat.le_refl _⟩).free
      have goesOn {count : Nat} {evaluation' : Eval (Metered κ) Expression} {evaluation : Eval κ Expression}
          (some_byte : tracked.store.byte expression.code ≠ 0) (fewer : count ≤ 2 * Store.capacity * cost)
          (part : Measured count evaluation' evaluation tracked
            (Calmly fun result => expression.code < result.code)) :
          Measured ((steps + 1) * (2 * Store.capacity * cost))
            (do readRest metered ceiling steps (← evaluation')) (do readRest inner ceiling steps (← evaluation)) tracked
            fun result after => after.Noticeable ∧ expression.code ≤ result.code := by
        rw [Nat.succ_mul, Nat.add_comm]
        refine (part.le fewer).bind fun result after read => ?_
        refine (ih (fun none => .inl (read none).2.1) fun none => ?_).imp fun none last _ done => ?_
        · obtain ⟨before, -, behind⟩ := read none
          exact Store.enough_behind behind (Store.lt_capacity some_byte) (enough before)
        · exact ⟨done.1, Nat.le_trans (Nat.le_of_lt (read none).2.2) done.2⟩
      cases stepped : Step.ofByte? (tracked.store.byte expression.code) with
      | some direction =>
          refine goesOn (fun zero => ?_) (Nat.zero_le _) (measured_applyStep direction opening)
          rw [zero, zero_no_operator.1] at stepped
          cases stepped
      | none =>
          dsimp only
          split
          · next bracket =>
            exact goesOn (by rw [bracket]; decide) one (measured_index measured opening)
          split
          · next colon =>
            refine goesOn ?_ (Nat.le_refl _) (measured_call measured opening)
            rcases colon with colon | colon
            · rw [colon]
              decide
            · rw [colon]
              decide
          cases known : BinaryOperator.ofByte? (tracked.store.byte expression.code) with
          | some operator =>
              dsimp only
              split
              · refine goesOn (fun zero => ?_) one (measured_applyBinary measured operator fun none =>
                  (opening none).noticeable)
                rw [zero, zero_no_operator.2] at known
                cases known
              · exact stops
          | none => exact stops

theorem measured_frame [Console κ] (measured : Inner.Measured cost metered inner) (settled : machine.Settled)
    (start : Address) (ceiling : Nat) (isStatement : Bool) :
    Measured ((Store.capacity + 2) * (2 * Store.capacity * cost)) (frame metered start ceiling isStatement)
      (frame inner start ceiling isStatement) machine
      fun result after => after.Noticeable ∧ result.Advances machine.store start := by
  unfold frame
  refine .get_bind ?_
  rw [memory_bare]
  split
  · have one : cost ≤ 2 * Store.capacity * cost := Nat.le_mul_of_pos_left _ (by decide)
    exact (measured_skip measured settled start).mono (fun _ => Nat.le_trans one (Nat.le_mul_of_pos_left _ (by decide)))
      fun _ _ _ calm => ⟨.inl calm.1, calm.2⟩
  · rw [Nat.succ_mul, Nat.add_comm]
    refine (measured_readPrimary measured settled start isStatement).bind fun primary after read => ?_
    refine (measured_readRest measured ceiling _ (fun none => (read none).2.1) fun _ => ?_).imp ?_
    · exact Nat.lt_succ_of_le (Nat.sub_le _ _)
    · intro none result _ done
      have behind := Nat.lt_of_lt_of_le (read none).2.2 done.2
      exact ⟨done.1, Nat.le_of_lt behind, fun _ => behind⟩

/-- When something begins, a loop that is the innermost block is noticed before. -/
theorem settled_begin (watched : machine.Watched) : machine.notice.count.Settled := by
  intro none
  have unlooped : machine.console.looped = false ∧ machine.memory.stack.action ≠ .loop := by
    simpa [count, Metered.count, notice, Metered.notice, apply_ite Metered.looped] using none
  exact (watched unlooped.1).resolve_right unlooped.2

theorem bare_begin (machine : Machine (Metered κ)) : machine.notice.count.bare = machine.bare := by
  unfold count Metered.count
  split
  · rfl
  · rfl

theorem spends_begin (machine : Machine (Metered κ)) : machine.Spends 1 machine.notice.count := by
  unfold count Metered.count
  split
  · next looped => exact ⟨Nat.le_succ _, fun _ => ⟨looped, rfl⟩⟩
  · next none =>
    refine ⟨Nat.le_refl _, fun looped => absurd ?_ none⟩
    exact (Bool.or_eq_true _ _).mpr (.inl looped)

/-- When something ends, a loop that it opened is noticed. -/
theorem measured_noticing {α : Type} {count : Nat} {evaluation' : Eval (Metered κ) α} {evaluation : Eval κ α}
    {holds : α → Prop} (measured : Measured count evaluation' evaluation machine fun result after =>
      after.Noticeable ∧ holds result) :
    Measured count (do let result ← evaluation'; modify notice; return result) evaluation machine (Calmly holds) := by
  have ends (after : Machine (Metered κ)) : after.Spends 0 after.notice :=
    ⟨Nat.le_refl _, fun looped => ⟨(Bool.or_eq_true _ _).mpr (.inl looped), rfl⟩⟩
  unfold Measured at measured ⊢
  simp only [Bind.bind, EStateM.bind]
  cases ran : evaluation' machine with
  | ok result after =>
      simp only [ran] at measured
      obtain ⟨same, spends, holds⟩ := measured
      refine ⟨same, spends.trans (ends after), fun none => ?_⟩
      have unlooped : after.console.looped = false ∧ after.memory.stack.action ≠ .loop := by
        simpa [notice, Metered.notice] using none
      obtain ⟨noticeable, holds⟩ := holds unlooped.1
      exact ⟨noticeable.resolve_right unlooped.2, holds⟩
  | error interrupt after =>
      simp only [ran] at measured
      cases interrupt with
      | answer value | quit | unfinished => exact measured

/-- What begins is counted, and a loop that it opened is noticed at its end. -/
theorem measured_metering {α : Type} {count : Nat} {evaluation' : Eval (Metered κ) α} {evaluation : Eval κ α}
    {holds : α → Prop} (watched : machine.Watched)
    (measured : ∀ {begun : Machine (Metered κ)}, begun.Settled → begun.store = machine.store →
      Measured count evaluation' evaluation begun fun result after => after.Noticeable ∧ holds result) :
    Measured (count + 1) (Eval.metering evaluation') evaluation machine (Calmly holds) := by
  have same : evaluation machine.bare = evaluation machine.notice.count.bare := by rw [bare_begin]
  have noticed := measured_noticing (measured (settled_begin watched) rfl)
  have begun := Measured.since (spends_begin machine) noticed
  rw [Nat.add_comm]
  refine .congr ?_ ?_ begun
  · rfl
  · exact same

theorem passes_betweenStatements [Console κ] :
    Passes (betweenStatements : Eval (Metered κ) Unit) (betweenStatements : Eval κ Unit) := by
  have counts : Passes (modify fun machine : Machine (Metered κ) =>
        { machine with recentStatements := machine.recentStatements + 1 })
      (modify fun machine : Machine κ => { machine with recentStatements := machine.recentStatements + 1 }) :=
    .modify (fun _ => rfl) fun _ loopless => loopless
  have collects : Passes (collect : Eval (Metered κ) Unit) (collect : Eval κ Unit) :=
    .modify (fun _ => rfl) fun machine loopless => loopless
  unfold betweenStatements
  refine .bind counts fun _ => .get_bind fun machine => ?_
  rw [memory_bare, configuration_bare, recentStatements_bare]
  grind

/-- An answer ends the code, and otherwise it goes on. -/
theorem measured_orAnswer {count count' : Nat} {statement' : Eval (Metered κ) Expression}
    {statement : Eval κ Expression} {next' : Expression → Eval (Metered κ) Value} {next : Expression → Eval κ Value}
    {done : Expression → Machine (Metered κ) → Prop} (first : Measured count statement' statement machine done)
    (rest : ∀ expression after,
      (after.console.looped = false → machine.console.looped = false ∧ done expression after) →
      Measured count' (next' expression) (next expression) after fun _ last => last.memory.Loopless) :
    Measured (count + count') (orAnswer statement' next') (orAnswer statement next) machine
      fun _ last => last.memory.Loopless := by
  unfold Measured at first
  cases ran : statement' machine with
  | ok expression middle =>
      simp only [ran] at first
      obtain ⟨same, spends, holds⟩ := first
      refine .congr ?_ ?_ (.since spends (rest expression middle fun none => ⟨spends.unlooped none, holds none⟩))
      · simp only [orAnswer, ran]
      · simp only [orAnswer, same]
  | error interrupt after =>
      simp only [ran] at first
      have more (spends : machine.Spends count after) : machine.Spends (count + count') after :=
        spends.mono fun _ => Nat.le_add_right _ _
      unfold Measured
      simp only [orAnswer, ran]
      cases interrupt with
      | answer value =>
          simp only [first.1]
          exact ⟨trivial, more first.2.1, first.2.2⟩
      | quit =>
          simp only [first.1]
          exact ⟨trivial, more first.2⟩
      | unfinished =>
          simp only [first.1]
          exact ⟨trivial, more first.2.1, first.2.2⟩

/-- Without a loop each statement goes forward. -/
theorem measured_runCode [Console κ] {statement' : Address → Eval (Metered κ) Expression}
    {statement : Address → Eval κ Expression}
    (measured : ∀ {machine : Machine (Metered κ)}, machine.Settled → ∀ address,
      Measured cost (statement' address) (statement address) machine (Calmly (·.Advances machine.store address)))
    (steps : Nat) (address : Address) (settled : machine.Settled)
    (enough : machine.console.looped = false → Store.capacity - address < steps) :
    Measured ((Store.capacity - address) * cost) (runCode statement' steps address) (runCode statement steps address)
      machine fun _ after => after.memory.Loopless := by
  induction steps generalizing machine address with
  | zero =>
      refine (Measured.unfinished (Bool.eq_true_of_not_eq_false fun none => ?_)).free
      exact Nat.not_lt_zero _ (enough none)
  | succ steps ih =>
      unfold runCode
      refine .byteAt_bind ?_
      split
      · next feed =>
        have below : address < Store.capacity := Store.lt_capacity (by rw [feed]; decide)
        refine (ih (address + 1) settled fun none => ?_).le (Nat.mul_le_mul_right _ (Nat.sub_le_sub_left ?_ _))
        · exact Store.enough_behind (Nat.lt_succ_self _) below (enough none)
        · exact Nat.le_succ _
      split
      · exact (Measured.pure fun none => settled none).free
      next feed some_byte =>
      have below := Store.lt_capacity some_byte
      have left : Store.capacity - address = Store.capacity - (address + 1) + 1 := by omega
      have inside : Store.endsLine (machine.store.byte address) = false := by
        simp [Store.endsLine, feed, some_byte]
      rw [left, Nat.succ_mul, Nat.add_comm]
      refine measured_orAnswer (measured settled address) fun expression after read => ?_
      refine .seq (.passing passes_betweenStatements fun none => (read none).2.1) fun _ between kept => ?_
      refine (ih expression.code (fun none => (kept none).2) fun none => ?_).mono (fun none => ?_) fun _ _ _ => id
      · obtain ⟨before, -, advances⟩ := read (kept none).1
        exact Store.enough_behind (advances.lt inside) below (enough before)
      · obtain ⟨before, -, advances⟩ := read (kept none).1
        exact Nat.mul_le_mul_right _ (Nat.sub_le_sub_left (advances.lt inside) _)

/-- How many expressions and statements an expression begins at most, itself included,
    if that many levels are left. -/
def expressionBound (levels : Nat) : Nat :=
  (2 * (Store.capacity + 1) ^ 2) ^ levels

theorem expressionBound_pos (levels : Nat) : 0 < expressionBound levels :=
  Nat.pow_pos (by decide)

theorem expressionBound_mono {lower levels : Nat} (fewer : lower ≤ levels) :
    expressionBound lower ≤ expressionBound levels :=
  Nat.pow_le_pow_right (by decide) fewer

/-- One level takes as many steps as its parts, and one for itself. -/
theorem frame_le_expressionBound (levels : Nat) :
    (Store.capacity + 2) * (2 * Store.capacity * expressionBound levels) + 1 ≤ expressionBound (levels + 1) := by
  have some_step := expressionBound_pos levels
  calc (Store.capacity + 2) * (2 * Store.capacity * expressionBound levels) + 1
      ≤ (Store.capacity + 2) * (2 * Store.capacity * expressionBound levels) + 2 * expressionBound levels := by omega
    _ = expressionBound levels * (2 * (Store.capacity + 1) ^ 2) := by ring
    _ = expressionBound (levels + 1) := (Nat.pow_succ ..).symm

variable [Console κ]

/-- What an expression with a meter can evaluate that leaves `levels` levels. -/
def innerMetered (steps levels : Nat) : Inner (Metered κ) :=
  { expression := evaluateMetered steps levels
    code := runCode (fun address => evaluateMetered steps levels address Inner.statementCeiling true) steps
    body? :=
      match levels with
      | 0 => none
      | deeper + 1 => some
        (runCode (fun address => evaluateMetered steps deeper address Inner.statementCeiling true) steps) }

theorem evaluateMetered_succ (steps levels : Nat) (start : Address) (ceiling : Nat) (isStatement : Bool) :
    evaluateMetered (κ := κ) steps (levels + 1) start ceiling isStatement =
      Eval.metering (Eval.nested (Eval.releasing (frame (innerMetered steps levels) start ceiling isStatement))) := by
  cases levels with
  | zero => rfl
  | succ deeper => rfl

/-- If all that has fewer levels left is measured. -/
theorem measured_innerMetered {steps levels : Nat} (enough : Store.capacity < steps)
    (measured : ∀ lower ≤ levels, ∀ {machine : Machine (Metered κ)}, machine.Watched → ∀ start ceiling isStatement,
      Measured (expressionBound lower) (evaluateMetered steps lower start ceiling isStatement)
        (evaluate steps lower start ceiling isStatement) machine (Calmly (·.Advances machine.store start))) :
    Inner.Measured (expressionBound levels) (innerMetered (κ := κ) steps levels) (innerOf steps levels) := by
  have runs : ∀ lower ≤ levels, ∀ {machine : Machine (Metered κ)}, machine.Settled → ∀ address,
      Measured (Store.capacity * expressionBound levels)
        (runCode (fun address => evaluateMetered steps lower address Inner.statementCeiling true) steps address)
        (runCode (fun address => evaluate steps lower address Inner.statementCeiling true) steps address) machine
        fun _ after => after.memory.Loopless := by
    intro lower fewer machine settled address
    have room : Store.capacity - address ≤ Store.capacity := Nat.sub_le _ _
    refine (measured_runCode (fun settled address => measured lower fewer settled.watched _ _ _) steps address settled
      fun _ => Nat.lt_of_le_of_lt room enough).le ?_
    exact Nat.mul_le_mul room (expressionBound_mono fewer)
  refine ⟨measured levels (Nat.le_refl _), runs levels (Nat.le_refl _), fun no_body => ?_, fun body' some_body => ?_⟩
  · cases levels with
    | zero => rfl
    | succ deeper => simp [innerMetered] at no_body
  · cases levels with
    | zero => simp [innerMetered] at some_body
    | succ deeper =>
        obtain rfl := Option.some.inj some_body
        exact ⟨_, rfl, runs deeper (Nat.le_succ _)⟩

/-- An expression is measured, whatever it starts from. -/
theorem measured_evaluate {steps : Nat} (enough : Store.capacity < steps) (levels : Nat) (watched : machine.Watched)
    (start : Address) (ceiling : Nat) (isStatement : Bool) :
    Measured (expressionBound levels) (evaluateMetered steps levels start ceiling isStatement)
      (evaluate steps levels start ceiling isStatement) machine (Calmly (·.Advances machine.store start)) := by
  induction levels using Nat.strongRecOn generalizing machine start ceiling isStatement with
  | ind levels ih =>
      cases levels with
      | zero =>
          rw [evaluate_zero]
          exact measured_metering watched fun _ _ => .raise _ _
      | succ levels =>
          have inside := measured_innerMetered enough fun lower fewer _ watched =>
            ih lower (Nat.lt_succ_of_le fewer) watched
          rw [evaluate_deeper, evaluateMetered_succ]
          refine (measured_metering watched fun {begun} settled same => ?_).le (frame_le_expressionBound levels)
          have deeper : begun.enter.Settled := settled
          refine .nested (.releasing ?_ fun _ _ done => done) fun _ _ done => done
          exact same ▸ measured_frame inside deeper start ceiling isStatement

end Machine

end PocketScript
