import PocketScript.Proofs.Machine.Giving
import PocketScript.Proofs.Metering.Passing

/-! # Evaluation that is measured

With a meter an evaluation does the same as without one, and the meter shows at most a
given count more afterwards. After a loop was opened the meter stands still, and nothing
else is said; before that, evaluation does not run out of statements.
-/

namespace PocketScript

variable {κ α β : Type}

namespace Machine

/-- Between two machines the meter went on by at most a count, and stood still if a loop
    was open already. -/
structure Spends (count : Nat) (machine after : Machine (Metered κ)) : Prop where
  begun : after.console.begun ≤ machine.console.begun + count
  looped : machine.console.looped = true →
    after.console.looped = true ∧ after.console.begun = machine.console.begun

namespace Spends

variable {machine middle after : Machine (Metered κ)} {count count' : Nat}

theorem of_same (same : after.console.begun = machine.console.begun ∧ after.console.looped = machine.console.looped) :
    Spends 0 machine after :=
  ⟨Nat.le_of_eq same.1, fun looped => ⟨same.2.trans looped, same.1⟩⟩

theorem unlooped (spends : Spends count machine after) (none : after.console.looped = false) :
    machine.console.looped = false :=
  Bool.eq_false_of_not_eq_true fun looped => absurd (spends.looped looped).1 (none ▸ Bool.false_ne_true)

theorem trans (first : Spends count machine middle) (second : Spends count' middle after) :
    Spends (count + count') machine after := by
  constructor
  · have one := first.begun
    have two := second.begun
    omega
  · intro looped
    obtain ⟨still, same⟩ := first.looped looped
    obtain ⟨last, same'⟩ := second.looped still
    exact ⟨last, same'.trans same⟩

theorem mono (spends : Spends count machine after) (more : machine.console.looped = false → count ≤ count') :
    Spends count' machine after := by
  refine ⟨?_, spends.looped⟩
  cases here : machine.console.looped with
  | false => exact Nat.le_trans spends.begun (Nat.add_le_add_left (more here) _)
  | true => exact Nat.le_trans (Nat.le_of_eq (spends.looped here).2) (Nat.le_add_right _ _)

end Spends

/-- There is no loop that was not noticed. -/
def Settled (machine : Machine (Metered κ)) : Prop :=
  machine.console.looped = false → machine.memory.Loopless

/-- No loop is open, or the innermost block is one and can be noticed. -/
def Noticeable (machine : Machine (Metered κ)) : Prop :=
  machine.memory.Loopless ∨ machine.memory.stack.action = .loop

/-- There is no loop that was not noticed and will not be noticed next. -/
def Watched (machine : Machine (Metered κ)) : Prop :=
  machine.console.looped = false → machine.Noticeable

theorem Settled.watched {machine : Machine (Metered κ)} (settled : machine.Settled) : machine.Watched :=
  fun none => .inl (settled none)

end Machine

namespace Eval

/-- With a meter an evaluation does the same, and begins at most `count` expressions and
    statements. Unless a loop was opened, `done` holds of the result, or no loop is open
    when code ends with an answer. -/
def Measured (count : Nat) (metered : Eval (Metered κ) α) (evaluation : Eval κ α) (machine : Machine (Metered κ))
    (done : α → Machine (Metered κ) → Prop) : Prop :=
  match metered machine with
  | .ok result after => evaluation machine.bare = .ok result after.bare ∧ machine.Spends count after ∧
      (after.console.looped = false → done result after)
  | .error (.answer value) after => evaluation machine.bare = .error (.answer value) after.bare ∧
      machine.Spends count after ∧ after.Settled
  | .error .quit after => evaluation machine.bare = .error .quit after.bare ∧ machine.Spends count after
  | .error .unfinished after => evaluation machine.bare = .error .unfinished after.bare ∧
      machine.Spends count after ∧ after.console.looped = true

/-- No loop is open, and something holds of a result. -/
def Calmly (holds : α → Prop) (result : α) (after : Machine (Metered κ)) : Prop :=
  after.memory.Loopless ∧ holds result

namespace Measured

variable {count count' : Nat} {metered : Eval (Metered κ) α} {evaluation : Eval κ α}
  {metered' : α → Eval (Metered κ) β} {next : α → Eval κ β} {machine : Machine (Metered κ)}
  {done : α → Machine (Metered κ) → Prop} {done' : β → Machine (Metered κ) → Prop}

theorem mono (measured : Measured count metered evaluation machine done)
    (more : machine.console.looped = false → count ≤ count') {done' : α → Machine (Metered κ) → Prop}
    (further : machine.console.looped = false → ∀ result after, done result after → done' result after) :
    Measured count' metered evaluation machine done' := by
  unfold Measured at measured ⊢
  cases ran : metered machine with
  | ok result after =>
      simp only [ran] at measured
      obtain ⟨same, spends, holds⟩ := measured
      exact ⟨same, spends.mono more, fun none => further (spends.unlooped none) result after (holds none)⟩
  | error interrupt after =>
      simp only [ran] at measured
      cases interrupt with
      | answer value => exact ⟨measured.1, measured.2.1.mono more, measured.2.2⟩
      | quit => exact ⟨measured.1, measured.2.mono more⟩
      | unfinished => exact ⟨measured.1, measured.2.1.mono more, measured.2.2⟩

theorem le (measured : Measured count metered evaluation machine done) (more : count ≤ count') :
    Measured count' metered evaluation machine done :=
  measured.mono (fun _ => more) fun _ _ _ holds => holds

theorem imp {done' : α → Machine (Metered κ) → Prop} (measured : Measured count metered evaluation machine done)
    (further : machine.console.looped = false → ∀ result after, done result after → done' result after) :
    Measured count metered evaluation machine done' :=
  measured.mono (fun _ => Nat.le_refl _) further

theorem congr {other' : Eval (Metered κ) α} {other : Eval κ α} (same' : metered machine = other' machine)
    (same : evaluation machine.bare = other machine.bare) (measured : Measured count other' other machine done) :
    Measured count metered evaluation machine done := by
  unfold Measured at measured ⊢
  rw [same', same]
  exact measured

/-- What is measured from another machine on. -/
theorem since {middle : Machine (Metered κ)} (spends : machine.Spends count middle)
    (measured : Measured count' metered evaluation middle done) :
    Measured (count + count') (fun _ => metered middle) (fun _ => evaluation middle.bare) machine done := by
  unfold Measured at measured ⊢
  cases ran : metered middle with
  | ok result after =>
      simp only [ran] at measured
      exact ⟨measured.1, spends.trans measured.2.1, measured.2.2⟩
  | error interrupt after =>
      simp only [ran] at measured
      cases interrupt with
      | answer value => exact ⟨measured.1, spends.trans measured.2.1, measured.2.2⟩
      | quit => exact ⟨measured.1, spends.trans measured.2⟩
      | unfinished => exact ⟨measured.1, spends.trans measured.2.1, measured.2.2⟩

theorem bind (first : Measured count metered evaluation machine done)
    (rest : ∀ result after, (after.console.looped = false → machine.console.looped = false ∧ done result after) →
      Measured count' (metered' result) (next result) after done') :
    Measured (count + count') (metered >>= metered') (evaluation >>= next) machine done' := by
  unfold Measured at first
  cases ran : metered machine with
  | ok result middle =>
      simp only [ran] at first
      obtain ⟨same, spends, holds⟩ := first
      refine .congr ?_ ?_ (.since spends (rest result middle fun none => ⟨spends.unlooped none, holds none⟩))
      · simp only [Bind.bind, EStateM.bind, ran]
      · simp only [Bind.bind, EStateM.bind, same]
  | error interrupt after =>
      simp only [ran] at first
      have more (spends : machine.Spends count after) : machine.Spends (count + count') after :=
        spends.mono fun _ => Nat.le_add_right _ _
      unfold Measured
      simp only [Bind.bind, EStateM.bind, ran]
      cases interrupt with
      | answer value =>
          simp only [first.1]
          exact ⟨trivial, more first.2.1, first.2.2⟩
      | quit =>
          simp only [first.1]
          exact ⟨trivial, more first.2⟩
      | unfinished =>
          simp only [first.1]
          exact ⟨trivial, more first.2.1, first.2.2⟩

/-- What follows something that is not counted. -/
theorem seq (first : Measured 0 metered evaluation machine done)
    (rest : ∀ result after, (after.console.looped = false → machine.console.looped = false ∧ done result after) →
      Measured count (metered' result) (next result) after done') :
    Measured count (metered >>= metered') (evaluation >>= next) machine done' :=
  (first.bind rest).le (Nat.le_of_eq (Nat.zero_add _))

/-- What nothing is counted of any more follows. -/
theorem bind_free (first : Measured count metered evaluation machine done)
    (rest : ∀ result after, (after.console.looped = false → machine.console.looped = false ∧ done result after) →
      Measured 0 (metered' result) (next result) after done') :
    Measured count (metered >>= metered') (evaluation >>= next) machine done' :=
  first.bind rest

theorem pure {result : α} (holds : machine.console.looped = false → done result machine) :
    Measured 0 (Pure.pure result) (Pure.pure result) machine done :=
  ⟨rfl, .of_same ⟨rfl, rfl⟩, holds⟩

theorem raise (kind : FaultKind) (address : Address) :
    Measured 0 (raise kind address) (raise kind address) machine done :=
  ⟨rfl, .of_same ⟨rfl, rfl⟩⟩

theorem quit : Measured 0 (throw .quit) (throw .quit) machine done :=
  ⟨rfl, .of_same ⟨rfl, rfl⟩⟩

theorem answer {value : Value} (settled : machine.Settled) :
    Measured 0 (throw (.answer value)) (throw (.answer value)) machine done :=
  ⟨rfl, .of_same ⟨rfl, rfl⟩, settled⟩

theorem unfinished (looped : machine.console.looped = true) :
    Measured 0 (throw .unfinished) (throw .unfinished) machine done :=
  ⟨rfl, .of_same ⟨rfl, rfl⟩, looped⟩

theorem get_bind {metered' : Machine (Metered κ) → Eval (Metered κ) β} {next : Machine κ → Eval κ β}
    (rest : Measured count (metered' machine) (next machine.bare) machine done') :
    Measured count (get >>= metered') (get >>= next) machine done' :=
  rest

theorem byteAt_bind {address : Address} {metered' : UInt8 → Eval (Metered κ) β} {next : UInt8 → Eval κ β}
    (rest : Measured count (metered' (machine.store.byte address)) (next (machine.store.byte address)) machine done') :
    Measured count (byteAt address >>= metered') (byteAt address >>= next) machine done' :=
  rest

theorem free (measured : Measured 0 metered evaluation machine done) :
    Measured count metered evaluation machine done :=
  measured.le (Nat.zero_le _)

/-- What passes the meter. -/
theorem passing (passes : Passes metered evaluation) (settled : machine.Settled) :
    Measured 0 metered evaluation machine fun _ after => after.memory.Loopless := by
  have kept (none : machine.console.looped = false) : (last (evaluation machine.bare)).memory.Loopless :=
    passes.loopless machine.bare (settled none)
  unfold Measured
  rw [passes.same machine]
  unfold unmetered
  cases ran : evaluation machine.bare with
  | ok result after =>
      rw [ran] at kept
      exact ⟨rfl, .of_same ⟨rfl, rfl⟩, kept⟩
  | error interrupt after =>
      rw [ran] at kept
      cases interrupt with
      | answer value => exact ⟨rfl, .of_same ⟨rfl, rfl⟩, kept⟩
      | quit => exact ⟨rfl, .of_same ⟨rfl, rfl⟩⟩
      | unfinished => exact absurd ran (passes.ends _ _)

/-- Operating on memory, whatever it does there. -/
theorem onMemory (address : Address) (operation : MemoryM α) :
    Measured 0 (onMemory address operation) (onMemory address operation) machine fun _ _ => True := by
  unfold Measured Eval.onMemory Eval.onMemoryAs
  rw [Machine.memory_bare]
  cases operation machine.memory with
  | ok result memory => exact ⟨rfl, .of_same ⟨rfl, rfl⟩, fun _ => trivial⟩
  | error error memory => exact ⟨rfl, .of_same ⟨rfl, rfl⟩⟩

/-- What else is known of the result. -/
theorem gives (measured : Measured count metered evaluation machine done) {holds : α → Machine (Metered κ) → Prop}
    (gives : Gives metered machine holds) :
    Measured count metered evaluation machine fun result after => done result after ∧ holds result after := by
  unfold Measured at measured ⊢
  cases ran : metered machine with
  | ok result after =>
      simp only [ran] at measured
      exact ⟨measured.1, measured.2.1, fun none => ⟨measured.2.2 none, gives result after ran⟩⟩
  | error interrupt after =>
      simp only [ran] at measured
      cases interrupt with
      | answer value | quit | unfinished => exact measured

/-- What passes the meter with a result of which something is known. -/
theorem passing_gives (passes : Passes metered evaluation) (settled : machine.Settled) {holds : α → Prop}
    (gives : Gives metered machine fun result _ => holds result) :
    Measured 0 metered evaluation machine (Calmly holds) :=
  (passing passes settled).gives gives

/-- A change afterwards that the meter does not see. -/
theorem changing {change : Machine (Metered κ) → Machine (Metered κ)} {change' : Machine κ → Machine κ}
    (bare : ∀ machine, change' machine.bare = (change machine).bare)
    (console : ∀ machine, (change machine).console = machine.console)
    (loopless : ∀ machine, machine.memory.Loopless → (change machine).memory.Loopless)
    {done' : α → Machine (Metered κ) → Prop} (measured : Measured count metered evaluation machine done)
    (holds : ∀ result after, done result after → done' result (change after)) :
    Measured count (always change metered) (always change' evaluation) machine done' := by
  have spent {after : Machine (Metered κ)} (spends : machine.Spends count after) : machine.Spends count (change after) :=
    ⟨by rw [console]; exact spends.begun, by rw [console]; exact spends.looped⟩
  unfold Measured at measured ⊢
  unfold Eval.always
  cases ran : metered machine with
  | ok result after =>
      simp only [ran] at measured
      obtain ⟨same, spends, given⟩ := measured
      simp only [same, bare, console]
      exact ⟨trivial, spent spends, fun none => holds result after (given none)⟩
  | error interrupt after =>
      simp only [ran] at measured
      cases interrupt with
      | answer value =>
          obtain ⟨same, spends, settled⟩ := measured
          simp only [same, bare]
          exact ⟨trivial, spent spends, fun none => loopless _ (settled (console after ▸ none))⟩
      | quit =>
          obtain ⟨same, spends⟩ := measured
          simp only [same, bare]
          exact ⟨trivial, spent spends⟩
      | unfinished =>
          obtain ⟨same, spends, looped⟩ := measured
          simp only [same, bare, console]
          exact ⟨trivial, spent spends, looped⟩

/-- A change of memory afterwards. -/
theorem always (change : Memory → Memory) (loopless : ∀ memory, memory.Loopless → (change memory).Loopless)
    {done' : α → Machine (Metered κ) → Prop} (measured : Measured count metered evaluation machine done)
    (holds : ∀ result after, done result after → done' result { after with memory := change after.memory }) :
    Measured count (always (fun machine => { machine with memory := change machine.memory }) metered)
      (always (fun machine => { machine with memory := change machine.memory }) evaluation) machine done' :=
  .changing (fun _ => by rfl) (fun _ => by rfl) (fun _ => by exact loopless _) measured holds

/-- Evaluation one level deeper. -/
theorem nested (measured : Measured count metered evaluation machine.enter done)
    (holds : ∀ result after, done result after → done result after.leave) :
    Measured count (nested metered) (nested evaluation) machine done := by
  have counted : Measured count (Eval.always Machine.leave metered) (Eval.always Machine.leave evaluation)
      machine.enter done := .changing (fun _ => by rfl) (fun _ => by rfl) (fun _ none => by exact none) measured holds
  have entered : machine.Spends 0 machine.enter := .of_same ⟨rfl, rfl⟩
  exact (Measured.congr rfl rfl (.since entered counted)).le (Nat.le_of_eq (Nat.zero_add _))

theorem releasing (measured : Measured count metered evaluation machine done)
    (holds : ∀ result after, done result after → done result { after with memory := { after.memory with
      roots := Roots.release after.memory.roots machine.memory.roots.size } }) :
    Measured count (releasing metered) (releasing evaluation) machine done :=
  .get_bind (.always (fun memory => { memory with roots := Roots.release memory.roots machine.memory.roots.size })
    (fun _ none => none) measured holds)

end Measured

end Eval

end PocketScript
