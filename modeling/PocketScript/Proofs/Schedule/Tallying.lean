import PocketScript.Proofs.Memory.Tallying
import PocketScript.Proofs.Schedule.Spending

/-! # Two runs that tally

The same evaluation on two machines that are alike but for handles. They tally
if they end the same way, with results alike and on machines that are alike
again, unless one of them is lost: it lacked bytes, it accessed an object that
was gone, or so many objects were allocated that handles come again. Evaluation
that leaves the heap as it was is calm: it needs no new cells to go together.
-/

namespace PocketScript

variable {κ α β : Type} {pairing next : Pairing} {value value' : Value} {address : Address}

/-- A fault that other collections can bring about. -/
def Fault.IsRuinous (fault : Fault) : Prop :=
  ∃ error : MemoryError, error.IsRuinous ∧ (fault.cause = .memory error ∨ fault.cause = .loose error)

namespace Machine

variable {machine other after after' : Machine κ}

/-- The same outside of memory: files, console, draws and the fault, if any. -/
structure Alike (machine other : Machine κ) : Prop where
  store : other.store = machine.store
  console : other.console = machine.console
  draws : other.draws = machine.draws
  fault? : other.fault? = machine.fault?

/-- Two machines alike but for handles, and for when they collect. -/
structure Mirrors (pairing : Pairing) (machine other : Machine κ) : Prop extends machine.Alike other where
  maxDepth : other.configuration.maxDepth = machine.configuration.maxDepth
  memory : machine.memory.Mirrors pairing other.memory

theorem Mirrors.withMemory (mirrors : machine.Mirrors pairing other) {memory memory' : Memory}
    (alike : memory.Mirrors next memory') : { machine with memory }.Mirrors next { other with memory := memory' } :=
  ⟨⟨mirrors.store, mirrors.console, mirrors.draws, mirrors.fault?⟩, mirrors.maxDepth, alike⟩

end Machine

namespace Eval

variable {evaluation evaluation' : Eval κ α} {rest rest' : α → Eval κ β}
  {first second : EStateM.Result Interrupt (Machine κ) α} {machine other after after' : Machine κ}

/-- Evaluation ended with a fault that other collections can bring about. -/
inductive Ruined : EStateM.Result Interrupt (Machine κ) α → Prop where
  | failed {after : Machine κ} {fault : Fault} (here : after.fault? = some fault) (ruinous : fault.IsRuinous) :
      Ruined (.error .quit after)

/-- Nothing can be said of how another evaluation ends. -/
def Lost (result : EStateM.Result Interrupt (Machine κ) α) : Prop :=
  Ruined result ∨ (last result).memory.heap.Spent

/-- Evaluation ended the same way on both sides, under a pairing that was
    reached. -/
inductive Matched (reached : Pairing → Prop) (done : Pairing → α → α → Prop) :
    EStateM.Result Interrupt (Machine κ) α → EStateM.Result Interrupt (Machine κ) α → Prop where
  | ok {next : Pairing} {result result' : α} {after after' : Machine κ} (here : reached next)
      (mirrors : after.Mirrors next after') (holds : done next result result') :
      Matched reached done (.ok result after) (.ok result' after')
  | answer {next : Pairing} {value value' : Value} {after after' : Machine κ} (here : reached next)
      (mirrors : after.Mirrors next after') (alike : value.Mirrors next value') :
      Matched reached done (.error (.answer value) after) (.error (.answer value') after')
  | quit {after after' : Machine κ} (alike : after.Alike after') :
      Matched reached done (.error .quit after) (.error .quit after')
  | unfinished {after after' : Machine κ} (alike : after.Alike after') :
      Matched reached done (.error .unfinished after) (.error .unfinished after')

theorem Matched.mono {reached reached' : Pairing → Prop} {done done' : Pairing → α → α → Prop}
    (matched : Matched reached done first second) (reaches : ∀ next, reached next → reached' next)
    (more : ∀ next result result', reached next → done next result result' → done' next result result') :
    Matched reached' done' first second := by
  cases matched with
  | ok here mirrors holds => exact .ok (reaches _ here) mirrors (more _ _ _ here holds)
  | answer here mirrors alike => exact .answer (reaches _ here) mirrors alike
  | quit alike => exact .quit alike
  | unfinished alike => exact .unfinished alike

/-- Two evaluations that leave the heap as it was end the same way. -/
def Calm (pairing : Pairing) (evaluation evaluation' : Eval κ α) (done : α → α → Prop) : Prop :=
  ∀ machine other, machine.Mirrors pairing other → Ruined (evaluation machine) ∨ Ruined (evaluation' other) ∨
    Matched (· = pairing) (fun _ => done) (evaluation machine) (evaluation' other)

/-- Two evaluations end the same way, unless one of them is lost. -/
def Tally (pairing : Pairing) (evaluation evaluation' : Eval κ α) (done : Pairing → α → α → Prop) : Prop :=
  ∀ machine other, machine.Mirrors pairing other → Lost (evaluation machine) ∨ Lost (evaluation' other) ∨
    Matched (pairing ≤ ·) done (evaluation machine) (evaluation' other)

theorem bind_of_ok {result : α} (ran : evaluation machine = .ok result after) :
    (evaluation >>= rest) machine = rest result after := by
  simp only [Bind.bind, EStateM.bind, ran]

theorem bind_of_error {interrupt : Interrupt} (ran : evaluation machine = .error interrupt after) :
    (evaluation >>= rest) machine = .error interrupt after := by
  simp only [Bind.bind, EStateM.bind, ran]

theorem Ruined.bind (ruined : Ruined (evaluation machine)) : Ruined ((evaluation >>= rest) machine) := by
  generalize ran : evaluation machine = result at ruined
  cases ruined with
  | failed here ruinous =>
      rw [bind_of_error ran]
      exact .failed here ruinous

theorem Lost.bind (lost : Lost (evaluation machine)) (stays : ∀ result, StaysSpent (rest result)) :
    Lost ((evaluation >>= rest) machine) := by
  rcases lost with ruined | spent
  · exact .inl ruined.bind
  · refine .inr ?_
    cases ran : evaluation machine with
    | ok result after =>
        rw [ran] at spent
        rw [bind_of_ok ran]
        exact stays result after spent
    | error interrupt after =>
        rw [ran] at spent
        rw [bind_of_error ran]
        exact spent

theorem Matched.bind {reached : Pairing → Prop} {done : Pairing → α → α → Prop}
    (matched : Matched reached done (evaluation machine) (evaluation' other))
    (holds : EStateM.Result Interrupt (Machine κ) β → EStateM.Result Interrupt (Machine κ) β → Prop)
    (ends : ∀ first second, Matched reached (fun _ _ _ => False) first second → holds first second)
    (goes : ∀ next result result' after after', reached next → after.Mirrors next after' → done next result result' →
      holds (rest result after) (rest' result' after')) :
    holds ((evaluation >>= rest) machine) ((evaluation' >>= rest') other) := by
  generalize ran : evaluation machine = first, ran' : evaluation' other = second at matched
  cases matched with
  | ok here mirrors alike =>
      rw [bind_of_ok ran, bind_of_ok ran']
      exact goes _ _ _ _ _ here mirrors alike
  | answer here mirrors alike =>
      rw [bind_of_error ran, bind_of_error ran']
      exact ends _ _ (.answer here mirrors alike)
  | quit alike =>
      rw [bind_of_error ran, bind_of_error ran']
      exact ends _ _ (.quit alike)
  | unfinished alike =>
      rw [bind_of_error ran, bind_of_error ran']
      exact ends _ _ (.unfinished alike)

theorem Calm.bind {done : α → α → Prop} {done' : β → β → Prop} (calm : Calm pairing evaluation evaluation' done)
    (goes : ∀ result result', done result result' → Calm pairing (rest result) (rest' result') done') :
    Calm pairing (evaluation >>= rest) (evaluation' >>= rest') done' := by
  intro machine other mirrors
  rcases calm machine other mirrors with ruined | ruined | matched
  · exact .inl ruined.bind
  · exact .inr (.inl ruined.bind)
  · refine matched.bind (fun first second => Ruined first ∨ Ruined second ∨ Matched _ _ first second) ?_ ?_
    · exact fun _ _ ended => .inr (.inr (ended.mono (fun _ same => same) fun _ _ _ _ => False.elim))
    · rintro _ result result' after after' rfl mirrors holds
      exact goes result result' holds after after' mirrors

/-- Calm evaluation in front. -/
theorem Calm.bind_tally {done : α → α → Prop} {done' : Pairing → β → β → Prop}
    (calm : Calm pairing evaluation evaluation' done)
    (goes : ∀ result result', done result result' → Tally pairing (rest result) (rest' result') done') :
    Tally pairing (evaluation >>= rest) (evaluation' >>= rest') done' := by
  intro machine other mirrors
  rcases calm machine other mirrors with ruined | ruined | matched
  · exact .inl (.inl ruined.bind)
  · exact .inr (.inl (.inl ruined.bind))
  · refine matched.bind (fun first second => Lost first ∨ Lost second ∨ Matched _ _ first second) ?_ ?_
    · exact fun _ _ ended => .inr (.inr (ended.mono (fun _ same => le_of_eq same.symm) fun _ _ _ _ => False.elim))
    · rintro _ result result' after after' rfl mirrors holds
      exact goes result result' holds after after' mirrors

/-- Calm evaluation with one result, in front. -/
theorem Calm.bind_eq {done' : β → β → Prop} (calm : Calm pairing evaluation evaluation' Eq)
    (goes : ∀ result, Calm pairing (rest result) (rest' result) done') :
    Calm pairing (evaluation >>= rest) (evaluation' >>= rest') done' :=
  calm.bind fun result _ same => same ▸ goes result

theorem Calm.bind_eq_tally {done' : Pairing → β → β → Prop} (calm : Calm pairing evaluation evaluation' Eq)
    (goes : ∀ result, Tally pairing (rest result) (rest' result) done') :
    Tally pairing (evaluation >>= rest) (evaluation' >>= rest') done' :=
  calm.bind_tally fun result _ same => same ▸ goes result

theorem Tally.bind {done : Pairing → α → α → Prop} {done' : Pairing → β → β → Prop}
    (tally : Tally pairing evaluation evaluation' done) (stays : ∀ result, StaysSpent (rest result))
    (stays' : ∀ result, StaysSpent (rest' result))
    (goes : ∀ next result result', pairing ≤ next → done next result result' →
      Tally next (rest result) (rest' result') done') :
    Tally pairing (evaluation >>= rest) (evaluation' >>= rest') done' := by
  intro machine other mirrors
  rcases tally machine other mirrors with lost | lost | matched
  · exact .inl (lost.bind stays)
  · exact .inr (.inl (lost.bind stays'))
  · refine matched.bind (fun first second => Lost first ∨ Lost second ∨ Matched _ _ first second) ?_ ?_
    · exact fun _ _ ended => .inr (.inr (ended.mono (fun _ grown => grown) fun _ _ _ _ => False.elim))
    · rintro next result result' after after' grown mirrors holds
      refine (goes next result result' grown holds after after' mirrors).imp_right (Or.imp_right fun matched => ?_)
      exact matched.mono (fun _ more => le_trans grown more) fun _ _ _ _ holds => holds

theorem Calm.tally {done : Pairing → α → α → Prop} (calm : Calm pairing evaluation evaluation' (done pairing)) :
    Tally pairing evaluation evaluation' done := by
  intro machine other mirrors
  refine (calm machine other mirrors).imp .inl (Or.imp .inl fun matched => ?_)
  refine matched.mono (fun _ same => le_of_eq same.symm) ?_
  rintro _ result result' rfl holds
  exact holds

theorem Calm.mono {done done' : α → α → Prop} (calm : Calm pairing evaluation evaluation' done)
    (more : ∀ result result', done result result' → done' result result') :
    Calm pairing evaluation evaluation' done' :=
  fun machine other mirrors => (calm machine other mirrors).imp_right (Or.imp_right fun matched =>
    matched.mono (fun _ same => same) fun _ _ _ _ holds => more _ _ holds)

namespace Calm

variable {done : α → α → Prop}

/-- Evaluation that always goes on. -/
theorem steps (ran : ∀ machine other : Machine κ, machine.Mirrors pairing other →
      ∃ result after result' after', evaluation machine = .ok result after ∧ evaluation' other = .ok result' after' ∧
        after.Mirrors pairing after' ∧ done result result') : Calm pairing evaluation evaluation' done := by
  intro machine other mirrors
  obtain ⟨result, after, result', after', ran, ran', mirrors', holds⟩ := ran machine other mirrors
  rw [ran, ran']
  exact .inr (.inr (.ok rfl mirrors' holds))

theorem pure {result result' : α} (holds : done result result') :
    Calm pairing (Pure.pure result : Eval κ α) (Pure.pure result') done :=
  steps fun _ _ mirrors => ⟨_, _, _, _, rfl, rfl, mirrors, holds⟩

theorem quit : Calm pairing (throw .quit : Eval κ α) (throw .quit) done :=
  fun _ _ mirrors => .inr (.inr (.quit mirrors.toAlike))

theorem unfinished : Calm pairing (throw .unfinished : Eval κ α) (throw .unfinished) done :=
  fun _ _ mirrors => .inr (.inr (.unfinished mirrors.toAlike))

theorem answer (alike : value.Mirrors pairing value') :
    Calm pairing (throw (.answer value) : Eval κ α) (throw (.answer value')) done :=
  fun _ _ mirrors => .inr (.inr (.answer rfl mirrors alike))

theorem fail (cause : FaultCause) (address : Address) :
    Calm pairing (fail cause address : Eval κ α) (fail cause address) done :=
  fun _ _ mirrors => .inr (.inr (.quit ⟨mirrors.store, mirrors.console, mirrors.draws, rfl⟩))

theorem raise (kind : FaultKind) (address : Address) :
    Calm pairing (raise kind address : Eval κ α) (raise kind address) done :=
  fail _ _

/-- Looking at the machine. -/
theorem get_bind {next next' : Machine κ → Eval κ α}
    (rest : ∀ machine other : Machine κ, machine.Mirrors pairing other →
      Calm pairing (next machine) (next' other) done) : Calm pairing (get >>= next) (get >>= next') done :=
  fun machine other mirrors => rest machine other mirrors machine other mirrors

theorem byteAt (address : Address) : Calm pairing (byteAt address : Eval κ UInt8) (byteAt address) Eq :=
  steps fun _ _ mirrors => ⟨_, _, _, _, rfl, rfl, mirrors, by rw [mirrors.store]⟩

/-- Registrations do not matter, only what is collected. -/
theorem modifyRoots (change change' : Roots → Roots) :
    Calm pairing (modifyRoots change : Eval κ Unit) (modifyRoots change') Eq :=
  steps fun _ _ mirrors =>
    ⟨_, _, _, _, rfl, rfl, mirrors.withMemory (mirrors.memory.ofHeap rfl rfl mirrors.memory.stack), rfl⟩

theorem track (value value' : Value) : Calm pairing (track value : Eval κ Unit) (track value') Eq :=
  modifyRoots _ _

theorem trackValues : Calm pairing (trackValues : Eval κ Nat) trackValues fun _ _ => True :=
  steps fun _ _ mirrors =>
    ⟨_, _, _, _, rfl, rfl, mirrors.withMemory (mirrors.memory.ofHeap rfl rfl mirrors.memory.stack), trivial⟩

theorem onStack {operation : ScopeStack → α × ScopeStack}
    (alike : ∀ stack other : ScopeStack, stack.Mirrors pairing other →
      (operation other).1 = (operation stack).1 ∧ (operation stack).2.Mirrors pairing (operation other).2) :
    Calm pairing (onStack operation : Eval κ α) (onStack operation) Eq := by
  refine steps fun machine other mirrors => ?_
  obtain ⟨same, scopes⟩ := alike _ _ mirrors.memory.stack
  exact ⟨_, _, _, _, rfl, rfl, mirrors.withMemory (mirrors.memory.withStack scopes), same.symm⟩

theorem ask (request : κ → α × κ) : Calm pairing (ask request) (ask request) Eq := by
  refine steps fun machine other mirrors => ⟨_, _, _, _, rfl, rfl, ⟨⟨?_, ?_, ?_, ?_⟩, ?_, ?_⟩, ?_⟩
  · exact mirrors.store
  · exact congrArg (fun console => (request console).2) mirrors.console
  · exact mirrors.draws
  · exact mirrors.fault?
  · exact mirrors.maxDepth
  · exact mirrors.memory
  · exact congrArg (fun console => (request console).1) mirrors.console.symm

theorem resume [Console κ] : Calm pairing (resume : Eval κ Unit) resume Eq := by
  refine steps fun machine other mirrors => ⟨_, _, _, _, rfl, rfl, ⟨⟨?_, ?_, ?_, ?_⟩, ?_, ?_⟩, rfl⟩
  · exact mirrors.store
  · exact congrArg Console.resume mirrors.console
  · exact mirrors.draws
  · exact mirrors.fault?
  · exact mirrors.maxDepth
  · exact mirrors.memory

theorem onStore (address : Address) (operation : StoreM α) :
    Calm pairing (onStore address operation : Eval κ α) (onStore address operation) Eq := by
  intro machine other mirrors
  unfold Eval.onStore
  rw [mirrors.store]
  cases operation machine.store with
  | ok result store =>
      refine .inr (.inr (.ok rfl ⟨⟨rfl, ?_, ?_, ?_⟩, ?_, ?_⟩ rfl))
      · exact mirrors.console
      · exact mirrors.draws
      · exact mirrors.fault?
      · exact mirrors.maxDepth
      · exact mirrors.memory
  | error error store => exact .inr (.inr (.quit ⟨rfl, mirrors.console, mirrors.draws, rfl⟩))

end Calm

/-- Faults are put down to memory, whoever had to keep an object. -/
def IsOfMemory (cause : MemoryError → FaultCause) : Prop :=
  ∀ error, cause error = .memory error ∨ cause error = .loose error

theorem ruined_onMemoryAs {cause : MemoryError → FaultCause} (ofMemory : IsOfMemory cause)
    {operation : MemoryM α} {error : MemoryError} {memory : Memory} (ruinous : error.IsRuinous)
    (ran : operation machine.memory = .error error memory) :
    Ruined (onMemoryAs cause address operation machine) := by
  unfold onMemoryAs
  rw [ran]
  exact .failed rfl ⟨error, ruinous, ofMemory error⟩

theorem Calm.onMemoryAs {cause : MemoryError → FaultCause} (ofMemory : IsOfMemory cause) (address : Address)
    {operation operation' : MemoryM α} {done : α → α → Prop}
    (tallies : ∀ memory other : Memory, memory.Mirrors pairing other →
      MemoryM.Tallies (MemoryM.Level pairing done) (operation memory) (operation' other)) :
    Calm pairing (onMemoryAs cause address operation : Eval κ α) (onMemoryAs cause address operation') done := by
  intro machine other mirrors
  have tallies := tallies _ _ mirrors.memory
  generalize ran : operation machine.memory = first, ran' : operation' other.memory = second at tallies
  cases tallies with
  | ruined ruinous _ _ => exact .inl (ruined_onMemoryAs ofMemory ruinous ran)
  | ruined' ruinous _ _ => exact .inr (.inl (ruined_onMemoryAs ofMemory ruinous ran'))
  | error error _ _ =>
      unfold Eval.onMemoryAs
      rw [ran, ran']
      exact .inr (.inr (.quit ⟨mirrors.store, mirrors.console, mirrors.draws, rfl⟩))
  | ok holds =>
      unfold Eval.onMemoryAs
      rw [ran, ran']
      exact .inr (.inr (.ok rfl (mirrors.withMemory holds.1) holds.2))

theorem Tally.onMemoryAs {cause : MemoryError → FaultCause} (ofMemory : IsOfMemory cause) (address : Address)
    {operation operation' : MemoryM α} {done : Pairing → α → α → Prop}
    (tallies : ∀ memory other : Memory, memory.Mirrors pairing other →
      MemoryM.Tallies (MemoryM.Grown pairing done) (operation memory) (operation' other)) :
    Tally pairing (onMemoryAs cause address operation : Eval κ α) (onMemoryAs cause address operation') done := by
  intro machine other mirrors
  have tallies := tallies _ _ mirrors.memory
  generalize ran : operation machine.memory = first, ran' : operation' other.memory = second at tallies
  cases tallies with
  | ruined ruinous _ _ => exact .inl (.inl (ruined_onMemoryAs ofMemory ruinous ran))
  | ruined' ruinous _ _ => exact .inr (.inl (.inl (ruined_onMemoryAs ofMemory ruinous ran')))
  | error error _ _ =>
      unfold Eval.onMemoryAs
      rw [ran, ran']
      exact .inr (.inr (.quit ⟨mirrors.store, mirrors.console, mirrors.draws, rfl⟩))
  | @ok _ _ after after' holds =>
      unfold Eval.onMemoryAs
      rw [ran, ran']
      by_cases spent : after.heap.Spent
      · exact .inl (.inr spent)
      · by_cases spent' : after'.heap.Spent
        · exact .inr (.inl (.inr spent'))
        · obtain ⟨next, grown, mirrors', holds⟩ := holds spent spent'
          exact .inr (.inr (.ok grown (mirrors.withMemory mirrors') holds))

theorem isOfMemory : IsOfMemory .memory :=
  fun _ => .inl rfl

theorem isOfMemory_hold (hold : Hold) : IsOfMemory hold.cause := by
  intro error
  cases hold with
  | kept | passedOn => exact .inl rfl
  | loose => exact .inr rfl

theorem Calm.viewMemory (address : Address) {view view' : Memory → Except MemoryError α} {done : α → α → Prop}
    (agrees : ∀ memory other : Memory, memory.Mirrors pairing other → Agrees done (view memory) (view' other)) :
    Calm pairing (viewMemory address view : Eval κ α) (viewMemory address view') done :=
  .onMemoryAs isOfMemory address fun memory other mirrors => mirrors.look (agrees memory other mirrors)

end Eval

end PocketScript
