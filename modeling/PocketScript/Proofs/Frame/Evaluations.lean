import PocketScript.Proofs.Frame.Memory
import PocketScript.Proofs.Schedule.Spending

/-! # Evaluation keeps to its frame

Whatever is evaluated leaves its frame alone, however evaluation ends: it writes to
variables through destinations only, which are those of visible variables, and the
roots it drops were registered since. Where blocks are fixed, they are neither
opened nor closed, unless a statement is evaluated or code is imported that does
not leave them as they were.
-/

namespace PocketScript

variable {κ α β : Type} {frame : MemoryFrame}

/-- A destination among the variables of a frame, or in a string or list. -/
def Expression.Within (frame : MemoryFrame) (expression : Expression) : Prop :=
  ∀ place, expression.destination? = some (.variable place) → frame.Visible place

/-- A destination that a frame allows to write to. -/
def Destination.Within (frame : MemoryFrame) : Destination → Prop
  | .variable place => frame.Visible place
  | _ => True

theorem Expression.Within.destination {expression : Expression} {destination : Destination}
    (within : expression.Within frame) (here : expression.destination? = some destination) :
    destination.Within frame := by
  cases destination with
  | «variable» place => exact within place here
  | element | character => trivial

theorem Expression.within_of_destination {expression : Expression} {destination : Destination}
    (within : destination.Within frame) (here : expression.destination? = some destination) :
    expression.Within frame := by
  intro place same
  obtain rfl := Option.some.inj (here.symm.trans same)
  exact within

theorem Expression.within_of_variable {expression : Expression} {place : VariableRef} (visible : frame.Visible place)
    (here : expression.destination? = some (.variable place)) : expression.Within frame := by
  intro place' same
  obtain rfl := Destination.variable.inj (Option.some.inj (here.symm.trans same))
  exact visible

theorem Expression.within_of_none {expression : Expression} (nowhere : expression.destination? = none) :
    expression.Within frame :=
  fun _ same => nomatch nowhere.symm.trans same

namespace Eval

variable {evaluation : Eval κ α} {next : α → Eval κ β} {done done' : α → Prop}

/-- An evaluation leaves a frame as it was. -/
def Leaves (frame : MemoryFrame) (evaluation : Eval κ α) : Prop :=
  ∀ machine, frame.Holds machine.memory → frame.Holds (last (evaluation machine)).memory

/-- An evaluation leaves a frame as it was, and `done` holds of its result. -/
def Respects (frame : MemoryFrame) (evaluation : Eval κ α) (done : α → Prop) : Prop :=
  ∀ machine, frame.Holds machine.memory → match evaluation machine with
    | .ok result after => frame.Holds after.memory ∧ done result
    | .error _ after => frame.Holds after.memory

namespace Respects

theorem leaves (respects : Respects frame evaluation done) : Leaves frame evaluation := by
  intro machine holds
  have ends := respects machine holds
  cases ran : evaluation machine with
  | ok result after =>
      rw [ran] at ends
      exact ends.1
  | error interrupt after =>
      rw [ran] at ends
      exact ends

theorem of_leaves (leaves : Leaves frame evaluation) : Respects frame evaluation fun _ => True := by
  intro machine holds
  have ends := leaves machine holds
  cases ran : evaluation machine with
  | ok result after =>
      rw [ran] at ends
      exact ⟨ends, trivial⟩
  | error interrupt after =>
      rw [ran] at ends
      exact ends

theorem bind {done' : β → Prop} (one : Respects frame evaluation done)
    (two : ∀ result, done result → Respects frame (next result) done') :
    Respects frame (evaluation >>= next) done' := by
  intro machine holds
  have first := one machine holds
  simp only [Bind.bind, EStateM.bind]
  cases ran : evaluation machine with
  | ok result middle =>
      rw [ran] at first
      exact two result first.2 middle first.1
  | error interrupt middle =>
      rw [ran] at first
      exact first

/-- What comes after an evaluation of which the result does not matter. -/
theorem seq {done' : β → Prop} (one : Leaves frame evaluation)
    (two : ∀ result, Respects frame (next result) done') : Respects frame (evaluation >>= next) done' :=
  (of_leaves one).bind fun result _ => two result

theorem get_bind {next : Machine κ → Eval κ β} {done' : β → Prop}
    (rest : ∀ machine, frame.Holds machine.memory → Respects frame (next machine) done') :
    Respects frame (get >>= next) done' :=
  fun machine holds => rest machine holds machine holds

theorem pure {result : α} (holds : done result) : Respects frame (Pure.pure result : Eval κ α) done :=
  fun _ kept => ⟨kept, holds⟩

theorem throw (interrupt : Interrupt) : Respects frame (throw interrupt : Eval κ α) done :=
  fun _ kept => kept

theorem raise (kind : FaultKind) (address : Address) : Respects frame (raise kind address : Eval κ α) done :=
  fun _ kept => kept

theorem onMemoryAs {cause : MemoryError → FaultCause} {address : Address} {operation : MemoryM α}
    (ends : ∀ memory, frame.Holds memory →
      MemoryM.Ends operation memory (fun result after => frame.Holds after ∧ done result) fun _ => frame.Holds) :
    Respects frame (onMemoryAs cause address operation : Eval κ α) done := by
  intro machine holds
  have ends := ends machine.memory holds
  unfold MemoryM.Ends at ends
  unfold Eval.onMemoryAs
  cases ran : operation machine.memory with
  | ok result memory =>
      rw [ran] at ends
      exact ends
  | error error memory =>
      rw [ran] at ends
      exact ends

end Respects

namespace Leaves

@[grind ←]
theorem bind (one : Leaves frame evaluation) (two : ∀ result, Leaves frame (next result)) :
    Leaves frame (evaluation >>= next) :=
  (Respects.seq one fun result => .of_leaves (two result)).leaves

@[grind ←]
theorem pure (result : α) : Leaves frame (Pure.pure result : Eval κ α) :=
  fun _ holds => holds

@[grind ←]
theorem throw (interrupt : Interrupt) : Leaves frame (throw interrupt : Eval κ α) :=
  fun _ holds => holds

@[grind ←]
theorem fail (cause : FaultCause) (address : Address) : Leaves frame (fail cause address : Eval κ α) :=
  fun _ holds => holds

@[grind ←]
theorem raise (kind : FaultKind) (address : Address) : Leaves frame (raise kind address : Eval κ α) :=
  fun _ holds => holds

@[grind ←]
theorem get : Leaves frame (get : Eval κ (Machine κ)) :=
  fun _ holds => holds

@[grind ←]
theorem byteAt (address : Address) : Leaves frame (byteAt address : Eval κ UInt8) :=
  fun _ holds => holds

@[grind ←]
theorem track (value : Value) : Leaves frame (track value : Eval κ Unit) :=
  fun _ holds => holds.withRoots (Roots.release_track _ holds.size_le)

/-- One more registration. -/
theorem register (root : Root) : Leaves frame (modifyRoots (·.push root) : Eval κ Unit) :=
  fun _ holds => holds.withRoots (Roots.release_push _ holds.size_le)

theorem trackIn {index : Nat} (above : frame.roots.size ≤ index) (value : Value) :
    Leaves frame (modifyRoots (·.trackIn index value) : Eval κ Unit) :=
  fun _ holds => holds.withRoots (Roots.release_trackIn _ above)

theorem always {change : Machine κ → Machine κ} (leaves : Leaves frame evaluation)
    (kept : ∀ machine, frame.Holds machine.memory → frame.Holds (change machine).memory) :
    Leaves frame (always change evaluation) := by
  intro machine holds
  rw [last_always]
  exact kept _ (leaves machine holds)

theorem nested (leaves : Leaves frame evaluation) : Leaves frame (nested evaluation) := by
  have counted : Leaves frame (Eval.always Machine.leave evaluation) := leaves.always fun _ holds => holds
  exact fun machine holds => counted machine.enter holds

theorem onStack (loose : frame.Loose) {operation : ScopeStack → α × ScopeStack}
    (framed : ∀ stack : ScopeStack, stack.Framed (operation stack).2) : Leaves frame (onStack operation : Eval κ α) :=
  fun _ holds => holds.withBlocks loose (framed _)

@[grind ←]
theorem ask (request : κ → α × κ) : Leaves frame (ask request) :=
  fun _ holds => holds

@[grind ←]
theorem resume [Console κ] : Leaves frame (resume : Eval κ Unit) :=
  fun _ holds => holds

@[grind ←]
theorem onStore (address : Address) (operation : StoreM α) : Leaves frame (onStore address operation : Eval κ α) := by
  intro machine holds
  unfold Eval.onStore
  cases operation machine.store with
  | ok | error => exact holds

@[grind ←]
theorem onMemoryAs (cause : MemoryError → FaultCause) (address : Address) {operation : MemoryM α}
    (keeps : MemoryM.Keeps frame.Holds operation) : Leaves frame (onMemoryAs cause address operation : Eval κ α) :=
  have ends : Respects frame (Eval.onMemoryAs cause address operation : Eval κ α) fun _ => True :=
    .onMemoryAs fun memory holds => (keeps memory holds).mono (fun _ _ kept => ⟨kept, trivial⟩) fun _ _ kept => kept
  ends.leaves

@[grind ←]
theorem onMemory (address : Address) {operation : MemoryM α} (keeps : MemoryM.Keeps frame.Holds operation) :
    Leaves frame (onMemory address operation : Eval κ α) :=
  onMemoryAs .memory address keeps

@[grind ←]
theorem viewMemory (address : Address) (view : Memory → Except MemoryError α) :
    Leaves frame (viewMemory address view : Eval κ α) :=
  onMemory address (Memory.holds_look view)

end Leaves

/-- A registration of values that are added one by one is among those to be
    dropped. -/
theorem respects_trackValues : Respects frame (trackValues : Eval κ Nat) fun array => frame.roots.size ≤ array :=
  fun _ holds => ⟨holds.withRoots (Roots.release_push _ holds.size_le), holds.size_le⟩

end Eval

open Eval (Leaves Respects)

@[grind ←]
theorem Destination.leaves_read (destination : Destination) (hold : Hold) (address : Address) :
    Leaves frame (destination.read hold address : Eval κ Value) := by
  unfold read
  grind

theorem Destination.leaves_writeVariable {place : VariableRef} (visible : frame.Visible place) (hold : Hold)
    (value : Value) (address : Address) :
    Leaves frame ((Destination.variable place).write hold value address : Eval κ Unit) :=
  .onMemory _ (Memory.holds_setVariable visible value)

theorem Destination.leaves_write {destination : Destination} (within : destination.Within frame) (hold : Hold)
    (value : Value) (address : Address) : Leaves frame (destination.write hold value address : Eval κ Unit) := by
  cases destination with
  | «variable» place => exact leaves_writeVariable within hold value address
  | element list index => exact .onMemoryAs _ _ (Memory.holds_setElement _ _ _)
  | character string index =>
      unfold write
      grind

namespace Machine

variable {inner : Inner κ} {expression : Expression}

@[grind ←]
theorem leaves_readName (address : Address) : Leaves frame (readName address : Eval κ (String × Address)) := by
  unfold readName
  grind

theorem respects_readVariable (nowhere : expression.destination? = none) :
    Respects frame (readVariable expression : Eval κ Expression) (·.Within frame) := by
  unfold readVariable
  refine .seq (leaves_readName _) fun name => .get_bind fun machine holds => ?_
  dsimp only
  split
  · next place found =>
    have visible := ScopeStack.Framed.visible_of_find? found
    rw [holds.stack.depth] at visible
    exact .pure (Expression.within_of_variable visible rfl)
  · exact .pure (Expression.within_of_none nowhere)

theorem respects_readNumberLiteral (nowhere : expression.destination? = none) :
    Respects frame (readNumberLiteral expression : Eval κ Expression) (·.Within frame) := by
  refine .get_bind fun machine _ => ?_
  dsimp only
  split
  · exact .raise _ _
  · exact .pure (Expression.within_of_none nowhere)

theorem respects_readCharacterLiteral (nowhere : expression.destination? = none) :
    Respects frame (readCharacterLiteral expression : Eval κ Expression) (·.Within frame) := by
  refine .get_bind fun machine _ => ?_
  extract_lets store first
  generalize (if first = 0x5c then _ else _ : UInt8 × Address) = found
  dsimp only
  split
  · exact .raise _ _
  · exact .pure (Expression.within_of_none nowhere)

theorem respects_readStringLiteral (nowhere : expression.destination? = none) :
    Respects frame (readStringLiteral expression : Eval κ Expression) (·.Within frame) := by
  refine .get_bind fun machine _ => ?_
  split
  · exact .raise _ _
  · exact .seq (.onMemory _ (Memory.holds_createString _)) fun cell => .pure (Expression.within_of_none nowhere)

@[grind ←]
theorem leaves_combine (operator : Combination) (left right : Value) (start : Address) :
    Leaves frame (combine operator left right start : Eval κ Value) := by
  unfold combine
  grind

@[grind ←]
theorem leaves_compare (operator : Comparison) (left right : Value) (start : Address) :
    Leaves frame (compare operator left right start : Eval κ Value) := by
  unfold compare
  grind

theorem respects_assign (within : expression.Within frame) (value : Value) :
    Respects frame (assign expression value : Eval κ Expression) (·.Within frame) := by
  unfold assign
  dsimp only
  split
  · next destination here =>
    exact .seq (Destination.leaves_write (within.destination here) _ _ _) fun _ => .pure within
  · refine .seq (leaves_readName _) fun name => ?_
    refine .bind (.onMemoryAs (Memory.holds_createVariable _ _)) fun place visible => ?_
    exact .seq (Destination.leaves_writeVariable visible _ _ _) fun _ =>
      .pure (Expression.within_of_variable visible rfl)

theorem respects_update (operator : Combination) (within : expression.Within frame) (right : Value) :
    Respects frame (update operator expression right : Eval κ Expression) (·.Within frame) := by
  unfold update
  dsimp only
  split
  · exact .raise _ _
  · next destination here =>
    refine .seq (Destination.leaves_read _ _ _) fun current => ?_
    split
    · split
      · exact .seq (.viewMemory _ _) fun length => .seq (.onMemory _ (Memory.holds_insertSequence _ _ _)) fun _ =>
          .pure within
      · exact .raise _ _
    · split
      · exact .seq (Destination.leaves_write (within.destination here) _ _ _) fun _ => .pure within
      · exact .raise _ _
    · exact .raise _ _

theorem respects_applyStep (direction : Step) (within : expression.Within frame) :
    Respects frame (applyStep direction expression : Eval κ Expression) (·.Within frame) := by
  unfold applyStep
  dsimp only
  split
  · split
    · exact .raise _ _
    · next destination here =>
      exact .seq (Destination.leaves_write (within.destination here) _ _ _) fun _ => .pure within
  · exact .raise _ _

theorem respects_select (sequence : Value) (index : Float32) (start : Address) :
    Respects frame (select sequence index start : Eval κ Destination) (·.Within frame) := by
  unfold select
  split
  · refine .seq (.viewMemory _ _) fun length => ?_
    dsimp only
    split
    · exact .raise _ _
    · exact .pure trivial
  · refine .seq (.viewMemory _ _) fun length => ?_
    dsimp only
    split
    · exact .raise _ _
    · exact .pure trivial
  · exact .raise _ _

/-- What can be evaluated one level further in leaves frames alone. If blocks are
    fixed, that can only be said of imported code that is `levelled`, and of no
    statement. -/
structure Inner.Framed (levelled : Prop) (inner : Inner κ) : Prop where
  expression : ∀ frame : MemoryFrame, ∀ start ceiling isStatement, frame.Loose ∨ levelled ∧ isStatement = false →
    Eval.Respects frame (inner.expression start ceiling isStatement) (·.Within frame)
  code : ∀ frame : MemoryFrame, ∀ address, frame.Loose ∨ levelled → Eval.Leaves frame (inner.code address)
  body : ∀ body, inner.body? = some body →
    ∀ frame : MemoryFrame, ∀ address, frame.Loose → Eval.Leaves frame (body address)

section Inner

variable {levelled : Prop}

theorem Inner.Framed.operand (framed : Inner.Framed levelled inner) (may : frame.Loose ∨ levelled) (start : Address)
    (ceiling : Nat) : Respects frame (inner.expression start ceiling false) (·.Within frame) :=
  framed.expression frame start ceiling false (may.imp_right fun levelled => ⟨levelled, rfl⟩)

theorem Inner.Framed.argument (framed : Inner.Framed levelled inner) (may : frame.Loose ∨ levelled) (start : Address) :
    Respects frame (inner.argument start) (·.Within frame) :=
  framed.operand may start _

theorem leaves_readElements (framed : Inner.Framed levelled inner) (may : frame.Loose ∨ levelled) (start : Address)
    (list : Value) (steps : Nat) (address : Address) (index : Nat) :
    Leaves frame (readElements inner start list steps address index) := by
  have argument (start : Address) := (framed.argument may start).leaves
  induction steps generalizing address index with
  | zero => exact .throw _
  | succ steps ih =>
      refine .bind (.byteAt _) fun byte => ?_
      split
      · exact .raise _ _
      split
      · exact .pure _
      refine .bind (argument _) fun element => ?_
      split
      · exact .raise _ _
      · exact .bind (.onMemory _ (Memory.holds_insertElement _ _ _)) fun _ => ih _ _

theorem respects_readListLiteral (framed : Inner.Framed levelled inner) (may : frame.Loose ∨ levelled)
    (nowhere : expression.destination? = none) :
    Respects frame (readListLiteral inner expression) (·.Within frame) := by
  refine .seq (.onMemory _ (Memory.holds_createList _)) fun list => .seq (.track _) fun _ => ?_
  exact .seq (leaves_readElements framed may _ _ _ _ _) fun code => .pure (Expression.within_of_none nowhere)

theorem respects_applyBinary (framed : Inner.Framed levelled inner) (may : frame.Loose ∨ levelled)
    (operator : BinaryOperator) (within : expression.Within frame) :
    Respects frame (applyBinary inner operator expression) (·.Within frame) := by
  unfold applyBinary
  refine .seq (.track _) fun _ => .bind (framed.operand may _ _) fun right _ => .seq (.track _) fun _ => ?_
  split
  · exact .raise _ _
  · have within : Expression.Within frame { expression with code := right.code, hold := expression.hold.outlast } :=
      within
    cases operator with
    | assign => exact respects_assign within _
    | update operator => exact respects_update operator within _
    | combine operator => exact .seq (leaves_combine _ _ _ _) fun value => .pure (Expression.within_of_none rfl)
    | compare operator => exact .seq (leaves_compare _ _ _ _) fun value => .pure (Expression.within_of_none rfl)

theorem respects_applyUnary (framed : Inner.Framed levelled inner) (may : frame.Loose ∨ levelled)
    (operator : UnaryOperator) (nowhere : expression.destination? = none) :
    Respects frame (applyUnary inner operator expression) (·.Within frame) := by
  unfold applyUnary
  refine .bind (framed.operand may _ _) fun operand within => ?_
  dsimp only
  split
  · exact .raise _ _
  · cases operator with
    | negate | not | complement => exact .pure (Expression.within_of_none nowhere)
    | step direction =>
        dsimp only
        split
        · exact .raise _ _
        · next destination here =>
          have within := within.destination here
          exact .seq (Destination.leaves_write within _ _ _) fun _ => .seq (Destination.leaves_read _ _ _) fun value =>
            .pure (Expression.within_of_destination within rfl)
  · exact .raise _ _

theorem respects_readParenthesis (framed : Inner.Framed levelled inner) (may : frame.Loose ∨ levelled)
    (expression : Expression) : Respects frame (readParenthesis inner expression) (·.Within frame) := by
  unfold readParenthesis
  refine .bind (framed.argument may _) fun inside within => .seq (.byteAt _) fun byte => ?_
  split
  · exact .raise _ _
  · exact .pure within

theorem respects_applyIndex (framed : Inner.Framed levelled inner) (may : frame.Loose ∨ levelled)
    (expression : Expression) : Respects frame (applyIndex inner expression) (·.Within frame) := by
  unfold applyIndex
  dsimp only
  split
  · exact .raise _ _
  · refine .bind (framed.argument may _) fun index _ => ?_
    split
    · exact .raise _ _
    · refine .seq (.byteAt _) fun byte => ?_
      split
      · exact .raise _ _
      · split
        · refine .bind (respects_select _ _ _) fun destination within => ?_
          exact .seq (.track _) fun _ => .seq (Destination.leaves_read _ _ _) fun value =>
            .pure (Expression.within_of_destination within rfl)
        · exact .raise _ _

theorem leaves_readArguments (framed : Inner.Framed levelled inner) (may : frame.Loose ∨ levelled) (start : Address)
    {array : Nat} (above : frame.roots.size ≤ array) (count : Nat) (address : Address) :
    Leaves frame (readArguments inner start array count address) := by
  have argument (start : Address) := (framed.argument may start).leaves
  induction count generalizing address with
  | zero => exact .pure _
  | succ count ih =>
      refine .bind (argument _) fun argument => ?_
      split
      · exact .raise _ _
      · refine .bind (.trackIn above _) fun _ => .bind (.byteAt _) fun byte => ?_
        exact .bind (ih _) fun rest => .pure _

theorem leaves_bindParameters (start : Address) (arguments : List Value) (address : Address) :
    Leaves frame (bindParameters start arguments address : Eval κ Address) := by
  have creates (name : String) (value : Value) :
      Leaves frame (Eval.onMemory start (Memory.createVariable name value) : Eval κ VariableRef) :=
    (Respects.onMemoryAs (Memory.holds_createVariable name value)).leaves
  induction arguments generalizing address with
  | nil => exact .pure _
  | cons argument rest ih =>
      refine .bind .get fun machine => ?_
      dsimp only
      split
      · exact .raise _ _
      · exact .bind (creates _ _) fun _ => ih _

/-- A call works in a scope of its own. -/
theorem called_runBody {body : Address → Eval κ Value}
    (leaves : ∀ frame : MemoryFrame, ∀ address, frame.Loose → Leaves frame (body address)) (header : Address)
    (arguments : List Value) (start : Address) (machine : Machine κ) :
    machine.memory.Called (Eval.last (runBody body header arguments start machine)).memory := by
  let opened (scope : Nat) : Eval κ Value := do
    Eval.onMemory start (Memory.pushBranch .run 0)
    Eval.modifyRoots (·.push (.scope scope))
    let code ← bindParameters start arguments ((← get).store.parameterAt (header + 1)).2
    body code
  have inside (frame : MemoryFrame) (loose : frame.Loose) (scope : Nat) : Leaves frame (opened scope) :=
    .bind (.onMemory _ (Memory.holds_pushBranch loose _ _)) fun _ => .bind (.register _) fun _ => .bind .get fun _ =>
      .bind (leaves_bindParameters _ _ _) fun code => leaves frame code loose
  unfold runBody
  by_cases full : machine.memory.heap.boundary < machine.memory.stack.boundary + Scope.headerSize
  · simp only [Bind.bind, EStateM.bind, Eval.onMemory, Eval.onMemoryAs, Memory.pushScope_eq, if_pos full]
    exact ⟨.refl _, Roots.release_size _⟩
  · simp only [Bind.bind, EStateM.bind, Eval.onMemory, Eval.onMemoryAs, Memory.pushScope_eq, if_neg full]
    generalize scopes : (⟨machine.memory.stack.scopes.push (Scope.opened machine.memory.stack.boundary)⟩ : ScopeStack) =
      stack
    let called : Machine κ := { machine with memory := { machine.memory with stack } }
    have kept := inside (.ofMemory called.memory none) rfl machine.memory.stack.scopes.size called (.ofLoose _)
    show machine.memory.Called (Eval.last (Eval.always _ (opened machine.memory.stack.scopes.size) called)).memory
    have framed := kept.stack
    rw [show (MemoryFrame.ofMemory called.memory none).stack = stack from rfl, ← scopes] at framed
    rw [Eval.last_always]
    exact ⟨framed.called, kept.roots⟩

/-- A call has a scope of its own, so blocks that are fixed stay as they are. -/
theorem leaves_runBody {body : Address → Eval κ Value}
    (leaves : ∀ frame : MemoryFrame, ∀ address, frame.Loose → Leaves frame (body address)) (header : Address)
    (arguments : List Value) (start : Address) : Leaves frame (runBody body header arguments start) :=
  fun machine holds => holds.called (called_runBody leaves header arguments start machine)

theorem respects_applyCall (framed : Inner.Framed levelled inner) (may : frame.Loose ∨ levelled)
    (within : expression.Within frame) : Respects frame (applyCall inner expression) (·.Within frame) := by
  unfold applyCall
  dsimp only
  split
  · exact .raise _ _
  · next header _ =>
    refine .seq .get fun _ => .get_bind fun machine holds => .bind Eval.respects_trackValues fun array above => ?_
    refine .seq (leaves_readArguments framed may _ above _ _) fun arguments => ?_
    split
    · exact .raise _ _
    · next body some_body =>
      have runs : Leaves frame (runBody body header arguments.1 expression.start) :=
        leaves_runBody (framed.body body some_body) _ _ _
      refine .seq (.always runs.nested fun after kept => ?_) fun value => ?_
      · exact kept.withRoots (Roots.release_release holds.size_le)
      · exact .seq (.track _) fun _ => .pure within
  · exact .raise _ _

theorem respects_tryArm (framed : Inner.Framed levelled inner) (loose : frame.Loose)
    (nowhere : expression.destination? = none) : Respects frame (tryArm inner expression) (·.destination? = none) := by
  have acts (action : BranchAction) : Leaves frame (modify fun machine : Machine κ =>
      { machine with memory := { machine.memory with stack := machine.memory.stack.setAction action } }) :=
    fun _ holds => holds.withBlocks loose (.modifyBranches _ _)
  unfold tryArm
  refine .seq (acts _) fun _ => .seq (.always (framed.argument (.inl loose) _).leaves fun _ holds =>
    holds.withBlocks loose (.modifyBranches _ _)) fun condition => ?_
  dsimp only
  split
  · exact .raise _ _
  · split
    · exact .seq (acts _) fun _ => .pure nowhere
    · exact .pure nowhere
  · exact .raise _ _

theorem respects_skip (framed : Inner.Framed levelled inner) (loose : frame.Loose)
    (nowhere : expression.destination? = none) : Respects frame (skip inner expression) (·.Within frame) := by
  unfold skip
  refine .seq .get fun machine => .seq (.byteAt _) fun byte => ?_
  extract_lets goesOn
  have rest (expression : Expression) (nowhere : expression.destination? = none) :
      Respects frame (goesOn expression) (·.Within frame) :=
    .get_bind fun _ _ => .pure (Expression.within_of_none nowhere)
  split
  · exact .seq (.onMemory _ (Memory.holds_pushBranch loose _ _)) fun _ => rest _ nowhere
  · exact .seq (.onMemory _ (Memory.holds_pushBranch loose _ _)) fun _ => rest _ nowhere
  · exact .seq (.onMemory _ (Memory.holds_pushBranch loose _ _)) fun _ => rest _ nowhere
  · split
    · exact .bind (respects_tryArm framed loose nowhere) rest
    · exact rest _ nowhere
  · split
    · exact .seq (.onStack loose fun _ => .modifyBranches _ _) fun _ => rest _ nowhere
    · exact rest _ nowhere
  · refine .seq (.onStack loose .popBranch) fun popped => ?_
    split
    · exact rest _ nowhere
    · exact .bind (.raise _ _) rest
  · exact rest _ nowhere

end Inner

theorem leaves_openBlock (loose : frame.Loose) (start : Address) (condition : Value) (action : Bool → BranchAction)
    (address : Address) : Leaves frame (openBlock start condition action address : Eval κ Unit) := by
  unfold openBlock
  split
  · exact .onMemory _ (Memory.holds_pushBranch loose _ _)
  · exact .raise _ _

theorem respects_closeBlock (loose : frame.Loose) (nowhere : expression.destination? = none) :
    Respects frame (closeBlock expression : Eval κ Expression) (·.Within frame) := by
  unfold closeBlock
  refine .seq .get fun machine => .seq (.onStack loose .popBranch) fun popped => ?_
  split
  · split
    · exact .pure (Expression.within_of_none nowhere)
    · exact .pure (Expression.within_of_none nowhere)
  · refine .seq .get fun _ => ?_
    split
    · exact .raise _ _
    · exact .throw _

theorem respects_define (loose : frame.Loose) (nowhere : expression.destination? = none) :
    Respects frame (define expression : Eval κ Expression) (·.Within frame) := by
  have writes (place : VariableRef) (visible : frame.Visible place) : Respects frame (do
      (Destination.variable place).write .kept (.function expression.start) expression.start
      Eval.onMemory expression.start (Memory.pushBranch .ignoreHard 0)
      return expression : Eval κ Expression) (·.Within frame) :=
    .seq (Destination.leaves_writeVariable visible _ _ _) fun _ =>
      .seq (.onMemory _ (Memory.holds_pushBranch loose _ _)) fun _ => .pure (Expression.within_of_none nowhere)
  unfold define
  refine .seq (leaves_readName _) fun name => .get_bind fun machine holds => ?_
  dsimp only
  split
  · next place found =>
    have visible := ScopeStack.Framed.visible_of_find? found
    rw [holds.stack.depth] at visible
    exact writes place visible
  · exact .bind (.onMemoryAs (Memory.holds_createVariable _ _)) writes

theorem respects_control (loose : frame.Loose) (function : Control) (argument : Value)
    (nowhere : expression.destination? = none) :
    Respects frame (control function argument expression : Eval κ Expression) (·.Within frame) := by
  have same {code : Address} : Expression.Within frame { expression with code } := Expression.within_of_none nowhere
  cases function with
  | leave | answer | quit => exact .throw _
  | whenTrue | loop => exact .seq (leaves_openBlock loose _ _ _ _) fun _ => .pure same
  | otherwiseWhen | otherwise => exact .seq (.onStack loose fun _ => .modifyBranches _ _) fun _ => .pure same
  | leaveLoop =>
      refine .seq (.onStack loose .breakLoop) fun found => ?_
      split
      · exact .pure same
      · exact .raise _ _
  | nextRound =>
      refine .seq (.onStack loose .continueLoop) fun found => ?_
      split
      · exact .pure same
      · exact .raise _ _
  | close => exact respects_closeBlock loose nowhere
  | define => exact respects_define loose nowhere

@[grind ←]
theorem leaves_numberOf (value : Value) (start : Address) : Leaves frame (numberOf value start : Eval κ Float32) := by
  unfold numberOf
  grind

@[grind ←]
theorem leaves_indexOf (value : Value) (start : Address) : Leaves frame (indexOf value start : Eval κ Int) := by
  unfold indexOf
  grind

@[grind ←]
theorem leaves_bytesOf (value : Value) (start : Address) :
    Leaves frame (bytesOf value start : Eval κ (List UInt8)) := by
  unfold bytesOf
  grind

@[grind ←]
theorem leaves_draw : Leaves frame (draw : Eval κ Nat) :=
  fun _ holds => holds

@[grind ←]
theorem leaves_randomBetween (lowest highest : Int32) (start : Address) :
    Leaves frame (randomBetween lowest highest start : Eval κ Float32) := by
  unfold randomBetween
  grind

theorem leaves_applyMath (function : MathFunction) (arguments : List Value) (start : Address) :
    Leaves frame (applyMath function arguments start : Eval κ Value) := by
  unfold applyMath
  cases function <;> grind

@[grind ←]
theorem leaves_stringOf (text : String) (start : Address) : Leaves frame (stringOf text start : Eval κ Value) := by
  unfold stringOf
  grind

theorem leaves_applyValue (function : ValueFunction) (arguments : List Value) (start : Address) :
    Leaves frame (applyValue function arguments start : Eval κ Value) := by
  unfold applyValue
  cases function <;> grind

@[grind ←]
theorem leaves_shownText (value : Value) (start : Address) : Leaves frame (shownText value start : Eval κ String) := by
  unfold shownText
  grind

theorem leaves_mapM {each : α → Eval κ β} (leaves : ∀ item, Leaves frame (each item)) (items : List α) :
    Leaves frame (items.mapM each) := by
  induction items with
  | nil => exact .pure _
  | cons item rest ih =>
      rw [List.mapM_cons]
      exact .bind (leaves item) fun _ => .bind ih fun _ => .pure _

theorem leaves_applyFile {levelled : Prop} (framed : Inner.Framed levelled inner) (may : frame.Loose ∨ levelled)
    (function : FileFunction) (arguments : List Value) (start : Address) :
    Leaves frame (applyFile inner function arguments start) := by
  have code (address : Address) := framed.code frame address may
  unfold applyFile
  refine .bind (leaves_bytesOf _ _) fun name => .bind .get fun machine => ?_
  split
  case h_7 =>
    refine .bind (leaves_indexOf _ _) fun index => .bind (leaves_indexOf _ _) fun amount => ?_
    grind
  case h_9 => exact .bind (code _) fun _ => .pure _
  all_goals grind

theorem leaves_readFunctionArguments {levelled : Prop} (framed : Inner.Framed levelled inner)
    (may : frame.Loose ∨ levelled) (start : Address) {array : Nat} (above : frame.roots.size ≤ array)
    (isDefinition : Bool) (count : Nat) (address : Address) :
    Leaves frame (readFunctionArguments inner start array isDefinition count address) := by
  have argument (start : Address) := (framed.argument may start).leaves
  induction count generalizing address with
  | zero => exact .pure _
  | succ count ih =>
      refine .bind (argument _) fun argument => ?_
      split
      · exact .raise _ _
      · refine .bind (.trackIn above _) fun _ => ?_
        split
        · exact .pure _
        · refine .bind (.byteAt _) fun byte => ?_
          split
          · exact .raise _ _
          · exact .bind (ih _) fun rest => .pure _

section Console

variable [Console κ] {levelled : Prop}

theorem leaves_showMenu (title options : Value) (start : Address) :
    Leaves frame (showMenu title options start : Eval κ Value) := by
  have labels (values : List Value) : Leaves frame (values.mapM (shownText · start) : Eval κ (List String)) :=
    leaves_mapM (fun value => leaves_shownText value start) values
  unfold showMenu
  dsimp only
  split
  · refine .bind (by grind) fun title => ?_
    split
    · refine .bind (by grind) fun values => ?_
      grind
    · exact .raise _ _
  · exact .raise _ _

theorem leaves_applyConsole (function : ConsoleFunction) (arguments : List Value) (start : Address) :
    Leaves frame (applyConsole function arguments start : Eval κ Value) := by
  have menu (title options : Value) : Leaves frame (showMenu title options start : Eval κ Value) :=
    leaves_showMenu title options start
  unfold applyConsole
  cases function <;> grind

theorem respects_applyBuiltin (framed : Inner.Framed levelled inner) (builtin : Builtin) {isStatement : Bool}
    (may : frame.Loose ∨ levelled ∧ isStatement = false) (nowhere : expression.destination? = none) :
    Respects frame (applyBuiltin inner builtin expression isStatement) (·.Within frame) := by
  have inside : frame.Loose ∨ levelled := may.imp_right And.left
  unfold applyBuiltin
  refine .seq .get fun machine => .bind Eval.respects_trackValues fun array above => ?_
  refine .seq (leaves_readFunctionArguments framed inside _ above _ _ _) fun arguments => ?_
  cases builtin with
  | control function =>
      dsimp only
      split
      · next statement =>
        have loose : frame.Loose := may.resolve_right fun no => by simp [no.2] at statement
        exact respects_control loose function _ nowhere
      · exact .raise _ _
  | math function => exact .seq (leaves_applyMath _ _ _) fun value => .pure (Expression.within_of_none nowhere)
  | value function => exact .seq (leaves_applyValue _ _ _) fun value => .pure (Expression.within_of_none nowhere)
  | console function => exact .seq (leaves_applyConsole _ _ _) fun value => .pure (Expression.within_of_none nowhere)
  | file function =>
      exact .seq (leaves_applyFile framed inside _ _ _) fun value => .pure (Expression.within_of_none nowhere)

theorem respects_readPrimary (framed : Inner.Framed levelled inner) {isStatement : Bool}
    (may : frame.Loose ∨ levelled ∧ isStatement = false) (nowhere : expression.destination? = none) :
    Respects frame (readPrimary inner expression isStatement) (·.Within frame) := by
  have inside : frame.Loose ∨ levelled := may.imp_right And.left
  unfold readPrimary
  refine .seq (.byteAt _) fun byte => ?_
  split
  · exact respects_readNumberLiteral nowhere
  split
  · exact respects_readVariable nowhere
  split
  · exact respects_readCharacterLiteral nowhere
  split
  · exact respects_readStringLiteral nowhere
  split
  · exact respects_readListLiteral framed inside nowhere
  split
  · exact respects_readParenthesis framed inside _
  split
  · exact respects_applyBuiltin framed _ may nowhere
  · exact respects_applyUnary framed inside _ nowhere
  · exact .raise _ _

omit [Console κ] in
theorem respects_readRest (framed : Inner.Framed levelled inner) (may : frame.Loose ∨ levelled) (ceiling steps : Nat)
    (within : expression.Within frame) : Respects frame (readRest inner ceiling steps expression) (·.Within frame) := by
  induction steps generalizing expression with
  | zero => exact .throw _
  | succ steps ih =>
      refine .seq (.track _) fun _ => .seq (.byteAt _) fun byte => ?_
      split
      · exact .bind (respects_applyStep _ within) fun _ => ih
      split
      · exact .bind (respects_applyIndex framed may _) fun _ => ih
      split
      · exact .bind (respects_applyCall framed may within) fun _ => ih
      split
      · split
        · exact .bind (respects_applyBinary framed may _ within) fun _ => ih
        · exact .pure within
      · exact .pure within

theorem respects_frame (framed : Inner.Framed levelled inner) (start : Address) (ceiling : Nat) {isStatement : Bool}
    (may : frame.Loose ∨ levelled ∧ isStatement = false) :
    Respects frame (Machine.frame inner start ceiling isStatement) (·.Within frame) := by
  refine .get_bind fun machine holds => ?_
  split
  · next ignored =>
    -- Where blocks are fixed, statements run.
    refine respects_skip framed (Option.eq_none_iff_forall_ne_some.mpr fun blocks fixed => ?_) rfl
    simp [(holds.blocks blocks fixed).2] at ignored
  · exact .bind (respects_readPrimary framed may rfl) fun _ => respects_readRest framed (may.imp_right And.left) _ _

omit [Console κ] in
/-- Evaluation that releases what it registers works in a frame of its own. -/
theorem respects_releasing {evaluation : Eval κ Expression}
    (respects : ∀ frame' : MemoryFrame, frame'.blocks? = frame.blocks? → Respects frame' evaluation (·.Within frame')) :
    Respects frame (Eval.releasing evaluation) (·.Within frame) := by
  intro machine holds
  let own : MemoryFrame := .ofMemory machine.memory frame.blocks?
  have kept {after : Memory} (kept : own.Holds after) :
      frame.Holds { after with roots := Roots.release after.roots machine.memory.roots.size } :=
    holds.trans (kept.withRoots (Roots.release_release (Nat.le_refl _))) kept.roots
  have within (result : Expression) (within : result.Within own) : result.Within frame := by
    intro place here
    have visible := within place here
    unfold MemoryFrame.Visible at visible ⊢
    rw [← holds.stack.depth]
    exact visible
  have ends := respects own rfl machine (.ofMemory holds.blocks)
  unfold Eval.releasing
  simp only [Bind.bind, EStateM.bind, get, getThe, MonadStateOf.get, EStateM.get, Eval.always]
  cases ran : evaluation machine with
  | ok result after =>
      rw [ran] at ends
      exact ⟨kept ends.1, within result ends.2⟩
  | error interrupt after =>
      rw [ran] at ends
      exact kept ends

omit [Console κ] in
theorem leaves_collect : Leaves frame (collect : Eval κ Unit) :=
  fun _ holds => holds.withHeap _

theorem leaves_betweenStatements : Leaves frame (betweenStatements : Eval κ Unit) := by
  have collects : Leaves frame (collect : Eval κ Unit) := leaves_collect
  unfold betweenStatements
  refine .bind (fun _ holds => holds) fun _ => .bind .get fun machine => ?_
  grind

omit [Console κ] in
theorem leaves_orAnswer {statement : Eval κ Expression} {next : Expression → Eval κ Value}
    (one : Leaves frame statement) (two : ∀ expression, Leaves frame (next expression)) :
    Leaves frame (orAnswer statement next) := by
  intro machine holds
  have first := one machine holds
  unfold orAnswer
  cases ran : statement machine with
  | ok expression after =>
      rw [ran] at first
      exact two expression after first
  | error interrupt after =>
      rw [ran] at first
      cases interrupt with
      | answer value | quit | unfinished => exact first

theorem leaves_runCode {statement : Address → Eval κ Expression} (leaves : ∀ address, Leaves frame (statement address))
    (steps : Nat) (address : Address) : Leaves frame (runCode statement steps address) := by
  induction steps generalizing address with
  | zero => exact .throw _
  | succ steps ih =>
      refine .bind (.byteAt _) fun byte => ?_
      split
      · exact ih _
      split
      · exact .pure _
      · exact leaves_orAnswer (leaves address) fun expression => .bind leaves_betweenStatements fun _ => ih _

/-- If all that has fewer levels left leaves frames alone. -/
theorem framed_innerOf {steps levels : Nat}
    (respects : ∀ lower ≤ levels, ∀ frame : MemoryFrame, ∀ start ceiling isStatement, frame.Loose →
      Respects frame (evaluate (κ := κ) steps lower start ceiling isStatement) (·.Within frame)) :
    Inner.Framed False (innerOf (κ := κ) steps levels) := by
  have code (lower : Nat) (fewer : lower ≤ levels) (frame : MemoryFrame) (address : Address) (loose : frame.Loose) :=
    leaves_runCode (fun address => (respects lower fewer frame address Inner.statementCeiling true loose).leaves) steps
      address
  refine ⟨fun frame start ceiling isStatement may => ?_, fun frame address may => ?_, ?_⟩
  · exact respects levels (Nat.le_refl _) frame start ceiling isStatement (may.resolve_right And.left)
  · exact code levels (Nat.le_refl _) frame address (may.resolve_right id)
  · intro body some_body frame address loose
    obtain ⟨lower, less, rfl⟩ := runCode_of_body? some_body
    exact code lower (Nat.le_of_lt less) frame address loose

/-- Evaluation leaves every frame alone that does not fix blocks. -/
theorem respects_evaluate (steps levels : Nat) (loose : frame.Loose) (start : Address) (ceiling : Nat)
    (isStatement : Bool) :
    Respects frame (evaluate (κ := κ) steps levels start ceiling isStatement) (·.Within frame) := by
  induction levels using Nat.strongRecOn generalizing frame start ceiling isStatement with
  | ind levels ih =>
      cases levels with
      | zero =>
          rw [evaluate_zero]
          exact .raise _ _
      | succ levels =>
          rw [evaluate_succ]
          have inside := framed_innerOf fun lower fewer frame start ceiling isStatement loose =>
            ih lower (Nat.lt_succ_of_le fewer) loose start ceiling isStatement
          exact respects_releasing fun frame' same =>
            respects_frame inside start ceiling (.inl (same.trans loose))

end Console

end Machine

end PocketScript
