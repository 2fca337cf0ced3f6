import PocketScript.Proofs.Copies.Coinciding
import PocketScript.Proofs.Schedule.Spending

/-! # What coincides

All evaluation of known code coincides on copies, and goes on in known code. It also
goes on in the slot that it started in, but for the end of a block and the next round
of a loop, which can go back to the header of any loop that is open.
-/

namespace PocketScript

variable {κ α β : Type} {copies later : Copies} {own? : Option Address}

open Eval (Quiet Leading Still Coincides)
open MemoryM (Leads)

/-- An expression of known code has a value that leads to known code, and code goes
    on behind it. -/
structure Expression.Known (copies : Copies) (own? : Option Address) (expression : Expression) : Prop where
  start : copies.Knows none expression.start
  code : copies.Knows own? expression.code
  value : expression.value.LeadsTo (copies.Knows none)

namespace Expression

variable {expression : Expression}

theorem Known.mono (more : copies ≤ later) (known : expression.Known copies own?) : expression.Known later own? :=
  ⟨known.start.mono more, known.code.mono more, known.value.mono fun _ => .mono more⟩

theorem known_starting {start : Address} (known : copies.Knows own? start) : (starting start).Known copies own? :=
  ⟨known.anywhere, known, trivial⟩

end Expression

attribute [grind ←] Memory.leads_createString Memory.leads_insertElement Memory.leads_insertSequence
  Memory.leads_removeSlice Memory.leads_copySlice Memory.leads_copySequence Memory.leads_concatenate

namespace Value

@[grind ←]
theorem leadsTo_number {known : Address → Prop} (number : Float32) : (Value.number number).LeadsTo known :=
  trivial

@[grind ←]
theorem leadsTo_string {known : Address → Prop} (cell : Handle) : (Value.string cell).LeadsTo known :=
  trivial

@[grind ←]
theorem leadsTo_missing {known : Address → Prop} : Value.missing.LeadsTo known :=
  trivial

end Value

namespace Destination

variable {address : Address} {value : Value}

theorem leading_read (destination : Destination) (hold : Hold) (known : copies.Knows none address) :
    Leading copies (destination.read hold address : Eval κ Value) := by
  cases destination with
  | «variable» place =>
      refine Still.onMemory known (.look fun memory value leads found => ?_)
      split at found
      · next here => exact Except.ok.inj found ▸ Memory.leads_variableValue? leads here
      · cases found
  | element list index => exact Still.onMemoryAs known (Memory.leads_lookElement list index)
  | character string index => exact .bind (.onMemoryAs _ known (.lookAny _)) fun byte => .pure trivial

theorem quiet_write (destination : Destination) (hold : Hold) (known : copies.Knows none address)
    (new : value.LeadsTo (copies.Knows none)) : Quiet copies (destination.write hold value address : Eval κ Unit) := by
  cases destination with
  | «variable» place => exact .onMemory known (Memory.leads_setVariable place new)
  | element list index => exact .onMemoryAs _ known (Memory.leads_setElement list index new)
  | character string index =>
      unfold write
      dsimp only
      split
      · exact .onMemoryAs _ known (Memory.leads_setByte _ _ _)
      · exact .raise _ known

end Destination

namespace Machine

variable {expression : Expression} {inner : Inner κ} {start address : Address} {value : Value}

theorem still_readName (known : copies.Knows own? address) :
    Still copies (readName address : Eval κ (String × Address)) fun name => copies.Knows own? name.2 := by
  obtain ⟨same, behind⟩ := known.name?
  refine .get_bind (fun machine works => ?_) fun machine works => ?_
  · simp only [withStore, works.store, same]
  · rw [works.store]
    split
    · exact .raise _ known
    · exact .raise _ known
    · next bytes _ read => exact .pure (behind bytes read)

theorem still_readVariable (known : copies.Knows own? expression.start) (leads : expression.Known copies own?) :
    Still copies (readVariable expression : Eval κ Expression) (·.Known copies own?) := by
  unfold readVariable
  refine (still_readName known).bind fun name behind => .get_bind (fun _ _ => rfl) fun machine works => ?_
  dsimp only
  split
  · next place found =>
    refine .pure ⟨leads.start, behind, ?_⟩
    cases here : machine.memory.variableValue? place with
    | none => trivial
    | some value => exact Memory.leads_variableValue? works.memory here
  · exact .pure ⟨leads.start, behind, leads.value⟩

theorem still_readNumberLiteral (behind : copies.Knows own? (expression.start + 1))
    (known : expression.Known copies own?) :
    Still copies (readNumberLiteral expression : Eval κ Expression) (·.Known copies own?) := by
  obtain ⟨same, further⟩ := behind.restOfNumber? (Store.numberLiteralLimit - 1) 0
  refine .get_bind (fun machine works => ?_) fun machine works => ?_
  · simp only [withStore, works.store, same, known.start.byte_eq]
  · dsimp only
    rw [works.store]
    split
    · exact .raise _ known.start
    · next rest read => exact .pure ⟨known.start, further rest read, trivial⟩

/-- A character literal that is closed at `close`. -/
theorem still_closed {character : Address} (known : expression.Known copies own?) (first : copies.Knows own? character)
    (cut : copies.original.byte character = 0 → copies.original.CutsOff expression.start) (value : Float32)
    {machine : Machine κ} (works : machine.WorksOn copies) :
    Eval.Coincident (· = copies) (fun _ => Expression.Known copies own?)
      ((if copies.original.byte (character + 1) ≠ 0x27 then Eval.raise .missingApostrophe expression.start
        else return { expression with code := character + 1 + 1, value := .number value } : Eval κ Expression) machine)
      ((if copies.copy.byte (character + 1) ≠ 0x27 then Eval.raise .missingApostrophe expression.start
        else return { expression with code := character + 1 + 1, value := .number value } : Eval κ Expression)
        (machine.withStore copies.copy)) := by
  rcases first.behind with ⟨same, goesOn⟩ | ⟨zero, other⟩
  · rw [same]
    split
    · exact Still.raise _ known.start machine works
    · next closed => exact Still.pure ⟨known.start, goesOn (not_not.mp closed), trivial⟩ machine works
  · rw [if_pos other]
    exact .cutOff ⟨expression.start, rfl, works.store ▸ cut zero⟩

/-- Only here code is read behind the zero that closes it. -/
theorem still_readCharacterLiteral (behind : copies.Knows own? (expression.start + 1))
    (quote : copies.original.byte expression.start = 0x27) (known : expression.Known copies own?) :
    Still copies (readCharacterLiteral expression : Eval κ Expression) (·.Known copies own?) := by
  intro machine works
  simp only [readCharacterLiteral, Bind.bind, EStateM.bind, get, getThe, MonadStateOf.get, EStateM.get, withStore,
    works.store, behind.byte_eq]
  by_cases escaped : copies.original.byte (expression.start + 1) = 0x5c
  · have second := behind.next_of_eq escaped (by decide)
    simp only [if_pos escaped, second.byte_eq]
    exact still_closed known second (fun zero => ⟨quote, .inr ⟨escaped, zero⟩⟩) _ works
  · simp only [if_neg escaped]
    exact still_closed known behind (fun zero => ⟨quote, .inl zero⟩) _ works

theorem still_readStringLiteral (behind : copies.Knows own? (expression.start + 1))
    (known : expression.Known copies own?) :
    Still copies (readStringLiteral expression : Eval κ Expression) (·.Known copies own?) := by
  obtain ⟨same, further⟩ := behind.restOfString? (Store.capacity - (expression.start + 1)) false
  refine .get_bind (fun machine works => ?_) fun machine works => ?_
  · simp only [withStore, works.store, same]
  · rw [works.store]
    split
    · exact .raise _ known.start
    · next bytes code read =>
      exact (Still.onMemory known.start (Memory.leads_createString bytes)).bind fun cell _ =>
        .pure ⟨known.start, further bytes code read, trivial⟩

theorem leading_combine (operator : Combination) (left right : Value) (known : copies.Knows none start) :
    Leading copies (combine operator left right start : Eval κ Value) := by
  unfold combine
  grind

theorem leading_compare (operator : Comparison) (left right : Value) (known : copies.Knows none start) :
    Leading copies (compare operator left right start : Eval κ Value) := by
  unfold compare
  grind

theorem still_assign (known : expression.Known copies own?) (new : value.LeadsTo (copies.Knows none)) :
    Still copies (assign expression value : Eval κ Expression) (·.Known copies own?) := by
  unfold assign
  dsimp only
  split
  · next destination here =>
    exact Still.bind (destination.quiet_write _ known.start new) fun _ _ => .pure known
  · refine (still_readName known.start).bind fun name _ => ?_
    have creates : Quiet copies
        (Eval.onMemory expression.start (Memory.createVariable name.1 .missing) : Eval κ VariableRef) :=
      .onMemory known.start (Memory.leads_createVariable _ trivial)
    refine Still.bind creates fun place _ => ?_
    exact Still.bind (Destination.quiet_write _ _ known.start new) fun _ _ =>
      .pure ⟨known.start, known.code, known.value⟩

theorem still_update (operator : Combination) (known : expression.Known copies own?) (right : Value) :
    Still copies (update operator expression right : Eval κ Expression) (·.Known copies own?) := by
  unfold update
  dsimp only
  split
  · exact .raise _ known.start
  · next destination here =>
    refine Still.bind (destination.leading_read _ known.start) fun current _ => ?_
    split
    · split
      · refine Still.bind (Quiet.viewMemory _ known.start) fun length _ => ?_
        exact Still.bind (Quiet.onMemory known.start (Memory.leads_insertSequence _ _ _)) fun _ _ => .pure known
      · exact .raise _ known.start
    · split
      · exact Still.bind (destination.quiet_write _ known.start trivial) fun _ _ => .pure known
      · exact .raise _ known.start
    · exact .raise _ known.start

/-- A step is one byte, which is not the end of code. -/
theorem still_applyStep (direction : Step) (known : expression.Known copies own?)
    (behind : copies.Knows own? (expression.code + 1)) :
    Still copies (applyStep direction expression : Eval κ Expression) (·.Known copies own?) := by
  unfold applyStep
  dsimp only
  split
  · split
    · exact .raise _ known.start
    · next destination here =>
      exact Still.bind (destination.quiet_write _ known.start trivial) fun _ _ =>
        .pure ⟨known.start, behind, known.value⟩
  · exact .raise _ known.start

theorem quiet_select (sequence : Value) (index : Float32) (known : copies.Knows none start) :
    Quiet copies (select sequence index start : Eval κ Destination) := by
  unfold select
  grind

/-- What can be evaluated one level further in coincides. -/
structure Inner.Coinciding (inner : Inner κ) : Prop where
  expression : ∀ (copies : Copies) (own? : Option Address) (start : Address) (ceiling : Nat), copies.Knows own? start →
    Coincides copies (inner.expression start ceiling false) fun later => Expression.Known later own?
  code : ∀ (copies : Copies) (address : Address), copies.Knows none address →
    Coincides copies (inner.code address) fun later value => value.LeadsTo (later.Knows none)
  body : ∀ body, inner.body? = some body → ∀ (copies : Copies) (address : Address), copies.Knows none address →
    Coincides copies (body address) fun later value => value.LeadsTo (later.Knows none)

section Inner

variable (coinciding : Inner.Coinciding inner)
include coinciding

theorem Inner.Coinciding.argument (known : copies.Knows own? start) :
    Coincides copies (inner.argument start) fun later => Expression.Known later own? :=
  coinciding.expression copies own? start _ known

theorem coincides_readElements (known : copies.Knows none start) (list : Value) (steps : Nat)
    (code : copies.Knows own? address) (index : Nat) :
    Coincides copies (readElements inner start list steps address index) fun later => later.Knows own? := by
  induction steps generalizing copies address index with
  | zero => exact Still.unfinished.coincides
  | succ steps ih =>
      refine .byteAt_bind code ?_
      split
      · exact (Still.raise _ known).coincides
      split
      · next close => exact (Still.pure (code.next_of_eq close (by decide))).coincides
      have element : copies.Knows own? (if copies.original.byte address = 0x2c then address + 1 else address) := by
        split
        · next comma => exact code.next_of_eq comma (by decide)
        · exact code
      refine (coinciding.argument element).bind fun later more element known' => ?_
      have known := known.mono more
      split
      · exact (Still.raise _ known).coincides
      · refine Still.then (Quiet.onMemory known (Memory.leads_insertElement _ _ known'.value)) fun _ _ => ?_
        exact ih known known'.code _

theorem coincides_readListLiteral (behind : copies.Knows own? (expression.start + 1))
    (known : expression.Known copies own?) :
    Coincides copies (readListLiteral inner expression) fun later => Expression.Known later own? := by
  refine Still.then (Quiet.onMemory known.start (Memory.leads_createList nofun)) fun list _ => ?_
  refine Still.then (Quiet.track _) fun _ _ => ?_
  refine (coincides_readElements coinciding known.start _ _ behind _).bind fun later more code known' => ?_
  exact (Still.pure ⟨known.start.mono more, known', trivial⟩).coincides

/-- An operator is one byte, which is not the end of code. -/
theorem coincides_applyBinary (operator : BinaryOperator) (known : expression.Known copies own?)
    (behind : copies.Knows own? (expression.code + 1)) :
    Coincides copies (applyBinary inner operator expression) fun later => Expression.Known later own? := by
  unfold applyBinary
  refine Still.then (Quiet.track _) fun _ _ => ?_
  refine (coinciding.expression copies own? _ _ behind).bind fun later more right known' => ?_
  refine Still.then (Quiet.track _) fun _ _ => ?_
  have start := known.start.mono more
  split
  · exact (Still.raise _ start).coincides
  · have left : Expression.Known later own? { expression with code := right.code, hold := expression.hold.outlast } :=
      ⟨start, known'.code, (known.mono more).value⟩
    refine Still.coincides ?_
    cases operator with
    | assign => exact still_assign left known'.value
    | update operator => exact still_update operator left _
    | combine operator =>
        exact Still.bind (leading_combine operator _ _ start) fun value leads => .pure ⟨start, known'.code, leads⟩
    | compare operator =>
        exact Still.bind (leading_compare operator _ _ start) fun value leads => .pure ⟨start, known'.code, leads⟩

theorem coincides_applyUnary (operator : UnaryOperator) (known : expression.Known copies own?)
    (behind : copies.Knows own? (expression.code + 1)) :
    Coincides copies (applyUnary inner operator expression) fun later => Expression.Known later own? := by
  unfold applyUnary
  refine (coinciding.expression copies own? _ _ behind).bind fun later more operand known' => Still.coincides ?_
  have start := known.start.mono more
  dsimp only
  split
  · exact .raise _ start
  · cases operator with
    | negate | not | complement => exact .pure ⟨start, known'.code, trivial⟩
    | step direction =>
        dsimp only
        split
        · exact .raise _ start
        · next destination here =>
          refine Still.bind (destination.quiet_write _ start trivial) fun _ _ => ?_
          exact Still.bind (destination.leading_read _ start) fun value leads => .pure ⟨start, known'.code, leads⟩
  · exact .raise _ start

theorem coincides_readParenthesis (behind : copies.Knows own? (expression.start + 1))
    (known : expression.Known copies own?) :
    Coincides copies (readParenthesis inner expression) fun later => Expression.Known later own? := by
  unfold readParenthesis
  refine (coinciding.argument behind).bind fun later more inside known' => Still.coincides (.byteAt_bind known'.code ?_)
  have start := known.start.mono more
  split
  · exact .raise _ start
  · next closed => exact .pure ⟨start, known'.code.next_of_eq (not_not.mp closed) (by decide), known'.value⟩

theorem coincides_applyIndex (known : expression.Known copies own?) (behind : copies.Knows own? (expression.code + 1)) :
    Coincides copies (applyIndex inner expression) fun later => Expression.Known later own? := by
  unfold applyIndex
  dsimp only
  split
  · exact (Still.raise _ known.start).coincides
  · refine (coinciding.argument behind).bind fun later more index known' => Still.coincides ?_
    have start := known.start.mono more
    split
    · exact .raise _ start
    · refine .byteAt_bind known'.code ?_
      split
      · exact .raise _ start
      · next closed =>
        split
        · refine Still.bind (quiet_select _ _ start) fun destination _ => ?_
          refine Still.bind (Quiet.track _) fun _ _ =>
            Still.bind (destination.leading_read _ start) fun value leads => ?_
          exact .pure ⟨start, known'.code.next_of_eq (not_not.mp closed) (by decide), leads⟩
        · exact .raise _ start

theorem coincides_readArguments (known : copies.Knows none start) (array count : Nat)
    (code : copies.Knows own? address) :
    Coincides copies (readArguments inner start array count address) fun later arguments =>
      (∀ value ∈ arguments.1, value.LeadsTo (later.Knows none)) ∧ later.Knows own? arguments.2 := by
  induction count generalizing copies address with
  | zero => exact (Still.pure ⟨nofun, code⟩).coincides
  | succ count ih =>
      refine (coinciding.argument code).bind fun later more argument known' => ?_
      have known := known.mono more
      split
      · exact (Still.raise _ known).coincides
      · refine Still.then (Quiet.modifyRoots _) fun _ _ => .byteAt_bind known'.code ?_
        have behind : later.Knows own? (if later.original.byte argument.code = 0x2c then argument.code + 1
            else argument.code) := by
          split
          · next comma => exact known'.code.next_of_eq comma (by decide)
          · exact known'.code
        refine (ih known behind).bind fun last more' rest leads => (Still.pure ⟨?_, leads.2⟩).coincides
        exact List.forall_mem_cons.mpr ⟨known'.value.mono fun _ => .mono more', leads.1⟩

omit coinciding in
theorem still_bindParameters (known : copies.Knows none start) {arguments : List Value}
    (leads : ∀ value ∈ arguments, value.LeadsTo (copies.Knows none)) (code : copies.Knows own? address) :
    Still copies (bindParameters start arguments address : Eval κ Address) (copies.Knows own?) := by
  induction arguments generalizing address with
  | nil => exact .pure code
  | cons argument rest ih =>
      obtain ⟨same, behind⟩ := code.parameterAt
      refine .get_bind (fun machine works => ?_) fun machine works => ?_
      · simp only [withStore, works.store, same]
      · rw [works.store]
        dsimp only
        split
        · exact .raise _ known
        · have creates : Quiet copies (Eval.onMemory start (Memory.createVariable
              (nameOfBytes (copies.original.parameterAt address).1) argument) : Eval κ VariableRef) :=
            .onMemory known (Memory.leads_createVariable _ (leads argument List.mem_cons_self))
          exact Still.bind creates fun _ _ => ih (fun value mem => leads value (List.mem_cons_of_mem _ mem)) behind

theorem coincides_runBody {body : Address → Eval κ Value} (some_body : inner.body? = some body) {header : Address}
    (definition : copies.Knows none (header + 1)) {arguments : List Value}
    (leads : ∀ value ∈ arguments, value.LeadsTo (copies.Knows none)) (known : copies.Knows none start) :
    Coincides copies (runBody body header arguments start) fun later value => value.LeadsTo (later.Knows none) := by
  unfold runBody
  refine Still.then (Quiet.onMemory known Memory.leads_pushScope) fun scope _ => ?_
  refine .always (fun memory => { memory with stack := memory.stack.popScope }) ?_ fun _ _ leads =>
    ⟨leads.heap, leads.stack.popScope⟩
  refine Still.then (Quiet.onMemory known (Memory.leads_pushBranch nofun)) fun _ _ => ?_
  refine Still.then (Quiet.modifyRoots _) fun _ _ => ?_
  obtain ⟨same, first⟩ := definition.parameterAt
  refine .get_bind (fun machine works => ?_) fun machine works => ?_
  · simp only [withStore, works.store, same]
  · rw [works.store]
    exact (still_bindParameters known leads first).then fun code known =>
      coinciding.body body some_body copies code known

theorem coincides_applyCall (known : expression.Known copies own?) (behind : copies.Knows own? (expression.code + 1)) :
    Coincides copies (applyCall inner expression) fun later => Expression.Known later own? := by
  unfold applyCall
  dsimp only
  split
  · exact (Still.raise _ known.start).coincides
  · next header function =>
    have definition : copies.Knows none (header + 1) := by
      have leads := known.value
      rw [function] at leads
      exact leads
    refine .get_bind (fun machine works => ?_) fun machine works => ?_
    · simp only [withStore, works.store, definition.parameterCount_eq]
    refine .get_bind (fun _ _ => rfl) fun machine' _ => Still.then Quiet.trackValues fun array _ => ?_
    refine (coincides_readArguments coinciding known.start _ _ behind).bind fun later more arguments leads => ?_
    have start := known.start.mono more
    split
    · exact (Still.raise _ start).coincides
    · next body some_body =>
      have run := coincides_runBody coinciding some_body (definition.mono more) leads.1 start
      refine (run.nested.always (fun memory =>
        { memory with roots := Roots.release memory.roots machine'.memory.roots.size })
        fun _ _ leads => ⟨leads.heap, leads.stack⟩).bind fun last more' value leads' => ?_
      refine Still.then (Quiet.track _) fun _ _ => ?_
      exact (Still.pure ⟨start.mono more', leads.2.mono more', leads'⟩).coincides
  · exact (Still.raise _ known.start).coincides

omit coinciding in
theorem quiet_setAction (action : BranchAction) (still : action ≠ .loop) :
    Quiet copies (modify fun machine : Machine κ =>
      { machine with memory := { machine.memory with stack := machine.memory.stack.setAction action } }) :=
  Still.step (fun _ => rfl) (fun _ _ => rfl) (fun _ _ => rfl) fun _ works =>
    ⟨works.withMemory ⟨works.memory.heap, works.memory.stack.setAction still⟩, trivial⟩

theorem coincides_tryArm (known : expression.Known copies own?) (behind : copies.Knows own? (expression.start + 1)) :
    Coincides copies (tryArm inner expression) fun later => Expression.Known later own? := by
  unfold tryArm
  refine Still.then (quiet_setAction .run nofun) fun _ _ => ?_
  refine Coincides.bind (.always (fun memory => { memory with stack := memory.stack.setAction .ignoreSoft })
    (coinciding.argument behind) fun _ _ leads => ⟨leads.heap, leads.stack.setAction nofun⟩) ?_
  intro later more condition known'
  have start := known.start.mono more
  have done : Expression.Known later own? { expression with code := condition.code } :=
    ⟨start, known'.code, (known.mono more).value⟩
  refine Still.coincides ?_
  dsimp only
  split
  · exact .raise _ start
  · split
    · exact Still.bind (quiet_setAction .run nofun) fun _ _ => .pure done
    · exact .pure done
  · exact .raise _ start

theorem coincides_skip (start : copies.Knows own? expression.start) (known : expression.Known copies own?) :
    Coincides copies (skip inner expression) fun later => Expression.Known later own? := by
  unfold skip
  refine .get_bind (fun _ _ => rfl) fun machine _ => .byteAt_bind start ?_
  extract_lets goesOn
  -- However blocks are followed, the rest of the line is passed.
  have rest {copies : Copies} {expression : Expression} (known : expression.Known copies own?) :
      Coincides copies (goesOn expression) fun later => Expression.Known later own? := by
    refine .get_bind (fun machine works => ?_) fun machine works => ?_
    · simp only [withStore, works.store, known.code.lineEnd_eq]
    · rw [works.store]
      exact (Still.pure ⟨known.start, known.code.lineEnd, known.value⟩).coincides
  have pushes : Quiet copies (Eval.onMemory expression.start (Memory.pushBranch .ignoreHard 0) : Eval κ Unit) :=
    .onMemory known.start (Memory.leads_pushBranch fun loop => absurd loop (by decide))
  split
  · exact Still.then pushes fun _ _ => rest known
  · exact Still.then pushes fun _ _ => rest known
  · exact Still.then pushes fun _ _ => rest known
  · next arm =>
    split
    · have behind := start.next fun zero => by simp [zero, show Symbol.builtin? 0 = none from rfl] at arm
      exact (coincides_tryArm coinciding known behind).bind fun later more expression known => rest known
    · exact rest known
  · split
    · have sets : Quiet copies (Eval.onStack fun stack => ((), stack.setAction .run) : Eval κ Unit) :=
        Still.onStack fun _ leads => ⟨leads.setAction (by decide), trivial⟩
      exact Still.then sets fun _ _ => rest known
    · exact rest known
  · have pops : Quiet copies (Eval.onStack ScopeStack.popBranch : Eval κ Bool) :=
      Still.onStack fun _ leads => ⟨leads.popBranch, trivial⟩
    refine Still.then pops fun popped _ => ?_
    split
    · exact rest known
    · exact (Still.raise _ known.start).then fun _ => rest
  · exact rest known

end Inner

theorem quiet_openBlock (known : copies.Knows none start) (condition : Value) (action : Bool → BranchAction)
    (header : copies.Knows none address) : Quiet copies (openBlock start condition action address : Eval κ Unit) := by
  unfold openBlock
  split
  · refine .onMemory known (Memory.leads_pushBranch fun loop => ?_)
    rw [if_pos loop]
    exact header
  · exact .raise _ known

theorem still_closeBlock (known : expression.Known copies none) :
    Still copies (closeBlock expression : Eval κ Expression) (·.Known copies none) := by
  unfold closeBlock
  refine .get_bind (fun _ _ => rfl) fun machine works => ?_
  have pops : Quiet copies (Eval.onStack ScopeStack.popBranch : Eval κ Bool) :=
    Still.onStack fun _ leads => ⟨leads.popBranch, trivial⟩
  refine Still.bind pops fun popped _ => ?_
  split
  · split
    · next loop => exact .pure ⟨known.start, works.memory.stack.branch? loop, known.value⟩
    · exact .pure known
  · refine .get_bind (fun _ _ => rfl) fun machine' _ => ?_
    split
    · exact .raise _ known.start
    · exact .throw trivial

theorem still_define (known : expression.Known copies own?) (behind : copies.Knows own? (expression.start + 1)) :
    Still copies (define expression : Eval κ Expression) (·.Known copies own?) := by
  have writes (place : VariableRef) : Still copies (do
      (Destination.variable place).write .kept (.function expression.start) expression.start
      Eval.onMemory expression.start (Memory.pushBranch .ignoreHard 0)
      return expression : Eval κ Expression) (·.Known copies own?) :=
    Still.bind (Destination.quiet_write _ _ known.start behind.anywhere) fun _ _ =>
      Still.bind (Quiet.onMemory known.start (Memory.leads_pushBranch nofun)) fun _ _ => .pure known
  unfold define
  refine (still_readName behind).bind fun name _ => .get_bind (fun _ _ => rfl) fun machine works => ?_
  dsimp only
  split
  · exact writes _
  · exact Still.bind (Quiet.onMemory known.start (Memory.leads_createVariable _ trivial)) fun place _ => writes place

/-- Statements that can go back to the header of a loop, wherever that is. -/
def goesBack (builtin : Builtin) : Bool :=
  builtin == .control .close || builtin == .control .nextRound

theorem still_control (function : Control) {argument : Value}
    (free : goesBack (.control function) = true → own? = none) (leads : argument.LeadsTo (copies.Knows none))
    (known : expression.Known copies own?) (behind : copies.Knows own? (expression.start + 1)) :
    Still copies (control function argument expression : Eval κ Expression) (·.Known copies own?) := by
  have opens (action : Bool → BranchAction) :
      Quiet copies (openBlock expression.start argument action expression.start : Eval κ Unit) :=
    quiet_openBlock known.start argument action known.start
  have ignores : Quiet copies (Eval.onStack fun stack => ((), stack.setAction .ignoreHard) : Eval κ Unit) :=
    Still.onStack fun _ leads => ⟨leads.setAction nofun, trivial⟩
  have breaks : Quiet copies (Eval.onStack ScopeStack.breakLoop : Eval κ Bool) :=
    Still.onStack fun _ leads => ⟨leads.breakLoop, trivial⟩
  have returns : Still copies (Eval.onStack ScopeStack.continueLoop : Eval κ (Option Address))
      fun found => ∀ address, found = some address → copies.Knows none address :=
    Still.onStack fun _ leads => leads.continueLoop
  cases function with
  | leave => exact .throw trivial
  | answer => exact .throw leads
  | quit => exact .throw trivial
  | whenTrue | loop => exact Still.bind (opens _) fun _ _ => .pure known
  | otherwiseWhen | otherwise => exact Still.bind ignores fun _ _ => .pure known
  | leaveLoop =>
      refine Still.bind breaks fun found _ => ?_
      split
      · exact .pure known
      · exact .raise _ known.start
  | nextRound =>
      obtain rfl := free rfl
      refine returns.bind fun found header => ?_
      split
      · exact .pure ⟨known.start, header _ rfl, known.value⟩
      · exact .raise _ known.start
  | close =>
      obtain rfl := free rfl
      exact still_closeBlock known
  | define => exact still_define known behind

@[grind ←]
theorem quiet_numberOf (value : Value) (known : copies.Knows none start) :
    Quiet copies (numberOf value start : Eval κ Float32) := by
  unfold numberOf
  grind

@[grind ←]
theorem quiet_indexOf (value : Value) (known : copies.Knows none start) :
    Quiet copies (indexOf value start : Eval κ Int) := by
  unfold indexOf
  grind

@[grind ←]
theorem quiet_bytesOf (value : Value) (known : copies.Knows none start) :
    Quiet copies (bytesOf value start : Eval κ (List UInt8)) := by
  unfold bytesOf
  grind

@[grind ←]
theorem quiet_draw : Quiet copies (draw : Eval κ Nat) :=
  Still.step (fun _ => rfl) (fun _ _ => rfl) (fun _ _ => rfl) fun _ works =>
    ⟨⟨works.store, works.memory, works.fault⟩, trivial⟩

@[grind ←]
theorem quiet_randomBetween (lowest highest : Int32) (known : copies.Knows none start) :
    Quiet copies (randomBetween lowest highest start : Eval κ Float32) := by
  unfold randomBetween
  grind

theorem leading_applyMath (function : MathFunction) (arguments : List Value) (known : copies.Knows none start) :
    Leading copies (applyMath function arguments start : Eval κ Value) := by
  unfold applyMath
  cases function <;> grind

@[grind ←]
theorem leading_stringOf (text : String) (known : copies.Knows none start) :
    Leading copies (stringOf text start : Eval κ Value) := by
  unfold stringOf
  grind

theorem leading_applyValue (function : ValueFunction) {arguments : List Value}
    (leads : ∀ value ∈ arguments, value.LeadsTo (copies.Knows none)) (known : copies.Knows none start) :
    Leading copies (applyValue function arguments start : Eval κ Value) := by
  have argument (index : Nat) := Value.leadsTo_getD leads index
  unfold applyValue
  cases function <;> grind

@[grind ←]
theorem quiet_shownText (value : Value) (known : copies.Knows none start) :
    Quiet copies (shownText value start : Eval κ String) := by
  unfold shownText
  grind

theorem quiet_mapM {each : α → Eval κ β} (quiet : ∀ item, Quiet copies (each item)) (items : List α) :
    Quiet copies (items.mapM each) := by
  induction items with
  | nil => exact .pure _
  | cons item rest ih =>
      rw [List.mapM_cons]
      exact .bind (quiet item) fun _ => .bind ih fun _ => .pure _

theorem coincides_applyFile (coinciding : Inner.Coinciding inner) (function : FileFunction) (arguments : List Value)
    (known : copies.Knows none start) :
    Coincides copies (applyFile inner function arguments start) fun later value =>
      value.LeadsTo (later.Knows none) := by
  have missing {copies : Copies} : Coincides copies (return .missing : Eval κ Value)
      fun later value => value.LeadsTo (later.Knows none) := (Still.pure trivial).coincides
  unfold applyFile
  refine Still.then (quiet_bytesOf _ known) fun name _ => .get_bind (fun machine works => ?_) fun machine works => ?_
  · simp only [withStore, works.store, copies.files.find?_eq]
  rw [works.store]
  cases found : copies.original.find? name with
  | none =>
      cases function with
      | «exists» => exact (Still.pure trivial).coincides
      | create => exact (Coincides.onStore known (copies.ends_create name)).bind fun _ _ _ _ => missing
      | size | delete | rename | read | write | run => exact (Still.raise _ known).coincides
  | some slot =>
      have file := copies.files.file_of_find? found
      cases function with
      | «exists» => exact (Still.pure trivial).coincides
      | create => exact (Coincides.onStore known (copies.ends_create name)).bind fun _ _ _ _ => missing
      | size =>
          refine .get_bind (fun machine works => ?_) fun machine works => (Still.pure trivial).coincides
          simp only [withStore, works.store, file.size]
      | delete => exact (Coincides.onStore known (copies.ends_delete name)).bind fun _ _ _ _ => missing
      | rename =>
          refine Still.then (quiet_bytesOf _ known) fun newName _ => ?_
          exact (Coincides.onStore known (copies.ends_rename name newName)).bind fun _ _ _ _ => missing
      | read =>
          refine Still.then (quiet_indexOf _ known) fun index _ => Still.then (quiet_indexOf _ known) fun amount _ => ?_
          refine .get_bind (fun machine works => ?_) fun machine works => ?_
          · simp only [withStore, works.store, file.readData_eq]
          rw [works.store]
          split
          · exact (Still.fail _ known).coincides
          · exact Still.then (Quiet.onMemory known (Memory.leads_createString _)) fun cell _ =>
              (Still.pure trivial).coincides
      | write =>
          refine Still.then (quiet_bytesOf _ known) fun data _ => ?_
          exact (Coincides.onStore known (copies.ends_writeData file.text.mem data)).bind fun _ _ _ _ => missing
      | run => exact (coinciding.code copies _ (copies.knows_data found).anywhere).bind fun _ _ _ _ => missing

theorem coincides_readFunctionArguments (coinciding : Inner.Coinciding inner) (known : copies.Knows none start)
    (array : Nat) (isDefinition : Bool) (count : Nat) (code : copies.Knows own? address) :
    Coincides copies (readFunctionArguments inner start array isDefinition count address) fun later arguments =>
      (∀ value ∈ arguments.1, value.LeadsTo (later.Knows none)) ∧ later.Knows own? arguments.2 := by
  induction count generalizing copies address with
  | zero => exact (Still.pure ⟨nofun, code⟩).coincides
  | succ count ih =>
      refine (coinciding.argument code).bind fun later more argument known' => ?_
      have known := known.mono more
      split
      · exact (Still.raise _ known).coincides
      · refine Still.then (Quiet.modifyRoots _) fun _ _ => ?_
        split
        · exact (Still.pure ⟨List.forall_mem_singleton.mpr known'.value, known'.code⟩).coincides
        · refine .byteAt_bind known'.code ?_
          split
          · exact (Still.raise _ known).coincides
          · next comma =>
            have behind := known'.code.next_of_eq (not_not.mp comma) (by decide)
            refine (ih known behind).bind fun last more' rest leads => (Still.pure ⟨?_, leads.2⟩).coincides
            exact List.forall_mem_cons.mpr ⟨known'.value.mono fun _ => .mono more', leads.1⟩

section Console

variable [Console κ]

@[grind ←]
theorem leading_showMenu (title options : Value) (known : copies.Knows none start) :
    Leading copies (showMenu title options start : Eval κ Value) := by
  have labels (values : List Value) : Quiet copies (values.mapM (shownText · start) : Eval κ (List String)) :=
    quiet_mapM (fun value => quiet_shownText value known) values
  unfold showMenu
  dsimp only
  split
  · refine .bind (by grind) fun title => ?_
    split
    · refine .bind (by grind) fun values => ?_
      grind
    · exact .raise _ known
  · exact Still.bind (Still.raise _ known) fun title (no : False) => no.elim

theorem leading_applyConsole (function : ConsoleFunction) (arguments : List Value) (known : copies.Knows none start) :
    Leading copies (applyConsole function arguments start : Eval κ Value) := by
  unfold applyConsole
  cases function <;> grind

theorem coincides_applyBuiltin (coinciding : Inner.Coinciding inner) (builtin : Builtin) {isStatement : Bool}
    (free : isStatement = true → goesBack builtin = true → own? = none)
    (behind : copies.Knows own? (expression.start + 1)) (known : expression.Known copies own?) :
    Coincides copies (applyBuiltin inner builtin expression isStatement) fun later => Expression.Known later own? := by
  unfold applyBuiltin
  refine .get_bind (fun machine works => ?_) fun machine works => ?_
  · simp only [withStore, works.store, behind.parameterCount_eq]
  refine Still.then Quiet.trackValues fun array _ => ?_
  refine (coincides_readFunctionArguments coinciding known.start _ _ _ behind).bind fun later more arguments leads => ?_
  have start := known.start.mono more
  cases builtin with
  | control function =>
      dsimp only
      split
      · next statement =>
        have argument : (arguments.1.headD .missing).LeadsTo (later.Knows none) := by
          cases args : arguments.1 with
          | nil => trivial
          | cons argument rest => exact leads.1 argument (args ▸ List.mem_cons_self)
        have after : Expression.Known later own? { expression with code := arguments.2 } :=
          ⟨start, leads.2, (known.mono more).value⟩
        exact (still_control function (free statement) argument after (behind.mono more)).coincides
      · exact (Still.raise _ start).coincides
  | math function =>
      exact Still.then (leading_applyMath _ _ start) fun value leads' => (Still.pure ⟨start, leads.2, leads'⟩).coincides
  | value function =>
      exact Still.then (leading_applyValue _ leads.1 start) fun value leads' =>
        (Still.pure ⟨start, leads.2, leads'⟩).coincides
  | console function =>
      exact Still.then (leading_applyConsole _ _ start) fun value leads' =>
        (Still.pure ⟨start, leads.2, leads'⟩).coincides
  | file function =>
      exact (coincides_applyFile coinciding _ _ start).bind fun last more' value leads' =>
        (Still.pure ⟨start.mono more', leads.2.mono more', leads'⟩).coincides

theorem coincides_readPrimary (coinciding : Inner.Coinciding inner) {isStatement : Bool}
    (free : isStatement = true → (Symbol.builtin? (copies.original.byte start)).any goesBack = true → own? = none)
    (known : copies.Knows own? start) :
    Coincides copies (readPrimary inner (.starting start) isStatement) fun later => Expression.Known later own? := by
  have fresh := Expression.known_starting known
  -- Whatever an expression starts with, it is not the end of code.
  have behind (starts : UInt8 → Bool) (here : starts (copies.original.byte start) = true) (zero : starts 0 = false) :
      copies.Knows own? (start + 1) :=
    known.next fun none => by rw [none, zero] at here; cases here
  unfold readPrimary
  refine .byteAt_bind known ?_
  change Coincides copies (if _ then _ else _) _
  split
  · next digit =>
    exact (still_readNumberLiteral (behind (fun byte => Symbol.isDigit byte || byte == 0x2e) digit rfl) fresh).coincides
  split
  · exact (still_readVariable known fresh).coincides
  split
  · next quote => exact (still_readCharacterLiteral (known.next_of_eq quote (by decide)) quote fresh).coincides
  split
  · next quote => exact (still_readStringLiteral (known.next_of_eq quote (by decide)) fresh).coincides
  split
  · next bracket => exact coincides_readListLiteral coinciding (known.next_of_eq bracket (by decide)) fresh
  split
  · next bracket => exact coincides_readParenthesis coinciding (known.next_of_eq bracket (by decide)) fresh
  split
  · next builtin here =>
    have behind := behind (fun byte => (Symbol.builtin? byte).isSome) (congrArg Option.isSome here) rfl
    refine coincides_applyBuiltin coinciding builtin (fun statement back => free statement ?_) behind fresh
    exact (congrArg (·.any goesBack) here).trans back
  · next operator _ here =>
    have behind := behind (fun byte => (UnaryOperator.ofByte? byte).isSome) (congrArg Option.isSome here) rfl
    exact coincides_applyUnary coinciding operator fresh behind
  · exact (Still.raise _ known).coincides

omit [Console κ] in
theorem coincides_readRest (coinciding : Inner.Coinciding inner) (ceiling steps : Nat)
    (known : expression.Known copies own?) :
    Coincides copies (readRest inner ceiling steps expression) fun later => Expression.Known later own? := by
  induction steps generalizing copies expression with
  | zero => exact Still.unfinished.coincides
  | succ steps ih =>
      refine Still.then (Quiet.track _) fun _ _ => .byteAt_bind known.code ?_
      split
      · next direction step =>
        have behind := known.code.next fun zero => by rw [zero] at step; cases step
        exact (still_applyStep direction known behind).then fun _ known => ih known
      split
      · next bracket =>
        exact (coincides_applyIndex coinciding known (known.code.next_of_eq bracket (by decide))).bind
          fun later _ _ known => ih known
      split
      · next call =>
        have behind := known.code.next fun zero => by rw [zero] at call; revert call; decide
        exact (coincides_applyCall coinciding known behind).bind fun later _ _ known => ih known
      split
      · next operator here =>
        have behind := known.code.next fun zero => by rw [zero] at here; cases here
        split
        · exact (coincides_applyBinary coinciding operator known behind).bind fun later _ _ known => ih known
        · exact (Still.pure known).coincides
      · exact (Still.pure known).coincides

theorem coincides_frame (coinciding : Inner.Coinciding inner) {isStatement : Bool}
    (free : isStatement = true → (Symbol.builtin? (copies.original.byte start)).any goesBack = true → own? = none)
    (known : copies.Knows own? start) (ceiling : Nat) :
    Coincides copies (frame inner start ceiling isStatement) fun later => Expression.Known later own? := by
  unfold frame
  refine .get_bind (fun _ _ => rfl) fun machine _ => ?_
  split
  · exact coincides_skip coinciding known (Expression.known_starting known)
  · exact (coincides_readPrimary coinciding free known).bind fun later _ _ known =>
      coincides_readRest coinciding _ _ known

omit [Console κ] in
theorem quiet_collect : Quiet copies (collect : Eval κ Unit) :=
  Still.step (fun _ => rfl) (fun _ _ => rfl) (fun _ _ => rfl) fun _ works =>
    ⟨⟨works.store, works.memory.collect, works.fault⟩, trivial⟩

theorem quiet_betweenStatements : Quiet copies (betweenStatements : Eval κ Unit) := by
  have collects : Quiet copies (collect : Eval κ Unit) := quiet_collect
  have counts : Quiet copies (modify fun machine : Machine κ =>
      { machine with recentStatements := machine.recentStatements + 1 }) :=
    Still.step (fun _ => rfl) (fun _ _ => rfl) (fun _ _ => rfl) fun _ works =>
      ⟨⟨works.store, works.memory, works.fault⟩, trivial⟩
  unfold betweenStatements
  refine .bind counts fun _ => Still.get_bind (fun _ _ => rfl) fun machine _ => ?_
  show Quiet copies _
  grind

omit [Console κ] in
theorem coincides_orAnswer {statement : Eval κ Expression} {next : Expression → Eval κ Value}
    (one : Coincides copies statement fun later => Expression.Known later none)
    (two : ∀ later, copies ≤ later → ∀ expression, expression.Known later none →
      Coincides later (next expression) fun last value => value.LeadsTo (last.Knows none)) :
    Coincides copies (orAnswer statement next) fun later value => value.LeadsTo (later.Knows none) := by
  intro machine works
  have first := one machine works
  unfold orAnswer
  generalize statement machine = result, statement (machine.withStore copies.copy) = result' at first
  cases first with
  | ok here works known =>
      exact (two _ here _ known _ works).mono (fun _ further => le_trans here further) fun _ _ _ leads => leads
  | @error later interrupt after here works leads =>
      cases interrupt with
      | answer value => exact .ok here works leads
      | quit | unfinished => exact .error here works trivial
  | cutOff cut => exact .cutOff cut

theorem coincides_runCode {statement : Address → Eval κ Expression}
    (coincides : ∀ (copies : Copies) (address : Address), copies.Knows none address →
      Coincides copies (statement address) fun later => Expression.Known later none)
    (steps : Nat) (known : copies.Knows none address) :
    Coincides copies (runCode statement steps address) fun later value => value.LeadsTo (later.Knows none) := by
  induction steps generalizing copies address with
  | zero => exact Still.unfinished.coincides
  | succ steps ih =>
      refine .byteAt_bind known ?_
      split
      · next newline => exact ih (known.next_of_eq newline (by decide))
      split
      · exact (Still.pure trivial).coincides
      · refine coincides_orAnswer (coincides copies address known) fun later _ expression known => ?_
        exact Still.then quiet_betweenStatements fun _ _ => ih known.code

/-- If all that has fewer levels left coincides. -/
theorem coinciding_innerOf {steps levels : Nat}
    (coincides : ∀ lower ≤ levels, ∀ (copies : Copies) (own? : Option Address) (start : Address) (ceiling : Nat)
      (isStatement : Bool), (isStatement = true → (Symbol.builtin? (copies.original.byte start)).any goesBack = true →
        own? = none) → copies.Knows own? start →
        Coincides copies (evaluate (κ := κ) steps lower start ceiling isStatement) fun later =>
          Expression.Known later own?) :
    Inner.Coinciding (innerOf (κ := κ) steps levels) := by
  have code (lower : Nat) (fewer : lower ≤ levels) (copies : Copies) (address : Address)
      (known : copies.Knows none address) :=
    coincides_runCode (fun copies address => coincides lower fewer copies none address Inner.statementCeiling true
      fun _ _ => rfl) steps known
  refine ⟨fun copies own? start ceiling => ?_, code levels (Nat.le_refl _), ?_⟩
  · exact coincides levels (Nat.le_refl _) copies own? start ceiling false nofun
  · intro body some_body
    obtain ⟨lower, less, rfl⟩ := runCode_of_body? some_body
    exact code lower (Nat.le_of_lt less)

/-- All evaluation of known code coincides. -/
theorem coincides_evaluate (steps levels : Nat) {isStatement : Bool}
    (free : isStatement = true → (Symbol.builtin? (copies.original.byte start)).any goesBack = true → own? = none)
    (known : copies.Knows own? start) (ceiling : Nat) :
    Coincides copies (evaluate (κ := κ) steps levels start ceiling isStatement) fun later =>
      Expression.Known later own? := by
  induction levels using Nat.strongRecOn generalizing copies own? start ceiling isStatement with
  | ind levels ih =>
      cases levels with
      | zero =>
          rw [evaluate_zero]
          exact (Still.raise _ known).coincides
      | succ levels =>
          rw [evaluate_succ]
          have inside := coinciding_innerOf fun lower fewer copies own? start ceiling isStatement free known =>
            ih lower (Nat.lt_succ_of_le fewer) free known ceiling
          exact (coincides_frame inside free known ceiling).releasing

end Console

end Machine

end PocketScript
