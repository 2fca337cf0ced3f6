import PocketScript.Machine.Evaluation
import PocketScript.Proofs.Renaming.Memories
import PocketScript.Proofs.Schedule.Tallying

/-! # Expressions on machines alike but for handles

Two machines that differ only in the handles of their objects ask the same, draw the
same and find the same faults. Evaluation carries them along: whatever an expression
yields on one, it yields on the other, under the handles there.
-/

namespace PocketScript

variable {κ α β : Type} {names : Renaming} {rename : α → β}

namespace Renaming

variable (names : Renaming)

def interrupt : Interrupt → Interrupt
  | .quit => .quit
  | .answer value => .answer (names.value value)
  | .unfinished => .unfinished

def destination : Destination → Destination
  | .variable place => .variable place
  | .element list index => .element (names.handle list) index
  | .character string index => .character (names.handle string) index

def expression (expression : Expression) : Expression :=
  { expression with
    value := names.value expression.value
    destination? := expression.destination?.map names.destination }

end Renaming

/-- Two machines alike but for handles, with memory of the size that is configured. -/
structure Machine.Renamed (names : Renaming) (machine other : Machine κ) : Prop extends machine.Alike other where
  memory : machine.memory.Renamed names other.memory
  configuration : other.configuration = machine.configuration
  recentStatements : other.recentStatements = machine.recentStatements
  region : machine.configuration.regionSize = names.limit

theorem Machine.Renamed.withMemory {machine other : Machine κ} (renamed : Renamed names machine other)
    {memory memory' : Memory} (alike : memory.Renamed names memory') :
    Renamed names { machine with memory } { other with memory := memory' } :=
  ⟨⟨renamed.store, renamed.console, renamed.draws, renamed.fault?⟩, alike, renamed.configuration,
    renamed.recentStatements, renamed.region⟩

namespace Eval

open Machine (Renamed)

variable {first : Eval κ α} {second : Eval κ β}

/-- Evaluation that comes to the same, but for handles. -/
abbrev Carries (names : Renaming) (rename : α → β) (first : Eval κ α) (second : Eval κ β) : Prop :=
  Couples (Renamed names) names.interrupt rename first second

theorem carries_fail (cause : FaultCause) (address : Address) :
    Carries (κ := κ) names rename (fail cause address) (fail cause address) := by
  intro machine other renamed
  refine .error rfl ⟨⟨renamed.store, renamed.console, renamed.draws, rfl⟩, renamed.memory, renamed.configuration,
    renamed.recentStatements, renamed.region⟩

theorem carries_raise (kind : FaultKind) (address : Address) :
    Carries (κ := κ) names rename (raise kind address) (raise kind address) :=
  carries_fail _ address

theorem carries_onMemoryAs (cause : MemoryError → FaultCause) (address : Address) {operation : MemoryM α}
    {operation' : MemoryM β} (carries : Memory.Carries names rename operation operation') :
    Carries (κ := κ) names rename (onMemoryAs cause address operation) (onMemoryAs cause address operation') := by
  intro machine other renamed
  have here := carries machine.memory other.memory renamed.memory
  unfold onMemoryAs
  generalize operation machine.memory = ran, operation' other.memory = ran' at here
  cases here with
  | ok same alike => exact .ok same (renamed.withMemory alike)
  | error same alike =>
      subst same
      exact carries_fail _ address _ _ (renamed.withMemory alike)

theorem carries_onMemory (address : Address) {operation : MemoryM α} {operation' : MemoryM β}
    (carries : Memory.Carries names rename operation operation') :
    Carries (κ := κ) names rename (onMemory address operation) (onMemory address operation') :=
  carries_onMemoryAs .memory address carries

theorem carries_modifyMemory {change change' : Memory → Memory}
    (keeps : ∀ memory other, Memory.Renamed names memory other → Memory.Renamed names (change memory) (change' other)) :
    Carries (κ := κ) names id (modifyMemory change) (modifyMemory change') :=
  .modify fun _ _ renamed => renamed.withMemory (keeps _ _ renamed.memory)

theorem carries_onStack {operation operation' : ScopeStack → α × ScopeStack}
    (same : ∀ stack, operation' (names.stack stack) = Prod.map id names.stack (operation stack)) :
    Carries (κ := κ) names id (onStack operation) (onStack operation') := by
  intro machine other renamed
  have here := same machine.memory.stack
  rw [← renamed.memory.stack] at here
  exact .ok (by rw [here]; rfl) (renamed.withMemory (renamed.memory.withStack (by rw [here]; rfl)))

theorem carries_modifyRoots {change change' : Roots → Roots}
    (same : ∀ roots, change' (names.roots roots) = names.roots (change roots)) :
    Carries (κ := κ) names id (modifyRoots change) (modifyRoots change') :=
  carries_modifyMemory fun _ _ renamed => renamed.withRoots (by rw [renamed.roots, same])

theorem carries_track (value : Value) : Carries (κ := κ) names id (track value) (track (names.value value)) :=
  carries_modifyRoots fun roots => names.track_roots roots value

theorem carries_trackIn (array : Nat) (value : Value) :
    Carries (κ := κ) names id (modifyRoots (·.trackIn array value))
      (modifyRoots (·.trackIn array (names.value value))) :=
  carries_modifyRoots fun roots => names.trackIn_roots roots array value

theorem carries_trackValues : Carries (κ := κ) names id trackValues trackValues := by
  intro machine other renamed
  have size : other.memory.roots.size = machine.memory.roots.size := by
    rw [renamed.memory.roots, Renaming.roots, Array.size_map]
  refine .ok size (renamed.withMemory (renamed.memory.withRoots ?_))
  simp [renamed.memory.roots, Renaming.roots, Renaming.root]

theorem carries_onStore (address : Address) (operation : StoreM α) :
    Carries (κ := κ) names id (onStore address operation) (onStore address operation) := by
  intro machine other renamed
  have withStore (store : Store) : Renamed names { machine with store } { other with store } :=
    ⟨⟨rfl, renamed.console, renamed.draws, renamed.fault?⟩, renamed.memory, renamed.configuration,
      renamed.recentStatements, renamed.region⟩
  unfold onStore
  rw [renamed.store]
  cases operation machine.store with
  | ok result store => exact .ok rfl (withStore store)
  | error error store => exact carries_fail _ address _ _ (withStore store)

theorem carries_ask (request : κ → α × κ) : Carries names id (ask request) (ask request) := by
  intro machine other renamed
  refine .ok (by rw [renamed.console]; rfl) ?_
  exact ⟨⟨renamed.store, by rw [renamed.console], renamed.draws, renamed.fault?⟩, renamed.memory,
    renamed.configuration, renamed.recentStatements, renamed.region⟩

theorem carries_resume [Console κ] : Carries (κ := κ) names id resume resume :=
  .modify fun _ _ renamed => ⟨⟨renamed.store, by rw [renamed.console], renamed.draws, renamed.fault?⟩, renamed.memory,
    renamed.configuration, renamed.recentStatements, renamed.region⟩

theorem carries_byteAt (address : Address) : Carries (κ := κ) names id (byteAt address) (byteAt address) := by
  refine .get_bind fun machine other renamed => ?_
  rw [renamed.store]
  exact .pure rfl

theorem carries_always {change change' : Machine κ → Machine κ} (carries : Carries names rename first second)
    (keeps : ∀ machine other, Renamed names machine other → Renamed names (change machine) (change' other)) :
    Carries names rename (always change first) (always change' second) := by
  intro machine other renamed
  have here := carries machine other renamed
  unfold always
  generalize first machine = ran, second other = ran' at here
  cases here with
  | ok same renamed => exact .ok same (keeps _ _ renamed)
  | error same renamed => exact .error same (keeps _ _ renamed)

/-- Both are nested one level deeper. -/
theorem carries_nested (carries : Carries names rename first second) :
    Carries names rename (nested first) (nested second) := by
  have same (change : Nat → Nat) (machine other : Machine κ) (renamed : Renamed names machine other) :
      Renamed names { machine with depth := change machine.depth } { other with depth := change other.depth } :=
    ⟨⟨renamed.store, renamed.console, renamed.draws, renamed.fault?⟩, renamed.memory, renamed.configuration,
      renamed.recentStatements, renamed.region⟩
  exact fun machine other renamed => carries_always carries (same (· - 1)) machine.enter other.enter
    (same (· + 1) machine other renamed)

/-- What was registered meanwhile is released on both. -/
theorem carries_release (mark : Nat) (carries : Carries names rename first second) :
    Carries names rename
      (always (fun machine =>
        { machine with
          memory := { machine.memory with roots := Roots.release machine.memory.roots mark } }) first)
      (always (fun machine =>
        { machine with
          memory := { machine.memory with roots := Roots.release machine.memory.roots mark } }) second) :=
  carries_always carries fun _ _ renamed => renamed.withMemory
    (renamed.memory.withRoots (by rw [renamed.memory.roots, names.release_roots]))

theorem carries_releasing (carries : Carries names rename first second) :
    Carries names rename (releasing first) (releasing second) := by
  refine .get_bind fun machine other renamed => ?_
  rw [renamed.memory.roots, Renaming.roots, Array.size_map]
  exact carries_release _ carries

end Eval

open Eval

namespace Destination

theorem carries_read (destination : Destination) (hold : Hold) (address : Address) :
    Carries (κ := κ) names names.value (destination.read hold address)
      ((names.destination destination).read hold address) := by
  match destination with
  | .variable place =>
      refine carries_onMemory address (Memory.carries_look fun memory other renamed => ?_)
      rw [renamed.variableValue?]
      cases memory.variableValue? place <;> rfl
  | .element list index =>
      exact carries_onMemoryAs _ address (Memory.carries_look fun _ _ renamed => renamed.element list index)
  | .character string index =>
      refine (carries_onMemoryAs _ address
        (Memory.carries_lookSame fun _ _ renamed => renamed.byte string index)).bind fun byte => ?_
      exact .pure rfl

theorem carries_write (destination : Destination) (hold : Hold) (value : Value) (address : Address) :
    Carries (κ := κ) names id (destination.write hold value address)
      ((names.destination destination).write hold (names.value value) address) := by
  match destination with
  | .variable place => exact carries_onMemory address (Memory.carries_setVariable place value)
  | .element list index => exact carries_onMemoryAs _ address (Memory.carries_setElement list index value)
  | .character string index =>
      cases value with
      | number number => exact carries_onMemoryAs _ address (Memory.carries_setByte string index _)
      | missing | string _ | list _ | function _ => exact carries_raise _ address

end Destination

namespace Machine

theorem carries_readName (address : Address) : Carries (κ := κ) names id (readName address) (readName address) := by
  refine .get_bind fun machine other renamed => ?_
  rw [renamed.store]
  cases machine.store.name? address with
  | none => exact carries_raise _ address
  | some bytes =>
      cases bytes with
      | nil => exact carries_raise _ address
      | cons first rest => exact .pure rfl

theorem carries_readVariable (expression : Expression) :
    Carries (κ := κ) names names.expression (readVariable expression)
      (readVariable (names.expression expression)) := by
  refine (carries_readName expression.start).bind fun (name, code) => .get_bind fun machine other renamed => ?_
  have find : other.memory.stack.find? name = machine.memory.stack.find? name := by
    rw [renamed.memory.stack, Renaming.find?_stack]
  simp only [find]
  cases machine.memory.stack.find? name with
  | none => exact .pure rfl
  | some place =>
      simp only [renamed.memory.variableValue?]
      refine .pure ?_
      cases machine.memory.variableValue? place <;> rfl

theorem carries_readNumberLiteral (expression : Expression) :
    Carries (κ := κ) names names.expression (readNumberLiteral expression)
      (readNumberLiteral (names.expression expression)) := by
  have start : (names.expression expression).start = expression.start := rfl
  refine .get_bind fun machine other renamed => ?_
  simp only [renamed.store, start]
  cases machine.store.restOfNumber? (Store.numberLiteralLimit - 1) 0 (expression.start + 1) with
  | none => exact carries_raise _ expression.start
  | some rest => exact .pure rfl

theorem carries_readCharacterLiteral (expression : Expression) :
    Carries (κ := κ) names names.expression (readCharacterLiteral expression)
      (readCharacterLiteral (names.expression expression)) := by
  have start : (names.expression expression).start = expression.start := rfl
  refine .get_bind fun machine other renamed => ?_
  simp only [renamed.store, start]
  generalize (if machine.store.byte (expression.start + 1) = 0x5c then _ else _ : UInt8 × Address) = found
  split
  · exact carries_raise _ expression.start
  · exact .pure rfl

theorem carries_readStringLiteral (expression : Expression) :
    Carries (κ := κ) names names.expression (readStringLiteral expression)
      (readStringLiteral (names.expression expression)) := by
  have start : (names.expression expression).start = expression.start := rfl
  refine .get_bind fun machine other renamed => ?_
  simp only [renamed.store, start]
  cases machine.store.restOfString? (Store.capacity - (expression.start + 1)) false (expression.start + 1) with
  | none => exact carries_raise _ expression.start
  | some found => exact (carries_onMemory _ (Memory.carries_createString found.1)).bind fun cell => .pure rfl

theorem carries_combine (operator : Combination) (left right : Value) (start : Address) :
    Carries (κ := κ) names names.value (combine operator left right start)
      (combine operator (names.value left) (names.value right) start) := by
  cases left with
  | missing => exact carries_raise _ start
  | number a =>
      cases right with
      | number b =>
          simp only [combine, Renaming.value_number]
          cases operator.apply a b with
          | none => exact carries_raise _ start
          | some number => exact .pure rfl
      | missing | string _ | list _ | function _ => exact carries_raise _ start
  | string a =>
      cases right with
      | string b =>
          simp only [combine, Renaming.value_string]
          split
          · exact carries_onMemory start (Memory.carries_concatenate a b)
          · exact carries_raise _ start
      | missing | number _ | list _ | function _ => exact carries_raise _ start
  | list _ | function _ => cases right <;> exact carries_raise _ start

theorem carries_compare (operator : Comparison) (left right : Value) (start : Address) :
    Carries (κ := κ) names names.value (compare operator left right start)
      (compare operator (names.value left) (names.value right) start) := by
  have bytes (cell : Handle) : Carries (κ := κ) names id (viewMemory start (·.string cell))
      (viewMemory start (·.string (names.handle cell))) :=
    carries_onMemory start (Memory.carries_string cell)
  cases left with
  | missing => exact carries_raise _ start
  | number a =>
      cases right with
      | number b => exact .pure rfl
      | missing | string _ | list _ | function _ => exact carries_raise _ start
  | string a =>
      cases right with
      | string b =>
          cases operator with
          | equal | unequal => exact (bytes a).bind fun _ => (bytes b).bind fun _ => .pure rfl
          | less | greater | atMost | atLeast => exact carries_raise _ start
      | missing | number _ | list _ | function _ => exact carries_raise _ start
  | list _ | function _ => cases right <;> exact carries_raise _ start

theorem carries_assign (expression : Expression) (value : Value) :
    Carries (κ := κ) names names.expression (assign expression value)
      (assign (names.expression expression) (names.value value)) := by
  obtain ⟨start, code, current, destination?, hold⟩ := expression
  cases destination? with
  | some destination => exact (destination.carries_write hold value start).bind fun _ => .pure rfl
  | none =>
      refine (carries_readName start).bind fun (name, _) => ?_
      refine (carries_onMemory start (Memory.carries_createVariable name .missing)).bind fun place => ?_
      exact (Destination.carries_write (.variable place) .kept value start).bind fun _ => .pure rfl

theorem carries_update (operator : Combination) (expression : Expression) (right : Value) :
    Carries (κ := κ) names names.expression (update operator expression right)
      (update operator (names.expression expression) (names.value right)) := by
  obtain ⟨start, code, value, destination?, hold⟩ := expression
  cases destination? with
  | none => exact carries_raise _ start
  | some destination =>
      refine (destination.carries_read hold start).bind fun current => ?_
      cases current with
      | missing | list _ | function _ => exact carries_raise _ start
      | number a =>
          cases right with
          | number b =>
              simp only [Renaming.value_number]
              cases operator.update a b with
              | none => exact carries_raise _ start
              | some number => exact (destination.carries_write hold (.number number) start).bind fun _ => .pure rfl
          | missing | string _ | list _ | function _ => exact carries_raise _ start
      | string a =>
          cases right with
          | string b =>
              simp only [Renaming.value_string]
              split
              · have lengths := Memory.carries_lookSame fun _ _ (renamed : Memory.Renamed names _ _) =>
                  renamed.length (.string a)
                refine (carries_onMemory start lengths).bind fun length => ?_
                refine (carries_onMemory start (Memory.carries_insertSequence (.string a) length (.string b))).bind ?_
                exact fun _ => .pure rfl
              · exact carries_raise _ start
          | missing | number _ | list _ | function _ => exact carries_raise _ start

theorem carries_applyStep (direction : Step) (expression : Expression) :
    Carries (κ := κ) names names.expression (applyStep direction expression)
      (applyStep direction (names.expression expression)) := by
  obtain ⟨start, code, value, destination?, hold⟩ := expression
  cases value with
  | missing | string _ | list _ | function _ => exact carries_raise _ start
  | number number =>
      cases destination? with
      | none => exact carries_raise _ start
      | some destination => exact (destination.carries_write hold (.number _) start).bind fun _ => .pure rfl

theorem carries_select (sequence : Value) (index : Float32) (start : Address) :
    Carries (κ := κ) names names.destination (select sequence index start)
      (select (names.value sequence) index start) := by
  have lengths := carries_onMemory (κ := κ) start
    (Memory.carries_lookSame fun _ _ (renamed : Memory.Renamed names _ _) => renamed.length sequence)
  cases sequence with
  | missing | number _ | function _ => exact carries_raise _ start
  | string cell | list cell =>
      refine lengths.bind fun length => ?_
      simp only [id_eq]
      split
      · exact carries_raise _ start
      · exact .pure rfl

/-- What is evaluated one level further in comes to the same. -/
structure Inner.Carries (names : Renaming) (inner : Inner κ) : Prop where
  expression : ∀ start ceiling isStatement, Eval.Carries names names.expression
    (inner.expression start ceiling isStatement) (inner.expression start ceiling isStatement)
  code : ∀ address, Eval.Carries names names.value (inner.code address) (inner.code address)
  body : ∀ body, inner.body? = some body → ∀ address, Eval.Carries names names.value (body address) (body address)

variable {inner : Inner κ}

theorem Inner.Carries.argument (inside : Inner.Carries names inner) (start : Address) :
    Eval.Carries names names.expression (inner.argument start) (inner.argument start) :=
  inside.expression start _ false

theorem carries_applyBinary (inside : Inner.Carries names inner) (operator : BinaryOperator) (left : Expression) :
    Eval.Carries names names.expression (applyBinary inner operator left)
      (applyBinary inner operator (names.expression left)) := by
  refine (carries_track left.value).bind fun _ => (inside.expression _ _ false).bind fun right => ?_
  refine (carries_track right.value).bind fun _ => ?_
  have missing : (names.expression right).value.isMissing = right.value.isMissing :=
    names.isMissing_value right.value
  rw [missing]
  split
  · exact carries_raise _ left.start
  let next : Expression := { left with code := right.code, hold := left.hold.outlast }
  cases operator with
  | assign => exact carries_assign next right.value
  | update operator => exact carries_update operator next right.value
  | combine operator => exact (carries_combine operator left.value right.value left.start).bind fun _ => .pure rfl
  | compare operator => exact (carries_compare operator left.value right.value left.start).bind fun _ => .pure rfl

theorem carries_applyUnary (inside : Inner.Carries names inner) (operator : UnaryOperator) (expression : Expression) :
    Eval.Carries names names.expression (applyUnary inner operator expression)
      (applyUnary inner operator (names.expression expression)) := by
  refine (inside.expression _ _ false).bind fun operand => ?_
  obtain ⟨_, code, value, destination?, hold⟩ := operand
  cases value with
  | missing | string _ | list _ | function _ => exact carries_raise _ expression.start
  | number number =>
      cases operator with
      | negate | not | complement => exact .pure rfl
      | step direction =>
          cases destination? with
          | none => exact carries_raise _ expression.start
          | some destination =>
              refine (destination.carries_write hold.handOver (.number _) expression.start).bind fun _ => ?_
              exact (destination.carries_read hold.handOver expression.start).bind fun _ => .pure rfl

theorem carries_readParenthesis (inside : Inner.Carries names inner) (expression : Expression) :
    Eval.Carries names names.expression (readParenthesis inner expression)
      (readParenthesis inner (names.expression expression)) := by
  refine (inside.argument _).bind fun content => (carries_byteAt content.code).bind fun byte => ?_
  simp only [id_eq]
  split
  · exact carries_raise _ expression.start
  · exact .pure rfl

theorem carries_applyIndex (inside : Inner.Carries names inner) (expression : Expression) :
    Eval.Carries names names.expression (applyIndex inner expression)
      (applyIndex inner (names.expression expression)) := by
  have missing (expression : Expression) :
      (names.expression expression).value.isMissing = expression.value.isMissing :=
    names.isMissing_value expression.value
  unfold applyIndex
  simp only [missing]
  split
  · exact carries_raise _ expression.start
  refine (inside.argument _).bind fun index => ?_
  rw [missing]
  split
  · exact carries_raise _ expression.start
  refine (carries_byteAt index.code).bind fun byte => ?_
  simp only [id_eq]
  split
  · exact carries_raise _ expression.start
  obtain ⟨_, code, value, _, _⟩ := index
  cases value with
  | missing | string _ | list _ | function _ => exact carries_raise _ expression.start
  | number number =>
      refine (carries_select expression.value number expression.start).bind fun destination => ?_
      refine (carries_track expression.value).bind fun _ => ?_
      exact (destination.carries_read .kept expression.start).bind fun _ => .pure rfl

theorem carries_readElements (inside : Inner.Carries names inner) (start : Address) (list : Value) (steps : Nat)
    (address : Address) (index : Nat) :
    Eval.Carries names id (readElements inner start list steps address index)
      (readElements inner start (names.value list) steps address index) := by
  induction steps generalizing address index with
  | zero => exact .throw rfl
  | succ steps ih =>
      refine (carries_byteAt address).bind fun byte => ?_
      simp only [id_eq]
      split
      · exact carries_raise _ start
      split
      · exact .pure rfl
      refine (inside.argument _).bind fun element => ?_
      have missing : (names.expression element).value.isMissing = element.value.isMissing :=
        names.isMissing_value element.value
      rw [missing]
      split
      · exact carries_raise _ start
      refine (carries_onMemory start (Memory.carries_insertElement list index element.value)).bind fun _ => ?_
      exact ih element.code (index + 1)

theorem carries_readListLiteral (inside : Inner.Carries names inner) (expression : Expression) :
    Eval.Carries names names.expression (readListLiteral inner expression)
      (readListLiteral inner (names.expression expression)) := by
  refine (carries_onMemory expression.start (Memory.carries_createList [])).bind fun cell => ?_
  refine (carries_track (.list cell)).bind fun _ => ?_
  exact (carries_readElements inside expression.start (.list cell) _ _ 0).bind fun _ => .pure rfl

end Machine

end PocketScript
