import PocketScript.Proofs.Flow.Running
import PocketScript.Proofs.Number.Divisors

/-! # Lines that store or show

Assignments, prints and definitions of functions, for when statements are not
skipped. A place is writable if storing a value there gives it to the variable of
a name and does nothing else.
-/

namespace PocketScript

open Eval (Yields Keeps)
open Machine (evaluate innerOf readVariable readFunctionArguments)

variable {κ : Type} {machine : Machine κ} {steps levels address : Nat} {name : Name}

namespace Name

theorem startsName_spec : ∀ byte : UInt8, Symbol.startsName byte = true →
    (Symbol.isDigit byte || byte == 0x2e) = false ∧ Symbol.continuesName byte = true ∧ byte ≠ 0x2c ∧
      byte ≠ 0x0a ∧ byte ≠ 0 :=
  forall_byte (by decide +kernel)

theorem continuesName_ne_comma : ∀ byte : UInt8, Symbol.continuesName byte = true → byte ≠ 0x2c :=
  forall_byte (by decide +kernel)

theorem continuesName_of_endsLine : ∀ byte : UInt8, Store.endsLine byte = true →
    Symbol.continuesName byte = false :=
  forall_byte (by decide +kernel)

/-- The first byte of a name and the others. -/
theorem exists_cons (name : Name) : ∃ first rest, name.bytes = first :: rest ∧ Symbol.startsName first = true := by
  obtain ⟨bytes, starts, -, -⟩ := name
  cases bytes with
  | nil => simp at starts
  | cons first rest => exact ⟨first, rest, rfl, by simpa using starts⟩

theorem readName_eq (has : machine.store.Has address name.bytes)
    (stops : Symbol.continuesName (machine.store.byte (address + name.bytes.length)) = false) :
    Machine.readName address machine = .ok (name.text, address + name.bytes.length) machine := by
  have found := name?_eq has stops
  obtain ⟨first, rest, bytes, -⟩ := name.exists_cons
  unfold Machine.readName
  simp only [Bind.bind, EStateM.bind, get, getThe, MonadStateOf.get, EStateM.get, found, text, bytes]
  rfl

/-- What is read for a name can be written to if it has a variable. -/
theorem readVariable_eq (has : machine.store.Has address name.bytes)
    (stops : Symbol.continuesName (machine.store.byte (address + name.bytes.length)) = false) :
    ∃ result, readVariable (.starting address) machine = .ok result machine ∧ result.start = address ∧
      result.code = address + name.bytes.length ∧
      result.destination? = (machine.memory.stack.find? name.text).map .variable := by
  have named := readName_eq has stops
  unfold readVariable
  simp only [Bind.bind, EStateM.bind, Expression.starting, named, get, getThe, MonadStateOf.get, EStateM.get]
  cases machine.memory.stack.find? name.text with
  | none => exact ⟨_, rfl, rfl, rfl, rfl⟩
  | some place => exact ⟨_, rfl, rfl, rfl, rfl⟩

end Name

variable [Console κ]

namespace Machine

theorem readPrimary_name {inner : Inner κ} {isStatement : Bool} (has : machine.store.Has address name.bytes) :
    readPrimary inner (.starting address) isStatement machine = readVariable (.starting address) machine := by
  obtain ⟨first, rest, bytes, starts⟩ := name.exists_cons
  rw [bytes] at has
  obtain ⟨digit, -⟩ := Name.startsName_spec first starts
  unfold readPrimary
  simp only [Bind.bind, EStateM.bind, Eval.byteAt, get, getThe, MonadStateOf.get, EStateM.get, pure, EStateM.pure,
    Expression.starting, has.1, digit, starts, Bool.false_eq_true, if_false, if_true]

/-- A name alone disturbs nothing. -/
theorem yields_name {ceiling : Nat} (running : machine.memory.stack.action.isIgnored = false)
    (has : machine.store.Has address name.bytes)
    (ends : Symbol.continuesName (machine.store.byte (address + name.bytes.length)) = false)
    (stops : StopsAt ceiling (machine.store.byte (address + name.bytes.length))) :
    Yields (evaluate steps levels address ceiling false) machine fun expression after =>
      expression.code = address + name.bytes.length ∧ machine.Undisturbed after := by
  refine yields_evaluate (fun deeper _ => yields_frame running ?_ ?_) ?_
  · obtain ⟨result, reads, -, code, -⟩ := Name.readVariable_eq has ends
    refine .of_ran ((readPrimary_name has).trans reads) ⟨?_, code, .refl machine⟩
    rw [code]
    exact stops
  · rintro expression after last same ⟨code, before⟩
    exact ⟨code, before.trans same⟩
  · rintro expression after last same ⟨code, before⟩
    exact ⟨code, before.trans same⟩

end Machine

namespace Code

theorem count_headerText (name : Name) (parameters : List Name) :
    (headerText name parameters).count 0x2c = parameters.length := by
  have none : ∀ name : Name, name.bytes.count 0x2c = 0 := fun name =>
    List.count_eq_zero.mpr fun mem =>
      Name.continuesName_ne_comma 0x2c (List.all_eq_true.mp name.continues _ mem) rfl
  induction parameters generalizing name with
  | nil => exact none name
  | cons parameter rest ih => simp [headerText, none, ih]

theorem plain_headerText (name : Name) (parameters : List Name) : Store.Plain (headerText name parameters) := by
  induction parameters generalizing name with
  | nil => exact name.plain
  | cons parameter rest ih =>
      intro byte mem
      rcases List.mem_append.mp mem with first | rest
      · exact name.plain byte first
      · rcases List.mem_cons.mp rest with rfl | rest
        · decide
        · exact ih parameter byte rest

/-- The first name of a header. -/
theorem has_of_headerText {store : Store} {parameters : List Name}
    (has : store.Has address (headerText name parameters))
    (ends : Store.endsLine (store.byte (address + (headerText name parameters).length)) = true) :
    store.Has address name.bytes ∧ Symbol.continuesName (store.byte (address + name.bytes.length)) = false := by
  cases parameters with
  | nil => exact ⟨has, Name.continuesName_of_endsLine _ ends⟩
  | cons parameter rest =>
      obtain ⟨first, comma, -⟩ := Store.has_append.mp has
      rw [comma]
      exact ⟨first, rfl⟩

/-- The names of a definition disturb nothing. -/
theorem yields_headerText {start array : Nat} {parameters : List Name}
    (running : machine.memory.stack.action.isIgnored = false)
    (has : machine.store.Has address (headerText name parameters))
    (ends : Store.endsLine (machine.store.byte (address + (headerText name parameters).length)) = true) :
    Yields (readFunctionArguments (innerOf steps levels) start array true (parameters.length + 1) address) machine
      fun result after => result.2 = address + (headerText name parameters).length ∧ machine.Undisturbed after := by
  induction parameters generalizing machine address name with
  | nil =>
      refine (Machine.yields_name running has (Name.continuesName_of_endsLine _ ends)
        (stopsAt_of_endsLine _ ends)).bind ?_
      rintro argument evaluated ⟨code, same⟩
      simp only [Bool.not_true, Bool.and_false, Bool.false_eq_true, if_false, if_true]
      refine (Machine.yields_trackIn array _).bind ?_
      intro _ after same'
      exact .pure ⟨code, same.trans same'⟩
  | cons parameter rest ih =>
      obtain ⟨has_name, comma, has_rest⟩ := Store.has_append.mp has
      have length : (headerText name (parameter :: rest)).length =
          name.bytes.length + 1 + (headerText parameter rest).length := by
        simp [headerText]
        omega
      have together : address + name.bytes.length + 1 + (headerText parameter rest).length =
          address + (name.bytes.length + 1 + (headerText parameter rest).length) := by omega
      rw [length] at ends ⊢
      refine (Machine.yields_name running has_name (by rw [comma]; decide)
        (by rw [comma]; exact stopsAt_of_none _ (by decide))).bind ?_
      rintro argument evaluated ⟨code, same⟩
      simp only [Bool.not_true, Bool.and_false, Bool.false_eq_true, if_false, List.length_cons]
      refine (Machine.yields_trackIn array _).bind ?_
      intro _ tracked same'
      have undisturbed := same.trans same'
      rw [if_neg (Nat.succ_ne_zero _)]
      refine .byteAt_bind ?_
      rw [code, undisturbed.store, comma]
      simp only [ne_eq, not_true_eq_false, if_false]
      have reads : Yields (readFunctionArguments (innerOf steps levels) start array true (rest.length + 1)
          (address + name.bytes.length + 1)) tracked fun result after =>
            result.2 = address + name.bytes.length + 1 + (headerText parameter rest).length ∧
              tracked.Undisturbed after := by
        refine ih ?_ ?_ ?_
        · rw [undisturbed.stack]
          exact running
        · rw [undisturbed.store]
          exact has_rest
        · rw [undisturbed.store, together]
          exact ends
      refine reads.bind ?_
      rintro ⟨others, after⟩ last ⟨behind, same''⟩
      exact .pure ⟨behind.trans together, undisturbed.trans same''⟩

end Code

/-- One point of a course comes after another by storing a value under a name. -/
structure Course.Stores (functions : List String) (name : String) (value : Value) (course course' : Course) :
    Prop where
  shown : course'.shown = course.shown
  env : ∀ other, other ∉ functions →
    (course'.env other).map Value.number = if name = other then some value else (course.env other).map Value.number

namespace Course

theorem stores_assign (functions : List String) (course : Course) (name : String) (value : Float32) :
    course.Stores functions name (.number value) (course.assign name value) := by
  refine ⟨rfl, fun other _ => ?_⟩
  by_cases same : name = other
  · simp [assign, same]
  · simp [assign, same]

/-- The values of functions do not count. -/
theorem stores_of_mem {functions : List String} {name : String} (mem : name ∈ functions) (course : Course)
    (value : Value) : course.Stores functions name value course := by
  refine ⟨rfl, fun other apart => ?_⟩
  have different : name ≠ other := by
    rintro rfl
    exact apart mem
  rw [if_neg different]

end Course

section Places

variable {scene : Scene κ} {course course' : Course} {branch : Branch} {branches : List Branch}
  {place : VariableRef} {text : String} {value : Value}

/-- Storing a value at the place gives it to the variable of the name. -/
def Scene.Writable (scene : Scene κ) (machine : Machine κ) (place : VariableRef) (name : String) (course : Course)
    (branches : List Branch) : Prop :=
  ∀ {value : Value} {course' : Course} (hold : Hold) (start : Address),
    course.Stores scene.functions name value course' →
      Yields ((Destination.variable place).write hold value start) machine
        fun _ after => scene.Stands after course' branches

theorem Scene.writable_of_latest {bindings : Array Variable} {index : Nat} (machine : Machine κ)
    (store : machine.store = scene.store) (fault : machine.fault? = none) (waits : scene.waits machine.console)
    (shown : scene.shown machine.console = course.shown) (only : machine.memory.stack.Global bindings branches)
    (found : latestIndex? bindings text = some index)
    (values : ∀ other, other ∉ scene.functions → text ≠ other →
      latest? bindings other = (course.env other).map Value.number) :
    scene.Writable machine ⟨0, index⟩ text course branches := by
  intro value course' hold start stores
  obtain ⟨binding, there, -⟩ := name_of_latestIndex? found
  have here : machine.memory.stack.variableAt? ⟨0, index⟩ = some binding := by
    rw [only.variableAt?]
    exact there
  have ran : (Destination.variable ⟨0, index⟩).write hold value start machine = .ok () { machine with
      memory := { machine.memory with stack := machine.memory.stack.setVariable ⟨0, index⟩ value } } := by
    simp only [Destination.write, Eval.onMemory, Eval.onMemoryAs, Memory.setVariable, here]
  refine .of_ran ran ⟨store, fault, waits, shown.trans stores.shown.symm, _, only.setVariable index value, ?_⟩
  intro other apart
  rw [latest?_modify found, stores.env other apart]
  split
  · rfl
  · next different => exact values other apart different

namespace Scene.Stands

/-- The variable of a name. -/
theorem writable (stands : scene.Stands machine course branches)
    (found : machine.memory.stack.find? text = some place) : scene.Writable machine place text course branches := by
  obtain ⟨store, fault, waits, shown, bindings, only, values⟩ := stands
  rw [only.find?] at found
  obtain ⟨index, latest, rfl⟩ := Option.map_eq_some_iff.mp found
  exact writable_of_latest machine store fault waits shown only latest fun other apart _ => values other apart

/-- A new variable of a name. -/
theorem createVariable (stands : scene.Stands machine course branches) (text : String) (start : Address) :
    Yields (Eval.onMemory start (Memory.createVariable text .missing)) machine
      fun place after => scene.Writable after place text course branches := by
  obtain ⟨store, fault, waits, shown, bindings, only, values⟩ := stands
  refine .onStack ?_
  rcases only.createVariable text .missing machine.memory.heap.boundary with ⟨created, ran, only'⟩ | ran
  · refine .inl ⟨_, created, ran, writable_of_latest
      { machine with memory := { machine.memory with stack := created } } store fault waits shown only' ?_ ?_⟩
    · rw [latestIndex?_push, if_pos rfl]
    · intro other apart different
      rw [latest?_push, if_neg different]
      exact values other apart
  · exact .inr ran

/-- The number of a variable. -/
theorem read_variable (stands : scene.Stands machine course branches)
    (found : machine.memory.stack.find? text = some place) (apart : text ∉ scene.functions) {number : Float32}
    (known : course.env text = some number) (hold : Hold) (start : Address) :
    (Destination.variable place).read hold start machine = .ok (.number number) machine := by
  obtain ⟨-, -, -, -, bindings, only, values⟩ := stands
  have value : machine.memory.variableValue? place = some (.number number) := by
    have latest := values text apart
    rw [← only.value?, ScopeStack.value?, found, known] at latest
    exact latest
  simp [Destination.read, Eval.onMemory, Eval.onMemoryAs, Memory.look, value]

end Scene.Stands

end Places

section Lines

variable {scene : Scene κ} {course course' : Course} {branch : Branch} {branches : List Branch}

/-- Printing a number. -/
theorem Scene.Stands.print (stands : scene.Stands machine course branches) (value : Float32) (start : Address) :
    Yields (Machine.applyConsole .print [.number value] start) machine
      fun _ after => scene.Stands after (course.print value) branches := by
  obtain ⟨store, fault, waits, shown, scope⟩ := stands
  obtain ⟨goes, waits', shown'⟩ := scene.print machine.console (writeNumber value) waits
  have prints : Yields (Eval.ask (Console.print · (writeNumber value))) machine
      fun goes after => goes = true ∧ scene.Stands after (course.print value) branches := by
    refine ⟨goes, store, fault, waits', ?_, scope⟩
    rw [Course.print, ← shown]
    exact shown'
  have shows : Yields (Machine.shownText (.number value) start) machine
      fun text after => text = writeNumber value ∧ after = machine := ⟨rfl, rfl⟩
  refine shows.bind ?_
  rintro _ _ ⟨rfl, rfl⟩
  refine prints.bind ?_
  rintro _ printed ⟨rfl, store, fault, waits, shown, scope⟩
  obtain ⟨waits', shown'⟩ := scene.resume printed.console waits
  exact ⟨store, fault, waits', shown'.trans shown, scope⟩

theorem Scene.Stands.turns_print {formula : Formula} {value : Float32}
    (stands : scene.Stands machine course (branch :: branches)) (ready : machine.Ready)
    (running : branch.action.isIgnored = false)
    (has : scene.store.Has address ((Builtin.console .print).byte :: formula.text))
    (ends : Store.endsLine (scene.store.byte (address + (formula.text.length + 1))) = true)
    (apart : ∀ read ∈ formula.names, read ∉ scene.functions) (means : formula.meaning course.env = some value) :
    scene.Turns steps levels machine address (course.print value) (branch :: branches)
      (address + (formula.text.length + 1)) := by
  have plain : machine.memory.stack.action.isIgnored = false := by
    rw [stands.action]
    exact running
  obtain ⟨here, has⟩ := has
  refine .of_primary plain fun deeper _ => ?_
  rw [← stands.store] at here
  unfold Yields
  rw [Machine.readPrimary_builtin here]
  refine Yields.get_bind ?_
  refine Machine.yields_arguments (· = [.number value]) (address + (formula.text.length + 1)) ready
    (fun array tracked same ready => ?_) ?_
  · exact (stands.undisturbed same).yields_formula ready running has ends apart means array
  · rintro _ after rfl same
    refine ((stands.undisturbed same).print value _).bind ?_
    intro _ last stands
    exact .pure ⟨stopsAt_of_endsLine _ ends, stands, rfl⟩

/-- A definition gives the function to its name, and its body is skipped. -/
theorem Scene.Stands.define {parameters : List Name} (stands : scene.Stands machine course branches)
    (has : scene.store.Has (address + 1) (Code.headerText name parameters))
    (ends : Store.endsLine (scene.store.byte (address + 1 + (Code.headerText name parameters).length)) = true)
    (mem : name.text ∈ scene.functions) (code : Nat) :
    Yields (Machine.define { Expression.starting address with code }) machine fun result after =>
      scene.Stands after course (⟨.ignoreHard, 0⟩ :: branches) ∧ result.code = code := by
  obtain ⟨first, stops⟩ := Code.has_of_headerText has ends
  have stores : ∀ value, course.Stores scene.functions name.text value course := Course.stores_of_mem mem course
  rw [← stands.store] at first stops
  refine .bind_ran (Name.readName_eq first stops) ?_
  refine .get_bind ?_
  have opens : ∀ (after : Machine κ), scene.Stands after course branches →
      Yields (do
        Eval.onMemory address (Memory.pushBranch .ignoreHard 0)
        return { Expression.starting address with code }) after fun result after =>
          scene.Stands after course (⟨.ignoreHard, 0⟩ :: branches) ∧ result.code = code := by
    intro after stands
    refine (stands.pushBranch _ _ _).bind ?_
    intro _ last stands
    exact .pure ⟨stands, rfl⟩
  cases found : machine.memory.stack.find? name.text with
  | some place =>
      refine .bind_ran rfl ?_
      refine (stands.writable found .kept _ (stores _)).bind ?_
      exact fun _ after stands => opens after stands
  | none =>
      refine (stands.createVariable name.text _).bind ?_
      intro place created writes
      refine (writes .kept _ (stores _)).bind ?_
      exact fun _ after stands => opens after stands

theorem Scene.Stands.turns_define {parameters : List Name}
    (stands : scene.Stands machine course (branch :: branches)) (ready : machine.Ready)
    (running : branch.action.isIgnored = false)
    (has : scene.store.Has address ((Builtin.control .define).byte :: Code.headerText name parameters))
    (ends : Store.endsLine (scene.store.byte (address + ((Code.headerText name parameters).length + 1))) = true)
    (mem : name.text ∈ scene.functions) :
    scene.Turns steps levels machine address course (⟨.ignoreHard, 0⟩ :: branch :: branches)
      (address + ((Code.headerText name parameters).length + 1)) := by
  obtain ⟨here, has⟩ := has
  have behind : address + 1 + (Code.headerText name parameters).length =
      address + ((Code.headerText name parameters).length + 1) := by omega
  have header : Store.endsLine (scene.store.byte (address + 1 + (Code.headerText name parameters).length)) = true := by
    rw [behind]
    exact ends
  have count : scene.store.parameterCount address = parameters.length := by
    rw [Store.parameterCount, Store.lineFrom_eq has (Code.plain_headerText name parameters) header,
      Code.count_headerText]
  have arity : (Builtin.control .define).arity?.getD (scene.store.parameterCount address + 1) =
      parameters.length + 1 := by
    rw [count]
    rfl
  have definition : (Builtin.control .define == .control .define) = true := by decide
  refine stands.turns_control (fun _ => True) _ ready running here (stopsAt_of_endsLine _ ends)
    (fun deeper array tracked same _ => ?_) fun arguments after _ stands => stands.define has header mem _
  rw [arity, definition]
  have stands := stands.undisturbed same
  rw [← stands.store] at has header
  rw [← stands.action] at running
  refine (Code.yields_headerText running has header).mono ?_
  rintro result after ⟨code, same⟩
  exact ⟨trivial, code.trans behind, same⟩

/-- The operator between a variable and what is assigned to it. -/
def Code.assignOperator : Option Combination → BinaryOperator
  | none => .assign
  | some operator => .update operator

theorem Code.assignByte_spec (operator? : Option Combination) :
    Symbol.continuesName (assignByte operator?) = false ∧ Step.ofByte? (assignByte operator?) = none ∧
      assignByte operator? ≠ 0x5b ∧ ¬ (assignByte operator? = 0x3a ∨ assignByte operator? = 0x3b) ∧
      BinaryOperator.ofByte? (assignByte operator?) = some (assignOperator operator?) ∧
      (assignOperator operator?).precedence = BinaryOperator.assign.precedence := by
  cases operator? with
  | none => decide
  | some operator => cases operator <;> decide

theorem Scene.Stands.assign (expression : Expression) (stands : scene.Stands machine course branches)
    (start : expression.start = address) (has : scene.store.Has address name.bytes)
    (stops : Symbol.continuesName (scene.store.byte (address + name.bytes.length)) = false)
    (written : expression.destination? = (machine.memory.stack.find? name.text).map .variable) (value : Float32) :
    Yields (Machine.assign expression (.number value)) machine fun result after =>
      scene.Stands after (course.assign name.text value) branches ∧ result.code = expression.code := by
  have stores := Course.stores_assign scene.functions course name.text value
  unfold Machine.assign
  cases found : machine.memory.stack.find? name.text with
  | some place =>
      rw [written, found]
      refine (stands.writable found _ _ stores).bind ?_
      intro _ after stands
      exact .pure ⟨stands, rfl⟩
  | none =>
      rw [← stands.store] at has stops
      rw [written, found, start]
      refine .bind_ran (Name.readName_eq has stops) ?_
      refine (stands.createVariable name.text _).bind ?_
      intro place created writes
      refine (writes .kept _ stores).bind ?_
      intro _ after stands
      exact .pure ⟨stands, rfl⟩

theorem Scene.Stands.update (expression : Expression) {operator : Combination} {old value stored : Float32}
    (stands : scene.Stands machine course branches) (apart : name.text ∉ scene.functions)
    (written : expression.destination? = (machine.memory.stack.find? name.text).map .variable)
    (known : course.env name.text = some old) (applied : operator.apply old value = some stored) :
    Yields (Machine.update operator expression (.number value)) machine fun result after =>
      scene.Stands after (course.assign name.text stored) branches ∧ result.code = expression.code := by
  have stores := Course.stores_assign scene.functions course name.text stored
  have there : machine.memory.stack.value? name.text = some (.number old) := by
    have reads : machine.Reads [name.text] course.env := stands.reads (by simpa using apart)
    rw [reads name.text (List.mem_singleton_self _), known]
    rfl
  cases found : machine.memory.stack.find? name.text with
  | none => simp [ScopeStack.value?, found] at there
  | some place =>
      unfold Machine.update
      rw [written, found]
      refine .bind_ran (stands.read_variable found apart known _ _) ?_
      simp only [Combination.update_eq_apply, applied]
      refine (stands.writable found _ _ stores).bind ?_
      intro _ after stands
      exact .pure ⟨stands, rfl⟩

/-- The operator with the formula behind it. -/
theorem Scene.Stands.yields_applyBinary {expression : Expression} {operator? : Option Combination}
    {formula : Formula} {value stored : Float32} (stands : scene.Stands machine course (branch :: branches))
    (ready : machine.Ready) (running : branch.action.isIgnored = false)
    (live : machine.memory.Live expression.value) (start : expression.start = address)
    (has : scene.store.Has address name.bytes)
    (stops : Symbol.continuesName (scene.store.byte (address + name.bytes.length)) = false)
    (written : expression.destination? = (machine.memory.stack.find? name.text).map .variable)
    (behind : scene.store.Has (expression.code + 1) formula.text)
    (ends : Store.endsLine (scene.store.byte (expression.code + 1 + formula.text.length)) = true)
    (apart : name.text ∉ scene.functions) (apart' : ∀ read ∈ formula.names, read ∉ scene.functions)
    (means : formula.meaning course.env = some value)
    (stores : assigned operator? (course.env name.text) value = some stored) :
    Yields (Machine.applyBinary (innerOf steps levels) (Code.assignOperator operator?) expression) machine
      fun result after => scene.Stands after (course.assign name.text stored) (branch :: branches) ∧
        result.code = expression.code + 1 + formula.text.length := by
  obtain ⟨-, -, -, -, -, binds⟩ := Code.assignByte_spec operator?
  refine Yields.bind ((Machine.yields_track expression.value).keeps (Keeps.track ready.toSteady live)) ?_
  rintro _ tracked ⟨same, follows, -⟩
  have stands := stands.undisturbed same
  rw [← stands.store] at behind ends
  rw [← stands.action] at running
  rw [← same.stack] at written
  refine Yields.bind (formula.computes steps levels (follows.ready ready) running behind ends (stands.reads apart')
    means (Nat.le_of_eq binds.symm)) ?_
  rintro right evaluated ⟨number, code, same'⟩
  rw [number]
  refine Yields.bind (Machine.yields_track (.number value)) ?_
  intro _ registered same''
  have undisturbed := same'.trans same''
  have stands := stands.undisturbed undisturbed
  rw [← undisturbed.stack] at written
  simp only [Value.isMissing, Bool.false_eq_true, if_false]
  rw [← code]
  cases operator? with
  | none =>
      obtain rfl := Option.some.inj stores
      exact Stands.assign { expression with code := right.code, hold := expression.hold.outlast } stands start has stops
        written value
  | some operator =>
      obtain ⟨old, known, applied⟩ := Option.bind_eq_some_iff.mp stores
      exact Stands.update { expression with code := right.code, hold := expression.hold.outlast } stands apart written
        known applied

theorem Scene.Stands.turns_assign {operator? : Option Combination} {formula : Formula} {value stored : Float32}
    (stands : scene.Stands machine course (branch :: branches)) (ready : machine.Ready)
    (running : branch.action.isIgnored = false)
    (has : scene.store.Has address (name.bytes ++ Code.assignByte operator? :: formula.text))
    (ends : Store.endsLine (scene.store.byte
      (address + (name.bytes ++ Code.assignByte operator? :: formula.text).length)) = true)
    (apart : name.text ∉ scene.functions) (apart' : ∀ read ∈ formula.names, read ∉ scene.functions)
    (means : formula.meaning course.env = some value)
    (stores : assigned operator? (course.env name.text) value = some stored) :
    scene.Turns steps levels machine address (course.assign name.text stored) (branch :: branches)
      (address + (name.bytes ++ Code.assignByte operator? :: formula.text).length) := by
  have plain : machine.memory.stack.action.isIgnored = false := by
    rw [stands.action]
    exact running
  have length : address + (name.bytes ++ Code.assignByte operator? :: formula.text).length =
      address + name.bytes.length + 1 + formula.text.length := by
    simp
    omega
  rw [length] at ends ⊢
  obtain ⟨first, here, behind⟩ := Store.has_append.mp has
  obtain ⟨continues, step, index, call, operator, binds⟩ := Code.assignByte_spec operator?
  rw [← here] at continues step index call operator
  refine Machine.yields_evaluate (fun deeper _ => ?_) fun expression after last same holds =>
    ⟨holds.1.undisturbed same, holds.2⟩
  refine .get_bind ?_
  rw [plain, if_neg Bool.false_ne_true]
  have first' := first
  have continues' := continues
  rw [← stands.store] at first' continues'
  obtain ⟨result, reads, start, code, written⟩ := Name.readVariable_eq first' continues'
  have valid : result.Valid machine.memory := by
    have keeps := Machine.keeps_readVariable ready.toSteady (Expression.bare_starting address)
    unfold Keeps Eval.KeepsFrom at keeps
    rw [reads] at keeps
    exact keeps.2
  refine .bind_ran ((Machine.readPrimary_name first').trans reads) ?_
  have below : (Code.assignOperator operator?).precedence < Inner.statementCeiling := by
    rw [binds]
    decide
  rw [← stands.store, ← code] at step index call operator
  refine Machine.yields_readRest_binary (Store.capacity - 1) ready valid step index call operator below
    (fun tracked same ready valid => ?_) fun expression after last same holds => ⟨holds.1.undisturbed same, holds.2⟩
  rw [← same.stack] at written
  rw [← code] at behind ends ⊢
  refine ((stands.undisturbed same).yields_applyBinary ready running valid.value start first continues written behind
    ends apart apart' means stores).mono ?_
  rintro last after ⟨stands, code⟩
  rw [code, stands.store]
  exact ⟨stopsAt_of_endsLine _ ends, stands, rfl⟩

end Lines

end PocketScript
