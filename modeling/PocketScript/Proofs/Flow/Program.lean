import PocketScript.Proofs.Flow.GlobalScope
import PocketScript.Proofs.Flow.Text
import PocketScript.Proofs.Flow.Yielding

/-! # Structured programs

Programs as they are meant: blocks of statements with blocks in them. Their
meaning is given by structure alone, with no branch records and no addresses, and
they are written down as lines, one for each statement and each end of a block.
-/

namespace PocketScript

/-- The numbers of the variables. -/
abbrev Environment := String → Option Float32

/-- Nothing was changed but the heap, the roots and what is counted. -/
structure Machine.Undisturbed {κ : Type} (machine after : Machine κ) : Prop where
  store : after.store = machine.store
  console : after.console = machine.console
  fault : after.fault? = machine.fault?
  stack : after.memory.stack = machine.memory.stack

namespace Machine.Undisturbed

variable {κ : Type} {machine after last : Machine κ}

theorem refl (machine : Machine κ) : machine.Undisturbed machine :=
  ⟨rfl, rfl, rfl, rfl⟩

theorem trans (first : machine.Undisturbed after) (second : after.Undisturbed last) :
    machine.Undisturbed last :=
  ⟨second.store.trans first.store, second.console.trans first.console, second.fault.trans first.fault,
    second.stack.trans first.stack⟩

end Machine.Undisturbed

/-- The variables of these names hold the numbers of an environment. -/
def Machine.Reads {κ : Type} (machine : Machine κ) (names : List String) (env : Environment) : Prop :=
  ∀ name ∈ names, machine.memory.stack.value? name = (env name).map Value.number

/-- Where it stands at the end of a line, the text is evaluated to a number that
    only depends on the variables it reads, and nothing else comes of it. -/
def Computes (text : List UInt8) (names : List String) (meaning : Environment → Option Float32) : Prop :=
  ∀ {κ : Type} [Console κ] (steps levels : Nat) {machine : Machine κ} {address ceiling : Nat}
    {env : Environment} {value : Float32}, machine.Ready → machine.memory.stack.action.isIgnored = false →
    machine.store.Has address text → Store.endsLine (machine.store.byte (address + text.length)) = true →
    machine.Reads names env → meaning env = some value → BinaryOperator.assign.precedence ≤ ceiling →
    Eval.Yields (Machine.evaluate steps levels address ceiling false) machine fun expression after =>
      expression.value = .number value ∧ expression.code = address + text.length ∧ machine.Undisturbed after

/-- A numeric expression without effects. It means no number where evaluating it
    would fail. -/
structure Formula where
  text : List UInt8
  /-- The names of the variables it reads. -/
  names : List String
  meaning : Environment → Option Float32
  plain : Store.Plain text
  computes : Computes text names meaning

/-- The byte of a built-in function. -/
def Builtin.byte (builtin : Builtin) : UInt8 :=
  UInt8.ofNat (Symbol.firstBuiltin + Symbol.builtins.toList.idxOf builtin)

/-- The byte of the operator that combines a number into a variable. -/
def Combination.updateByte : Combination → UInt8
  | .add => 139
  | .subtract => 140
  | .multiply => 141
  | .divide => 142
  | .remainder => 143
  | .both => 144
  | .either => 145
  | .exactlyOne => 146
  | .bitAnd => 147
  | .bitOr => 148
  | .bitXor => 149
  | .shiftLeft => 150
  | .shiftRight => 151

/-- The two sorts of code: a block, and what follows the first arm of a choice. -/
inductive Part where
  | block
  | arms

/-- Structured code. -/
inductive Code : Part → Type 1 where
  | done : Code .block
  /-- Store a number in a variable, or combine it into one. -/
  | assign (name : Name) (operator? : Option Combination) (value : Formula) (rest : Code .block) : Code .block
  | print (value : Formula) (rest : Code .block) : Code .block
  | choose (condition : Formula) (body : Code .block) (arms : Code .arms) (rest : Code .block) : Code .block
  | loop (condition : Formula) (body rest : Code .block) : Code .block
  | leaveLoop (rest : Code .block) : Code .block
  | nextRound (rest : Code .block) : Code .block
  | define (name : Name) (parameters : List Name) (body rest : Code .block) : Code .block
  /-- No arm is left. -/
  | close : Code .arms
  | otherwise (body : Code .block) : Code .arms
  | otherwiseWhen (condition : Formula) (body : Code .block) (arms : Code .arms) : Code .arms

namespace Code

/-- The byte between a variable and what is assigned to it. -/
def assignByte : Option Combination → UInt8
  | none => 0x3d
  | some operator => operator.updateByte

/-- The names of a definition, with commas between them. -/
def headerText (name : Name) : (parameters : List Name) → List UInt8
  | [] => name.bytes
  | parameter :: rest => name.bytes ++ 0x2c :: headerText parameter rest

/-- The line that closes a block. -/
def closeLine : List UInt8 := [(Builtin.control .close).byte]

/-- The lines of a program. -/
def lines {part : Part} : Code part → List (List UInt8)
  | done => []
  | assign name operator? value rest => (name.bytes ++ assignByte operator? :: value.text) :: rest.lines
  | print value rest => ((Builtin.console .print).byte :: value.text) :: rest.lines
  | choose condition body arms rest =>
    ((Builtin.control .whenTrue).byte :: condition.text) :: (body.lines ++ (arms.lines ++ rest.lines))
  | loop condition body rest =>
    ((Builtin.control .loop).byte :: condition.text) :: (body.lines ++ closeLine :: rest.lines)
  | leaveLoop rest => [(Builtin.control .leaveLoop).byte] :: rest.lines
  | nextRound rest => [(Builtin.control .nextRound).byte] :: rest.lines
  | define name parameters body rest =>
    ((Builtin.control .define).byte :: headerText name parameters) :: (body.lines ++ closeLine :: rest.lines)
  | close => [closeLine]
  | otherwise body => [(Builtin.control .otherwise).byte] :: (body.lines ++ [closeLine])
  | otherwiseWhen condition body arms =>
    ((Builtin.control .otherwiseWhen).byte :: condition.text) :: (body.lines ++ arms.lines)

/-- The functions have the given names, and no variable does. The bodies of
    functions do not matter. -/
def Apart {part : Part} (functions : List String) : Code part → Prop
  | done | close => True
  | assign name _ value rest =>
    name.text ∉ functions ∧ (∀ read ∈ value.names, read ∉ functions) ∧ rest.Apart functions
  | print value rest => (∀ read ∈ value.names, read ∉ functions) ∧ rest.Apart functions
  | choose condition body arms rest =>
    (∀ read ∈ condition.names, read ∉ functions) ∧ body.Apart functions ∧ arms.Apart functions ∧
      rest.Apart functions
  | loop condition body rest =>
    (∀ read ∈ condition.names, read ∉ functions) ∧ body.Apart functions ∧ rest.Apart functions
  | leaveLoop rest | nextRound rest => rest.Apart functions
  | define name _ _ rest => name.text ∈ functions ∧ rest.Apart functions
  | otherwise body => body.Apart functions
  | otherwiseWhen condition body arms =>
    (∀ read ∈ condition.names, read ∉ functions) ∧ body.Apart functions ∧ arms.Apart functions

end Code

/-- What a program works on: its variables, and what was shown. -/
structure Course where
  env : Environment
  shown : List String

namespace Course

/-- A variable gets a number. -/
def assign (course : Course) (name : String) (value : Float32) : Course :=
  { course with env := fun other => if name = other then some value else course.env other }

/-- A number is printed. -/
def print (course : Course) (value : Float32) : Course :=
  { course with shown := course.shown ++ [writeNumber value] }

end Course

/-- What an assignment stores, given the number the variable has. -/
def assigned : (operator? : Option Combination) → (old? : Option Float32) → (value : Float32) → Option Float32
  | none, _, value => some value
  | some operator, old?, value => old?.bind (operator.apply · value)

/-- How a block ends. -/
inductive Ending where
  | normal
  /-- The innermost loop is left. -/
  | left
  /-- The innermost loop goes on with its next round. -/
  | again
  deriving DecidableEq

/-- The arm that is taken, with the arms behind it: the first whose condition
    holds, else the one without a condition, if there is one. -/
inductive Picks (env : Environment) : Code .arms → Option (Code .block × Code .arms) → Prop where
  | none : Picks env .close none
  | otherwise (body : Code .block) : Picks env (.otherwise body) (some (body, .close))
  | holds {condition : Formula} {value : Float32} (body : Code .block) (arms : Code .arms) :
    condition.meaning env = some value → isTrue value = true →
      Picks env (.otherwiseWhen condition body arms) (some (body, arms))
  | fails {condition : Formula} {value : Float32} {arms : Code .arms}
    {picked : Option (Code .block × Code .arms)} (body : Code .block) :
    condition.meaning env = some value → isTrue value = false → Picks env arms picked →
      Picks env (.otherwiseWhen condition body arms) picked

/-- The condition behind an arm that was taken does not fail. -/
def Code.Tested (env : Environment) : Code .arms → Prop
  | .otherwiseWhen condition _ _ => (condition.meaning env).isSome
  | .close | .otherwise _ => True

/-- What a block leads to. -/
inductive Exec : Code .block → Course → Ending → Course → Prop where
  | done (course : Course) : Exec .done course .normal course
  | assign {name : Name} {operator? : Option Combination} {formula : Formula} {rest : Code .block}
    {course last : Course} {ending : Ending} {value stored : Float32} :
    formula.meaning course.env = some value → assigned operator? (course.env name.text) value = some stored →
      Exec rest (course.assign name.text stored) ending last →
      Exec (.assign name operator? formula rest) course ending last
  | print {formula : Formula} {rest : Code .block} {course last : Course} {ending : Ending} {value : Float32} :
    formula.meaning course.env = some value → Exec rest (course.print value) ending last →
      Exec (.print formula rest) course ending last
  | pass {condition : Formula} {body : Code .block} {arms : Code .arms} {rest : Code .block}
    {course last : Course} {ending : Ending} :
    Picks course.env (.otherwiseWhen condition body arms) none → Exec rest course ending last →
      Exec (.choose condition body arms rest) course ending last
  | choose {condition : Formula} {body chosen : Code .block} {arms behind : Code .arms} {rest : Code .block}
    {course middle last : Course} {ending : Ending} :
    Picks course.env (.otherwiseWhen condition body arms) (some (chosen, behind)) →
      Exec chosen course .normal middle → behind.Tested middle.env → Exec rest middle ending last →
      Exec (.choose condition body arms rest) course ending last
  | jump {condition : Formula} {body chosen : Code .block} {arms behind : Code .arms} {rest : Code .block}
    {course last : Course} {ending : Ending} :
    Picks course.env (.otherwiseWhen condition body arms) (some (chosen, behind)) →
      Exec chosen course ending last → ending ≠ .normal →
      Exec (.choose condition body arms rest) course ending last
  | loopEnds {condition : Formula} {body rest : Code .block} {course last : Course} {ending : Ending}
    {value : Float32} :
    condition.meaning course.env = some value → isTrue value = false → Exec rest course ending last →
      Exec (.loop condition body rest) course ending last
  | loopLeft {condition : Formula} {body rest : Code .block} {course middle last : Course} {ending : Ending}
    {value : Float32} :
    condition.meaning course.env = some value → isTrue value = true → Exec body course .left middle →
      Exec rest middle ending last → Exec (.loop condition body rest) course ending last
  | loopGoes {condition : Formula} {body rest : Code .block} {course middle last : Course}
    {round ending : Ending} {value : Float32} :
    condition.meaning course.env = some value → isTrue value = true → Exec body course round middle →
      round ≠ .left → Exec (.loop condition body rest) middle ending last →
      Exec (.loop condition body rest) course ending last
  | leaveLoop (rest : Code .block) (course : Course) : Exec (.leaveLoop rest) course .left course
  | nextRound (rest : Code .block) (course : Course) : Exec (.nextRound rest) course .again course
  | define {name : Name} {parameters : List Name} {body rest : Code .block} {course last : Course}
    {ending : Ending} :
    Exec rest course ending last → Exec (.define name parameters body rest) course ending last

end PocketScript
