import PocketScript.Memory.Collection
import PocketScript.Memory.Sequence

/-! # What the roots reach

A root reaches its values, the scope it registers its variables, and a list the
values in it. The objects that are reached are the cells of these values and
what the cells stand for.
-/

namespace PocketScript

namespace Memory

variable {memory : Memory} {cell : Handle}

theorem payload_eq_ok_iff {payload : Payload} : memory.payload cell = .ok payload ↔
    ∃ target object, memory.heap.target? cell = some target ∧
      memory.heap.get? target = some object ∧ object.payload = payload := by
  rw [Memory.payload]
  cases memory.heap.target? cell with
  | none => simp
  | some target => cases found : memory.heap.get? target <;> simp [found]

theorem string_eq_ok_iff {bytes : List UInt8} : memory.string cell = .ok bytes ↔
    memory.payload cell = .ok (.bytes bytes) := by
  rw [Memory.string]
  cases memory.payload cell with
  | error error => simp [bind, Except.bind]
  | ok payload => cases payload <;> simp [bind, Except.bind]

theorem list_eq_ok_iff {values : List Value} : memory.list cell = .ok values ↔
    memory.payload cell = .ok (.values values) := by
  rw [Memory.list]
  cases memory.payload cell with
  | error error => simp [bind, Except.bind]
  | ok payload => cases payload <;> simp [bind, Except.bind]

/-- The values of all variables. -/
def boundValues (memory : Memory) : List Value :=
  memory.stack.scopes.toList.flatMap fun scope => scope.bindings.toList.map (·.value)

/-- The values in all lists. -/
def listedValues (memory : Memory) : List Value :=
  memory.heap.objects.flatMap fun (_, object) => object.payload.values?.getD []

/-- The values in roots, variables and lists. -/
def heldValues (memory : Memory) : List Value :=
  memory.roots.toList.flatMap memory.rootValues ++ memory.boundValues ++ memory.listedValues

/-- A value whose cell is still there is a string only if the cell stands for a
    string, and a list only if it stands for a list. -/
def TypedValue (memory : Memory) : Value → Prop
  | .string cell => memory.heap.contains cell = true → ∃ bytes, memory.string cell = .ok bytes
  | .list cell => memory.heap.contains cell = true → ∃ values, memory.list cell = .ok values
  | _ => True

/-- Every value in a root, a variable or a list is what its cell says. So a cell
    that is still there is never held both as a string and as a list. -/
def WellTyped (memory : Memory) : Prop :=
  ∀ value ∈ memory.heldValues, memory.TypedValue value

/-- The values that the roots reach. -/
inductive Reaches (memory : Memory) : Value → Prop where
  | root (root : Root) (value : Value) : root ∈ memory.roots → value ∈ memory.rootValues root →
      Reaches memory value
  | item (cell : Handle) (values : List Value) (value : Value) : Reaches memory (.list cell) →
      memory.list cell = .ok values → value ∈ values → Reaches memory value

/-- The objects that the roots reach. -/
inductive ReachesObject (memory : Memory) : Handle → Prop where
  | cell (value : Value) (cell : Handle) : memory.Reaches value → value.cell? = some cell →
      ReachesObject memory cell
  | target (value : Value) (cell object : Handle) : memory.Reaches value →
      value.cell? = some cell → memory.heap.target? cell = some object → ReachesObject memory object

end Memory

end PocketScript
