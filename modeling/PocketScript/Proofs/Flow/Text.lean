import PocketScript.Machine.Call
import PocketScript.Proofs.Bytes

/-! # Text in the store

Programs are read from the bytes of the store. What it takes for a text, and for
lines of text, to stand at an address, and what is read there then.
-/

namespace PocketScript

namespace Store

variable {store : Store} {address : Nat} {text : List UInt8}

/-- A text stands at an address. -/
def Has (store : Store) : Address → List UInt8 → Prop
  | _, [] => True
  | address, byte :: rest => store.byte address = byte ∧ Has store (address + 1) rest

/-- Lines stand at an address, and no more code behind them. -/
def HasLines (store : Store) : Address → List (List UInt8) → Prop
  | address, [] => store.byte address = 0
  | address, line :: rest => store.Has address line ∧
    (store.byte (address + line.length) = 0x0a ∧ HasLines store (address + line.length + 1) rest ∨
      rest = [] ∧ store.byte (address + line.length) = 0)

instance decidableHas (store : Store) : ∀ (address : Address) (text : List UInt8),
    Decidable (store.Has address text)
  | _, [] => .isTrue trivial
  | address, byte :: rest =>
    have := decidableHas store (address + 1) rest
    inferInstanceAs (Decidable (store.byte address = byte ∧ Has store (address + 1) rest))

instance decidableHasLines (store : Store) : ∀ (address : Address) (lines : List (List UInt8)),
    Decidable (store.HasLines address lines)
  | address, [] => inferInstanceAs (Decidable (store.byte address = 0))
  | address, line :: rest =>
    have := decidableHasLines store (address + line.length + 1) rest
    inferInstanceAs (Decidable (store.Has address line ∧
      (store.byte (address + line.length) = 0x0a ∧ HasLines store (address + line.length + 1) rest ∨
        rest = [] ∧ store.byte (address + line.length) = 0)))

theorem has_append {front back : List UInt8} : store.Has address (front ++ back) ↔
    store.Has address front ∧ store.Has (address + front.length) back := by
  induction front generalizing address with
  | nil => simp [Has]
  | cons byte rest ih =>
      simp only [List.cons_append, Has, ih, List.length_cons, and_assoc]
      rw [Nat.add_assoc, Nat.add_comm 1]

theorem lt_capacity (some_byte : store.byte address ≠ 0) : address < capacity := by
  refine Nat.lt_of_not_le fun beyond => some_byte ?_
  have outside : store.bytes[address]? = none := Vector.getElem?_eq_none beyond
  rw [byte, outside, Option.getD_none]

/-- A text without the end of a line. -/
def Plain (text : List UInt8) : Prop :=
  ∀ byte ∈ text, endsLine byte = false

theorem Plain.ne_zero (plain : Plain text) {byte : UInt8} (mem : byte ∈ text) : byte ≠ 0 := by
  rintro rfl
  simpa [endsLine] using plain 0 mem

theorem length_le_of_has (has : store.Has address text) (plain : Plain text) :
    text.length ≤ capacity - address := by
  induction text generalizing address with
  | nil => simp
  | cons byte rest ih =>
      obtain ⟨here, behind⟩ := has
      have some_byte : store.byte address ≠ 0 := by
        rw [here]
        exact plain.ne_zero (List.mem_cons_self ..)
      have inside := lt_capacity some_byte
      have := ih behind fun other mem => plain other (List.mem_cons_of_mem _ mem)
      rw [List.length_cons]
      omega

theorem scanWithin_eq {stop : UInt8 → Bool} {count : Nat} (room : text.length ≤ count)
    (has : store.Has address text) (going : ∀ byte ∈ text, stop byte = false)
    (stops : stop (store.byte (address + text.length)) = true) :
    store.scanWithin stop count address = text := by
  induction text generalizing address count with
  | nil =>
      cases count with
      | zero => rfl
      | succ count =>
          rw [List.length_nil, Nat.add_zero] at stops
          rw [scanWithin, if_pos stops]
  | cons byte rest ih =>
      obtain ⟨here, behind⟩ := has
      cases count with
      | zero => simp at room
      | succ count =>
          rw [List.length_cons] at room stops
          have goes : ¬ stop (store.byte address) = true := by
            rw [here, going byte (List.mem_cons_self ..)]
            simp
          rw [scanWithin, if_neg goes, here, ih (by omega) behind
            (fun other mem => going other (List.mem_cons_of_mem _ mem))]
          rwa [Nat.add_assoc, Nat.add_comm 1]

theorem lineFrom_eq (has : store.Has address text) (plain : Plain text)
    (stops : endsLine (store.byte (address + text.length)) = true) : store.lineFrom address = text :=
  scanWithin_eq (length_le_of_has has plain) has plain stops

theorem lineEnd_eq (has : store.Has address text) (plain : Plain text)
    (stops : endsLine (store.byte (address + text.length)) = true) :
    store.lineEnd address = address + text.length := by
  rw [lineEnd, lineFrom_eq has plain stops]

theorem HasLines.endsLine {line : List UInt8} {rest : List (List UInt8)}
    (lines : store.HasLines address (line :: rest)) :
    endsLine (store.byte (address + line.length)) = true := by
  rcases lines.2 with ⟨feed, -⟩ | ⟨-, zero⟩
  · simp [Store.endsLine, feed]
  · simp [Store.endsLine, zero]

end Store

/-- A name that a program may use. -/
structure Name where
  bytes : List UInt8
  starts : bytes.head?.any Symbol.startsName = true
  continues : bytes.all Symbol.continuesName = true
  short : bytes.length < Store.variableNameLimit

namespace Name

/-- The name as it is known to the scopes. -/
def text (name : Name) : String :=
  nameOfBytes name.bytes

variable {name : Name} {store : Store} {address : Nat}

theorem endsLine_of_continuesName : ∀ byte : UInt8, Symbol.continuesName byte = true →
    Store.endsLine byte = false :=
  forall_byte (by decide +kernel)

theorem plain (name : Name) : Store.Plain name.bytes :=
  fun byte mem => endsLine_of_continuesName byte (List.all_eq_true.mp name.continues byte mem)

theorem restOfName?_eq {rest : List UInt8} {room : Nat} (fits : rest.length < room)
    (has : store.Has address rest) (continues : ∀ byte ∈ rest, Symbol.continuesName byte = true)
    (stops : Symbol.continuesName (store.byte (address + rest.length)) = false) :
    store.restOfName? room address = some rest := by
  induction rest generalizing address room with
  | nil =>
      cases room with
      | zero => simp at fits
      | succ room =>
          rw [List.length_nil, Nat.add_zero] at stops
          rw [Store.restOfName?, stops]
          rfl
  | cons byte rest ih =>
      obtain ⟨here, behind⟩ := has
      cases room with
      | zero => simp at fits
      | succ room =>
          rw [List.length_cons] at fits stops
          have goes := continues byte (List.mem_cons_self ..)
          rw [← Nat.add_assoc, Nat.add_right_comm] at stops
          have found : store.restOfName? room (address + 1) = some rest := ih (by omega) behind
            (fun other mem => continues other (List.mem_cons_of_mem _ mem)) stops
          rw [Store.restOfName?, here, if_pos goes, found, Option.map_some]

theorem name?_eq (has : store.Has address name.bytes)
    (stops : Symbol.continuesName (store.byte (address + name.bytes.length)) = false) :
    store.name? address = some name.bytes := by
  obtain ⟨bytes, starts, continues, short⟩ := name
  cases bytes with
  | nil => simp at starts
  | cons first rest =>
      obtain ⟨here, behind⟩ := has
      have starts : Symbol.startsName first = true := by simpa using starts
      have continues : ∀ byte ∈ rest, Symbol.continuesName byte = true :=
        fun byte mem => List.all_eq_true.mp continues byte (List.mem_cons_of_mem _ mem)
      simp only [List.length_cons] at short stops
      rw [← Nat.add_assoc, Nat.add_right_comm] at stops
      have found : store.restOfName? (Store.variableNameLimit - 1) (address + 1) = some rest :=
        restOfName?_eq (by omega) behind continues stops
      rw [Store.name?, here, if_pos starts, found, Option.map_some]

end Name

end PocketScript
