import PocketScript.Machine.Run
import PocketScript.Proofs.Metering.Advancing
import PocketScript.Proofs.Store.Contents

/-! # The line of an address

A fault is shown with the program line that its address lies in. The line is looked for in the
bytes of the store: down to a line feed or to where the data of the slot starts, and up to a line
feed or to the zero that closes the data. Both ends are found inside the slot, so nothing in front
of the data and nothing behind it matters, whatever it looks like.
-/

namespace PocketScript.Store

variable {store : Store} {lowest address place : Nat} {text : List UInt8} {offset count first past : Nat}

theorem byte_ne_feed_of_lineStart_le (behind : store.lineStart lowest address ≤ place) (before : place < address) :
    store.byte place ≠ 0x0a := by
  induction address with
  | zero => cases before
  | succ address ih =>
      rw [lineStart] at behind
      split at behind
      next back =>
        obtain before | rfl := Nat.lt_succ_iff_lt_or_eq.mp before
        · exact ih behind before
        · exact back.2
      next => exact absurd before (Nat.not_lt_of_le behind)

theorem byte_in_front_of_lineStart (below : lowest < store.lineStart lowest address) :
    store.byte (store.lineStart lowest address - 1) = 0x0a := by
  induction address with
  | zero => cases below
  | succ address ih =>
      rw [lineStart] at below ⊢
      split
      next back =>
        rw [if_pos back] at below
        exact ih below
      next here =>
        rw [if_neg here] at below
        exact of_not_not fun other => here ⟨below, other⟩

theorem scanWithin_eq_read (store : Store) (stop : UInt8 → Bool) (count : Nat) (address : Address) :
    store.scanWithin stop count address = store.read address (store.scanWithin stop count address).length := by
  induction count generalizing address with
  | zero => rfl
  | succ count ih =>
      rw [scanWithin]
      split
      · rfl
      · rw [List.length_cons, read_succ, ← ih]

theorem goes_of_lt_scanWithin {stop : UInt8 → Bool} (before : offset < (store.scanWithin stop count address).length) :
    stop (store.byte (address + offset)) = false := by
  induction count generalizing address offset with
  | zero => cases before
  | succ count ih =>
      rw [scanWithin] at before
      split at before
      · cases before
      next goes =>
        cases offset with
        | zero => exact Bool.eq_false_iff.mpr goes
        | succ offset =>
            rw [← Nat.add_assoc, Nat.add_right_comm]
            exact ih (Nat.lt_of_succ_lt_succ before)

theorem stops_at_scanWithin {stop : UInt8 → Bool} (room : (store.scanWithin stop count address).length < count) :
    stop (store.byte (address + (store.scanWithin stop count address).length)) = true := by
  induction count generalizing address with
  | zero => cases room
  | succ count ih =>
      rw [scanWithin] at room ⊢
      split
      next stops => exact stops
      next goes =>
        rw [if_neg goes] at room
        rw [List.length_cons, ← Nat.add_assoc, Nat.add_right_comm]
        exact ih (Nat.lt_of_succ_lt_succ room)

theorem lineFrom_eq_read (store : Store) (address : Address) :
    store.lineFrom address = store.read address (store.lineEnd address - address) := by
  rw [lineEnd, Nat.add_sub_cancel_left]
  exact store.scanWithin_eq_read endsLine _ address

theorem endsLine_of_lt_lineEnd (behind : address ≤ place) (before : place < store.lineEnd address) :
    endsLine (store.byte place) = false := by
  obtain ⟨offset, rfl⟩ := Nat.exists_eq_add_of_le behind
  exact goes_of_lt_scanWithin (Nat.lt_of_add_lt_add_left before)

/-- A line ends at the end of the store, if not before: behind it only zeros are read. -/
theorem endsLine_lineEnd (store : Store) (address : Address) :
    endsLine (store.byte (store.lineEnd address)) = true := by
  by_cases room : (store.lineFrom address).length < capacity - address
  · exact stops_at_scanWithin room
  · have zero : store.byte (store.lineEnd address) = 0 := by
      refine of_not_not fun some_byte => ?_
      have inside := lt_capacity some_byte
      rw [lineEnd] at inside
      omega
    rw [zero]
    rfl

/-- There are no line feeds in this part of a text. -/
def Unbroken (text : List UInt8) (first past : Nat) : Prop :=
  past ≤ text.length ∧ ∀ place : Nat, first ≤ place → place < past → text[place]? ≠ some 0x0a

/-- The line that a byte of a text lies in: the longest part around it that has no line feeds. -/
structure IsLineOf (text : List UInt8) (offset first past : Nat) : Prop where
  around : first ≤ offset ∧ offset < past
  unbroken : Unbroken text first past
  longest : ∀ first' past' : Nat, Unbroken text first' past' → first' ≤ offset → offset < past' →
    first ≤ first' ∧ past' ≤ past

/-- A part without line feeds is a line if it cannot be made longer on either side. -/
theorem IsLineOf.of_borders (around : first ≤ offset ∧ offset < past) (unbroken : Unbroken text first past)
    (front : 0 < first → text[first - 1]? = some 0x0a) (back : past < text.length → text[past]? = some 0x0a) :
    IsLineOf text offset first past := by
  refine ⟨around, unbroken, fun first' past' unbroken' before behind => ⟨?_, ?_⟩⟩
  · refine Nat.le_of_not_lt fun longer => ?_
    exact unbroken'.2 (first - 1) (Nat.le_sub_one_of_lt longer) (by omega) (front (Nat.zero_lt_of_lt longer))
  · refine Nat.le_of_not_lt fun longer => ?_
    exact unbroken'.2 past (by omega) longer (back (Nat.lt_of_lt_of_le longer unbroken'.1))

section Standing

variable (has : store.Has address (text ++ [0])) (closed : 0 ∉ text)
include has

theorem getElem?_of_has (inside : place < text.length) : text[place]? = some (store.byte (address + place)) := by
  rw [byte_of_has (has_append.mp has).1 inside, List.getElem?_eq_getElem inside]

theorem byte_behind_text : store.byte (address + text.length) = 0 :=
  (has_append.mp has).2.1

include closed

theorem endsLine_iff_feed (inside : place < text.length) :
    endsLine (store.byte (address + place)) = true ↔ text[place]? = some 0x0a := by
  have here := getElem?_of_has has inside
  have no_zero : store.byte (address + place) ≠ 0 := fun zero => closed (List.mem_of_getElem? (zero ▸ here))
  simp [endsLine, no_zero, here]

/-- In the store the ends are found of the line that a byte of the text lies in. -/
theorem isLineOf_of_found (starts : store.lineStart address (address + offset) = address + first)
    (ends : store.lineEnd (address + first) = address + past) (inside : offset < text.length)
    (within : text[offset]? ≠ some 0x0a) : IsLineOf text offset first past := by
  obtain ⟨-, most⟩ := store.lineStart_bounds (Nat.le_add_right address offset)
  have before : first ≤ offset := Nat.le_of_add_le_add_left (starts ▸ most)
  have upward : first ≤ past := Nat.le_of_add_le_add_left (ends ▸ store.le_lineEnd (address + first))
  have stops : endsLine (store.byte (address + past)) = true := ends ▸ store.endsLine_lineEnd (address + first)
  have goes {place : Nat} (behind : first ≤ place) (upTo : place < past) :
      endsLine (store.byte (address + place)) = false :=
    endsLine_of_lt_lineEnd (Nat.add_le_add_left behind _) (ends ▸ Nat.add_lt_add_left upTo _)
  have goes_front {place : Nat} (behind : first ≤ place) (upTo : place ≤ offset) : text[place]? ≠ some 0x0a := by
    obtain early | rfl := Nat.lt_or_eq_of_le upTo
    · have no_feed : store.byte (address + place) ≠ 0x0a :=
        byte_ne_feed_of_lineStart_le (starts ▸ Nat.add_le_add_left behind _) (Nat.add_lt_add_left early _)
      rw [getElem?_of_has has (Nat.lt_trans early inside)]
      exact fun feed => no_feed (Option.some_inj.mp feed)
    · exact within
  have around : offset < past := by
    refine Nat.lt_of_not_le fun early => ?_
    have feed := (endsLine_iff_feed has closed (Nat.lt_of_le_of_lt early inside)).mp stops
    exact goes_front upward early feed
  -- The zero behind the text ends its last line.
  have fits : past ≤ text.length := by
    refine Nat.le_of_not_lt fun late => ?_
    have zero := goes (Nat.le_trans before (Nat.le_of_lt inside)) late
    rw [byte_behind_text has] at zero
    cases zero
  refine .of_borders ⟨before, around⟩ ⟨fits, fun place behind upTo feed => ?_⟩ (fun some_front => ?_)
    (fun some_back => ?_)
  · have feed := (endsLine_iff_feed has closed (Nat.lt_of_lt_of_le upTo fits)).mpr feed
    rw [goes behind upTo] at feed
    cases feed
  · have feed := byte_in_front_of_lineStart (starts ▸ Nat.lt_add_of_pos_right some_front)
    rw [starts, Nat.add_sub_assoc some_front] at feed
    rw [getElem?_of_has has (by omega), feed]
  · exact (endsLine_iff_feed has closed some_back).mp stops

end Standing

theorem Has.congr {after : Store} (has : store.Has address text)
    (same : ∀ place < text.length, after.byte (address + place) = store.byte (address + place)) :
    after.Has address text := by
  induction text generalizing address with
  | nil => trivial
  | cons byte rest ih =>
      refine ⟨(same 0 (Nat.zero_lt_succ _)).trans has.1, ih has.2 fun place before => ?_⟩
      have there := same (place + 1) (Nat.succ_lt_succ before)
      rwa [Nat.add_comm place, ← Nat.add_assoc] at there

/-- Once a text was written to a file, the line of the text that a byte lies in is what is shown
    for the address of that byte, whatever the store holds elsewhere. The line is looked for in
    the slot only. -/
theorem sourceLine_is_whole_line (store : Store) {slot : Address} (mem : slot ∈ slots) {text : List UInt8}
    (short : text.length ≤ fileLimit) (closed : 0 ∉ text) :
    ∃ after, Store.writeData slot text store = .ok () after ∧
      ∀ later : Store, (∀ place ≤ text.length,
          later.byte (dataAddress slot + place) = after.byte (dataAddress slot + place)) →
        ∀ offset < text.length, text[offset]? ≠ some 0x0a →
          ∃ first past, IsLineOf text offset first past ∧
            later.lineStart (dataAddress slot) (dataAddress slot + offset) = dataAddress slot + first ∧
            later.lineEnd (dataAddress slot + first) = dataAddress slot + past ∧
            endsLine (later.byte (dataAddress slot + past)) = true ∧ dataAddress slot + past < slot + slotSize ∧
            later.sourceLine (dataAddress slot + offset) = Symbol.decode (text.extract first past) := by
  have written := writeData_eq slot text store
  rw [if_neg (Nat.not_lt_of_le short)] at written
  refine ⟨_, written, fun later same offset inside within => ?_⟩
  have has : later.Has (dataAddress slot) (text ++ [0]) :=
    (rewrites_withData mem short).has.congr fun place before => same place (by simpa [Nat.lt_succ_iff] using before)
  obtain ⟨least, -⟩ := later.lineStart_bounds (Nat.le_add_right (dataAddress slot) offset)
  obtain ⟨first, starts⟩ := Nat.exists_eq_add_of_le least
  have above := Nat.le_trans (Nat.le_add_right _ first) (later.le_lineEnd (dataAddress slot + first))
  obtain ⟨past, ends⟩ := Nat.exists_eq_add_of_le above
  have is_line := isLineOf_of_found has closed starts ends inside within
  have fits : past ≤ text.length := is_line.unbroken.1
  have upward : first ≤ past := Nat.le_of_lt (Nat.lt_of_le_of_lt is_line.around.1 is_line.around.2)
  refine ⟨first, past, is_line, starts, ends, ends ▸ later.endsLine_lineEnd _, ?_, ?_⟩
  · have room : dataOffset + past < slotSize := by
      simp only [dataOffset, slotSize, fileLimit] at short ⊢
      omega
    rw [dataAddress, Nat.add_assoc]
    exact Nat.add_lt_add_left room slot
  · have long : later.lineEnd (dataAddress slot + first) - (dataAddress slot + first) = past - first := by
      rw [ends, Nat.add_sub_add_left]
    have read := read_of_has (has_append.mp has).1 (show first + (past - first) ≤ text.length by omega)
    rw [sourceLine_eq later mem (Nat.le_trans (Nat.le_of_lt inside) short), starts, lineFrom_eq_read, long, read,
      List.extract_eq_take_drop]

/-- The first line of a file in the second slot, with a letter in the byte in front of it. -/
theorem sourceLine_is_whole_line_firstLine :
    let text : List UInt8 := [65, 61, 49, 10, 66, 67]
    1024 ∈ slots ∧ text.length ≤ fileLimit ∧ 0 ∉ text ∧ text[1]? ≠ some 0x0a ∧
      ∃ after, Store.writeData 1024 text erased = .ok () after ∧
        (∀ place ≤ text.length,
          (after.write 1042 [90]).byte (dataAddress 1024 + place) = after.byte (dataAddress 1024 + place)) ∧
        (after.write 1042 [90]).sourceLine (dataAddress 1024 + 1) = "A=1" := by
  intro text
  have mem : 1024 ∈ slots := mem_slots.mpr ⟨1, by decide⟩
  have short : text.length ≤ fileLimit := by decide
  have closed : 0 ∉ text := by decide
  have within : text[1]? ≠ some 0x0a := by decide
  obtain ⟨after, written, lines⟩ := sourceLine_is_whole_line erased mem short closed
  have same : ∀ place ≤ text.length,
      (after.write 1042 [90]).byte (dataAddress 1024 + place) = after.byte (dataAddress 1024 + place) :=
    fun place _ => byte_write_of_outside (.inr (Nat.le_add_right _ place))
  obtain ⟨first, past, is_line, -, -, -, -, shown⟩ := lines _ same 1 (by decide) within
  refine ⟨mem, short, closed, within, after, written, same, ?_⟩
  have unbroken : Unbroken text 0 3 := ⟨by decide, fun place _ before => by
    obtain rfl | rfl | rfl : place = 0 ∨ place = 1 ∨ place = 2 := by omega
    all_goals decide⟩
  obtain ⟨least, late⟩ := is_line.longest 0 3 unbroken (by decide) (by decide)
  obtain rfl : first = 0 := Nat.le_zero.mp least
  have front : ¬ 3 < past := fun beyond => is_line.unbroken.2 3 (by decide) beyond rfl
  obtain rfl : past = 3 := by omega
  rw [shown]
  decide

end PocketScript.Store
