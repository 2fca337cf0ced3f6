import PocketScript.Display
import PocketScript.Proofs.Display.Wrapping

/-! # Scrolling through a text

A text that is longer than the display is scrolled by its lines until the user goes on or stops.
Where it is scrolled to is followed key by key: it moves by one line at most, so no line is passed
over, and it stays where both rows are filled if there are lines for both.
-/

namespace PocketScript

/-- Whether a key ends the showing of a text. -/
def Key.endsText : Key → Bool
  | .enter | .escape => true
  | _ => false

/-- The keys in front of the first that ends the showing of a text. -/
def Key.scrolling (keys : List Key) : List Key :=
  keys.takeWhile fun key => !key.endsText

theorem Key.scrolling_append {front : List Key} (going : ∀ key ∈ front, key.endsText = false) (back : List Key) :
    Key.scrolling (front ++ back) = front ++ Key.scrolling back :=
  List.takeWhile_append_of_pos fun key mem => by rw [going key mem]; rfl

namespace Scroll

variable {last top target count : Nat} {key : Key} {keys front back : List Key} {lines : List String}

/-- The upper line after a key, if the text cannot be scrolled beyond its line `last`. -/
def moved (last top : Nat) : Key → Nat
  | .up => top - 1
  | .down => min (top + 1) last
  | _ => top

/-- The upper line at first and after each key. -/
def tops (last top : Nat) (keys : List Key) : List Nat :=
  keys.scanl (moved last) top

theorem moved_le (within : top ≤ last) (key : Key) : moved last top key ≤ last := by
  cases key with
  | up => exact Nat.le_trans (Nat.sub_le top 1) within
  | down => exact Nat.min_le_right _ _
  | _ => exact within

theorem moved_le_succ (last top : Nat) (key : Key) : moved last top key ≤ top + 1 := by
  cases key with
  | up => exact Nat.le_succ_of_le (Nat.sub_le top 1)
  | down => exact Nat.min_le_left _ _
  | _ => exact Nat.le_succ top

theorem foldl_moved_le (within : top ≤ last) (keys : List Key) : keys.foldl (moved last) top ≤ last := by
  induction keys generalizing top with
  | nil => exact within
  | cons key keys ih => exact ih (moved_le within key)

theorem le_of_mem_tops (within : top ≤ last) (mem : target ∈ tops last top keys) : target ≤ last := by
  rw [tops] at mem
  obtain ⟨moment, before, rfl⟩ := List.getElem_of_mem mem
  rw [List.getElem_scanl]
  exact foldl_moved_le within (keys.take moment)

/-- No line between the first upper line and the last one is passed over. -/
theorem mem_tops (above : top ≤ target) (below : target ≤ keys.foldl (moved last) top) :
    target ∈ tops last top keys := by
  induction keys generalizing top with
  | nil => exact List.mem_singleton.mpr (Nat.le_antisymm below above)
  | cons key keys ih =>
      rw [tops, List.scanl_cons, List.mem_cons]
      obtain rfl | further := Nat.eq_or_lt_of_le above
      · exact .inl rfl
      -- A key moves by one line at most, so it does not lead beyond a line further down.
      · exact .inr (ih (Nat.le_trans (moved_le_succ last top key) further) below)

theorem mem_tops_append (mem : target ∈ tops last top front) (back : List Key) :
    target ∈ tops last top (front ++ back) := by
  rw [tops, List.scanl_append]
  exact List.mem_append_left _ mem

theorem foldl_moved_down (count : Nat) (within : top ≤ last) :
    (List.replicate count Key.down).foldl (moved last) top = min (top + count) last := by
  induction count generalizing top with
  | zero => exact (Nat.min_eq_left within).symm
  | succ count ih =>
      rw [List.replicate_succ, List.foldl_cons, ih (moved_le within .down), moved]
      omega

/-- Enough keys downwards lead past every line, whatever other keys there are in front of them
    and behind them. -/
theorem mem_tops_of_downs {downs : Nat} (enough : last ≤ downs) (below : target ≤ last) (front back : List Key) :
    target ∈ tops last 0 (front ++ List.replicate downs .down ++ back) := by
  refine mem_tops_append (mem_tops (Nat.zero_le target) ?_) back
  rw [List.foldl_append, foldl_moved_down downs (foldl_moved_le (Nat.zero_le last) front)]
  omega

theorem scrolling_downs (going : ∀ key ∈ front, key.endsText = false) (downs : Nat) (back : List Key) :
    Key.scrolling (front ++ List.replicate downs .down ++ back) =
      front ++ List.replicate downs .down ++ Key.scrolling back := by
  refine Key.scrolling_append (fun key mem => ?_) back
  obtain mem | mem := List.mem_append.mp mem
  · exact going key mem
  · exact List.eq_of_mem_replicate mem ▸ rfl

/-- A line that is not in the upper row is in the lower one when the text is scrolled to its end. -/
theorem row_of_line {index : Nat} (inside : index < count) :
    ∃ top ≤ count - Frame.rowCount, index = top ∨ index = top + 1 := by
  have rows : Frame.rowCount = 2 := rfl
  by_cases upper : index ≤ count - Frame.rowCount
  · exact ⟨index, upper, .inl rfl⟩
  · exact ⟨count - Frame.rowCount, Nat.le_refl _, .inr (by omega)⟩

/-- The frame that shows two lines of a text, or one and a blank row. -/
def shown (lines : List String) (top : Nat) : Frame :=
  ⟨.message, "Output", lines[top]?.getD "", lines[top + 1]?.getD ""⟩

theorem view_eq_shown (fits : ∀ line ∈ lines, line.toList.length ≤ Frame.rowLength) (top : Nat) :
    view lines top = shown lines top := by
  have whole (row : Nat) : Frame.cut (lines[row]?.getD "") = lines[row]?.getD "" := by
    rw [Frame.cut]
    cases found : lines[row]? with
    | none => rfl
    | some line =>
        rw [Option.getD_some, List.take_of_length_le (fits line (List.mem_of_getElem? found)), String.ofList_toList]
  rw [view, Frame.ofRows, whole, whole, shown]

theorem press_eq_moved (within : top ≤ count - Frame.rowCount) (going : key.endsText = false) :
    press count top key = .shows (moved (count - Frame.rowCount) top key) := by
  cases key with
  | enter | escape => cases going
  | down =>
      refine congrArg Turn.shows ?_
      rw [moved]
      by_cases more : top + Frame.rowCount < count
      · rw [if_pos more, Nat.min_eq_left (by omega)]
      · rw [if_neg more, Nat.min_eq_right (by omega)]
        omega
  | _ => rfl

theorem press_of_endsText (ends : key.endsText = true) (top : Nat) :
    press count top key = .ends (key == .enter) := by
  cases key with
  | enter | escape => rfl
  | _ => cases ends

/-- A text is shown line by line as its keys say, up to the first key that ends it. -/
structure Shows (lines : List String) (top : Nat) (keys : List Key) (attended : Attended Bool) : Prop where
  frames : attended.frames = (tops (lines.length - Frame.rowCount) top (Key.scrolling keys)).map (view lines)
  answer : attended.answer = true ↔ keys.find? Key.endsText = some .enter
  keys : attended.keys = (keys.dropWhile fun key => !key.endsText).tail

theorem shows_attend (lines : List String) (within : top ≤ lines.length - Frame.rowCount) (keys : List Key) :
    Shows lines top keys (PocketScript.attend (view lines) (press lines.length) false top keys) := by
  induction keys generalizing top with
  | nil => exact ⟨rfl, by simp [PocketScript.attend], rfl⟩
  | cons key keys ih =>
      rw [PocketScript.attend]
      cases ends : key.endsText with
      | true =>
          rw [press_of_endsText ends]
          exact ⟨by simp [Key.scrolling, tops, ends], by simp [ends], by simp [ends]⟩
      | false =>
          obtain ⟨frames, answer, rest⟩ := ih (moved_le within key)
          rw [press_eq_moved within ends]
          refine ⟨?_, ?_, ?_⟩
          · simp [Key.scrolling, tops, ends, frames]
          · simp [ends, answer]
          · simp [ends, rest]

end Scroll

namespace Display

theorem frames_foldl_draw (display : Display) (frames : List Frame) :
    (frames.foldl draw display).drawings.map (·.frame) = frames.reverse ++ display.drawings.map (·.frame) := by
  induction frames generalizing display with
  | nil => rfl
  | cons frame frames ih =>
      rw [List.foldl_cons, ih, List.reverse_cons, List.append_assoc]
      rfl

theorem keys_foldl_draw (display : Display) (frames : List Frame) :
    (frames.foldl draw display).keys = display.keys := by
  induction frames generalizing display with
  | nil => rfl
  | cons frame frames ih => exact ih (display.draw frame)

/-- A text is broken into lines without losing anything. While it is shown, its two rows are two
    lines of the text that follow each other, or its last line and a blank row. Every line is
    shown if the keys downwards suffice, and the first key that ends it decides the answer. -/
theorem print_loses_nothing (display : Display) (text : String) :
    let lines := Text.wrap Frame.rowLength text
    let last := lines.length - Frame.rowCount
    let tops := Scroll.tops last 0 (Key.scrolling display.keys)
    let (answer, after) := Console.print display text
    Text.IsWrapped Frame.rowLength text.toList (lines.map String.toList) ∧
    after.drawings.map (·.frame) = (tops.map (Scroll.shown lines)).reverse ++ display.drawings.map (·.frame) ∧
    (∀ top ∈ tops, top ≤ last) ∧
    (∀ (front back : List Key) (downs : Nat), display.keys = front ++ List.replicate downs .down ++ back →
      (∀ key ∈ front, key.endsText = false) → last ≤ downs →
      ∀ index < lines.length, ∃ top ∈ tops, index = top ∨ index = top + 1) ∧
    (answer = true ↔ display.keys.find? Key.endsText = some .enter) ∧
    after.keys = (display.keys.dropWhile fun key => !key.endsText).tail := by
  intro lines last tops
  have wrapped : Text.IsWrapped Frame.rowLength text.toList (lines.map String.toList) :=
    Text.isWrapped_wrap (by decide) text
  have shows : Scroll.Shows lines 0 display.keys (Scroll.attend text display.keys) :=
    Scroll.shows_attend lines (Nat.zero_le last) display.keys
  refine ⟨wrapped, ?_, ?_, ?_, shows.answer, ?_⟩
  · have fits : ∀ line ∈ lines, line.toList.length ≤ Frame.rowLength :=
      fun line mem => wrapped.length_le (List.mem_map_of_mem mem)
    have same : Scroll.view lines = Scroll.shown lines := funext (Scroll.view_eq_shown fits)
    exact (frames_foldl_draw _ _).trans (by rw [shows.frames, same])
  · exact fun top mem => Scroll.le_of_mem_tops (Nat.zero_le last) mem
  · intro front back downs pressed going enough index inside
    obtain ⟨top, below, row⟩ := Scroll.row_of_line inside
    refine ⟨top, ?_, row⟩
    change top ∈ Scroll.tops last 0 (Key.scrolling display.keys)
    rw [pressed, Scroll.scrolling_downs going]
    exact Scroll.mem_tops_of_downs enough below front _
  · exact (keys_foldl_draw _ _).trans shows.keys

/-- Three lines, of which the last is shown after a key downwards. -/
theorem print_loses_nothing_threeLines :
    let display := Display.ofKeys 40 8 [.up, .down, .down, .enter, .down]
    let text := "one\ntwo\nthree"
    let lines := Text.wrap Frame.rowLength text
    let tops := Scroll.tops (lines.length - Frame.rowCount) 0 (Key.scrolling display.keys)
    let (answer, after) := Console.print display text
    display.keys = [.up] ++ List.replicate 2 .down ++ [.enter, .down] ∧ (∀ key ∈ [Key.up], key.endsText = false) ∧
      lines.length - Frame.rowCount ≤ 2 ∧ 2 < lines.length ∧ (∃ top ∈ tops, 2 = top ∨ 2 = top + 1) ∧
      after.drawings.map (·.frame.lower) = ["three", "three", "two", "two"] ∧
      answer = true ∧ after.keys = [.down] := by
  intro display text lines tops
  have cut : lines = ["one", "two", "three"] := by decide
  have count : lines.length = 3 := by rw [cut]; rfl
  obtain ⟨-, drawn, -, every, ends, left⟩ := print_loses_nothing display text
  have enough : lines.length - Frame.rowCount ≤ 2 := by rw [count]; decide
  have inside : 2 < lines.length := by rw [count]; decide
  have going : ∀ key ∈ [Key.up], key.endsText = false := by decide
  refine ⟨rfl, going, enough, inside, every [.up] [.enter, .down] 2 rfl going enough 2 inside, ?_, ends.mpr rfl, left⟩
  have lower := congrArg (List.map (·.lower)) drawn
  rw [List.map_map] at lower
  refine lower.trans ?_
  change List.map _ ((List.map (Scroll.shown lines) tops).reverse ++ []) = _
  have scrolled : tops = [0, 0, 1, 1] := by decide
  rw [scrolled, cut]
  rfl

end Display

end PocketScript
