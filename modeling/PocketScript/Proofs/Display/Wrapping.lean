import Mathlib.Data.List.Forall2
import PocketScript.Text.Wrap

/-! # Wrapped lines

A text is cut at its line breaks, and each part is cut into lines that are full but for the last.
No character is lost and none is added: the lines of a part, one after the other, are the part.
-/

namespace PocketScript.Text

variable {width : Nat} {front part line rest : List Char} {lines : List (List Char)} {character : Char}

/-- A part of a text without line breaks, cut into lines. -/
structure CutsInto (width : Nat) (part : List Char) (lines : List (List Char)) : Prop where
  joined : lines.flatten = part
  fits : ∀ line ∈ lines, line.length ≤ width
  full : ∀ line ∈ lines.dropLast, line.length = width
  /-- A part without characters takes one line all the same. -/
  empty : part = [] → lines = [[]]
  /-- No other part has an empty line. -/
  filled : part ≠ [] → [] ∉ lines

namespace CutsInto

theorem single (fits : part.length ≤ width) : CutsInto width part [part] where
  joined := List.flatten_singleton
  fits := List.forall_mem_singleton.mpr fits
  full := List.forall_mem_nil _
  empty := fun empty => congrArg ([·]) empty
  filled := fun filled mem => filled (List.mem_singleton.mp mem).symm

/-- A full line in front of a part that is cut. -/
theorem cons (full : line.length = width) (started : line ≠ []) (more : part ≠ [])
    (cuts : CutsInto width part lines) : CutsInto width (line ++ part) (line :: lines) where
  joined := by rw [List.flatten_cons, cuts.joined]
  fits := List.forall_mem_cons.mpr ⟨Nat.le_of_eq full, cuts.fits⟩
  full := by
    have some_line : lines ≠ [] := fun none => more (by rw [← cuts.joined, none, List.flatten_nil])
    rw [List.dropLast_cons_of_ne_nil some_line]
    exact List.forall_mem_cons.mpr ⟨full, cuts.full⟩
  empty := fun empty => absurd (List.append_eq_nil_iff.mp empty).1 started
  filled := fun _ mem => (List.mem_cons.mp mem).elim (fun same => started same.symm) (cuts.filled more)

end CutsInto

/-- The lines of a text: those of the first part between line breaks, then those of the second,
    and so on. -/
def IsWrapped (width : Nat) (text : List Char) (lines : List (List Char)) : Prop :=
  ∃ groups, lines = groups.flatten ∧ List.Forall₂ (CutsInto width) (text.splitOn '\n') groups

/-- Characters other than line breaks belong to the first part. -/
theorem splitOn_append (plain : '\n' ∉ front) (rest : List Char) :
    (front ++ rest).splitOn '\n' = (rest.splitOn '\n').modifyHead (front ++ ·) := by
  induction front with
  | nil => exact (congrFun List.modifyHead_id _).symm
  | cons character front ih =>
      rw [List.mem_cons, not_or] at plain
      have other : ¬ (character == '\n') = true := fun same => plain.1 (beq_iff_eq.mp same).symm
      rw [List.cons_append, List.splitOn_cons_eq_if_modifyHead, if_neg other, ih plain.2, List.modifyHead_modifyHead]
      rfl

namespace IsWrapped

theorem single (plain : '\n' ∉ part) (fits : part.length ≤ width) : IsWrapped width part [part] :=
  ⟨[[part]], rfl, by rw [List.splitOn_eq_singleton plain]; exact .cons (.single fits) .nil⟩

/-- A line break behind a line. -/
theorem feed (plain : '\n' ∉ line) (fits : line.length ≤ width) (wrapped : IsWrapped width rest lines) :
    IsWrapped width (line ++ '\n' :: rest) (line :: lines) := by
  obtain ⟨groups, rfl, cuts⟩ := wrapped
  refine ⟨[line] :: groups, rfl, ?_⟩
  rw [List.splitOn_append_cons_self_of_not_mem plain]
  exact .cons (.single fits) cuts

/-- No room for a character behind a line. -/
theorem full (plain : '\n' ∉ line) (full : line.length = width) (started : line ≠ []) (other : character ≠ '\n')
    (wrapped : IsWrapped width (character :: rest) lines) :
    IsWrapped width (line ++ character :: rest) (line :: lines) := by
  obtain ⟨groups, rfl, cuts⟩ := wrapped
  obtain ⟨part, parts, split⟩ := List.exists_cons_of_ne_nil (List.splitOn_ne_nil '\n' rest)
  have alone : '\n' ∉ [character] := fun mem => other (List.mem_singleton.mp mem).symm
  have split' : (character :: rest).splitOn '\n' = (character :: part) :: parts := by
    rw [← List.singleton_append, splitOn_append alone, split]
    rfl
  rw [split'] at cuts
  obtain ⟨group, others, first, behind, rfl⟩ := List.forall₂_cons_left_iff.mp cuts
  refine ⟨(line :: group) :: others, rfl, ?_⟩
  rw [splitOn_append plain, split']
  exact .cons (first.cons full started (List.cons_ne_nil _ _)) behind

/-- No line is longer than there is room for. -/
theorem length_le (wrapped : IsWrapped width rest lines) (mem : line ∈ lines) : line.length ≤ width := by
  obtain ⟨groups, rfl, cuts⟩ := wrapped
  obtain ⟨group, mem_groups, mem_group⟩ := List.mem_flatten.mp mem
  obtain ⟨index, within, rfl⟩ := List.getElem_of_mem mem_groups
  have within' : index < (rest.splitOn '\n').length := by rwa [cuts.length_eq]
  exact (cuts.get within' within).fits line mem_group

end IsWrapped

/-- Wrapping goes on behind `front`, which is the line under way: it is filled up, and the lines
    behind it are those of what is left. -/
theorem isWrapped_wrapFrom (positive : 0 < width) (rest : List Char) (plain : '\n' ∉ front)
    (room : front.length ≤ width) : IsWrapped width (front ++ rest)
      ((front ++ (wrapFrom width front.length rest).1) :: (wrapFrom width front.length rest).2) := by
  induction rest generalizing front with
  | nil => simpa [wrapFrom] using IsWrapped.single plain room
  | cons character rest ih =>
      rw [wrapFrom]
      by_cases feed : character = '\n'
      · subst feed
        have wrapped := ih (List.not_mem_nil : '\n' ∉ []) (Nat.zero_le width)
        simpa using IsWrapped.feed plain room wrapped
      rw [if_neg feed]
      have alone : '\n' ∉ [character] := fun mem => feed (List.mem_singleton.mp mem).symm
      split
      next more =>
        have longer : (front ++ [character]).length = front.length + 1 := List.length_append
        have plain' : '\n' ∉ front ++ [character] := by simp [plain, alone]
        have wrapped := ih plain' (longer ▸ more)
        rw [longer] at wrapped
        simpa using wrapped
      next none =>
        have full : front.length = width := Nat.le_antisymm room (Nat.le_of_not_lt none)
        have started : front ≠ [] := List.ne_nil_of_length_pos (full ▸ positive)
        simpa using IsWrapped.full plain full started feed (ih alone positive)

theorem isWrapped_wrap (positive : 0 < width) (text : String) :
    IsWrapped width text.toList ((wrap width text).map String.toList) := by
  have wrapped := isWrapped_wrapFrom positive text.toList (List.not_mem_nil : '\n' ∉ []) (Nat.zero_le width)
  simpa [wrap, Function.comp_def] using wrapped

end PocketScript.Text
