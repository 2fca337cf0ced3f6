import Mathlib.Data.List.Induction
import PocketScript.Symbol.Encoding

/-! # From text to bytes and back

Encoding fails exactly on the texts with a character that is not ASCII, and names
the first of them with its place. What is encoded is decoded to the text again,
without its carriage returns.
-/

namespace PocketScript

variable {text : List Char} {byte : UInt8} {length : Nat}

namespace Symbol

theorem spelledBytes_spec : ∀ spelled ∈ spelledBytes, decodeByte spelled.2 = spelled.1 ∧ spelled.1 ≠ [] ∧
    '\r' ∉ spelled.1 ∧ '\n' ∉ spelled.1 := by
  decide +kernel

/-- The longest spelling is one of them, and the text starts with it. -/
theorem longestSpelling?_spec (found : longestSpelling? text = some (byte, length)) :
    ∃ letters, (letters, byte) ∈ spelledBytes ∧ letters <+: text ∧ letters.length = length := by
  refine List.foldlRecOn spelledBytes _ (motive := fun best => best = some (byte, length) → _) ?_ ?_ found
  · intro none
    cases none
  · rintro best before ⟨letters, spelled⟩ mem chosen
    dsimp only at chosen
    split at chosen
    · next starts =>
      obtain ⟨rfl, rfl⟩ := Prod.mk.inj (Option.some.inj chosen)
      rw [Bool.and_eq_true, List.isPrefixOf_iff_prefix] at starts
      exact ⟨letters, mem, starts.1, rfl⟩
    · exact before chosen

/-- A text as it comes back. -/
def withoutReturns (text : List Char) : List Char :=
  text.filter (· ≠ '\r')

theorem decodeByte_plain : ∀ number : Fin 128, decodeByte (UInt8.ofNat number) = [Char.ofNat number] := by
  decide +kernel

theorem decode_plainByte {character : Char} (ascii : character.toNat < 128) :
    (plainByte character).flatMap decodeByte = withoutReturns [character] := by
  by_cases return_ : character = '\r'
  · simp [plainByte, withoutReturns, return_]
  · have single : decodeByte (UInt8.ofNat character.toNat) = [Char.ofNat character.toNat] :=
      decodeByte_plain ⟨character.toNat, ascii⟩
    simp [plainByte, withoutReturns, return_, single]

/-- What the encoder still has to write for. -/
def EncodingState.pending : EncodingState → List Char → List Char
  | .code passed, text => text.drop passed
  | .literal _, text | .escape _, text => text

/-- What a step writes stands for what it takes off. -/
theorem decode_encodeStep (state : EncodingState) {character : Char} (ascii : character.toNat < 128)
    (rest : List Char) :
    (encodeStep state character rest).1.flatMap decodeByte ++
        withoutReturns ((encodeStep state character rest).2.pending rest) =
      withoutReturns (state.pending (character :: rest)) := by
  have plain : (plainByte character).flatMap decodeByte ++ withoutReturns rest =
      withoutReturns (character :: rest) := by
    rw [decode_plainByte ascii]
    exact (List.filter_append ..).symm
  unfold encodeStep
  split
  · rfl
  · split
    · exact plain
    · split
      · next spelled length found =>
        obtain ⟨letters, mem, ⟨behind, starts⟩, rfl⟩ := longestSpelling?_spec found
        obtain ⟨decoded, nonempty, noReturn, -⟩ := spelledBytes_spec _ mem
        have kept : withoutReturns letters = letters :=
          List.filter_eq_self.mpr fun letter mem => decide_eq_true (ne_of_mem_of_not_mem mem noReturn)
        have left : rest.drop (letters.length - 1) = behind := by
          rw [← @List.tail_cons _ character rest, ← starts]
          simp [← List.drop_one, Nat.add_sub_cancel' (List.length_pos_iff.mpr nonempty)]
        have whole : withoutReturns (letters ++ behind) = letters ++ withoutReturns behind := by
          rw [withoutReturns, List.filter_append]
          exact congrArg (· ++ _) kept
        simp only [EncodingState.pending, left, ← starts, whole, List.flatMap_cons, List.flatMap_nil,
          List.append_nil, decoded, List.drop_zero]
      · exact plain
  · split
    · exact plain
    split
    · exact plain
    split
    · exact plain
    · exact plain
  · exact plain

section Texts

variable {state : EncodingState} {position : TextPosition} {character : Char} {rest : List Char}

theorem encodeFrom_cons_ascii (ascii : character.toNat < 128) :
    encodeFrom state position (character :: rest) =
      (encodeFrom (encodeStep state character rest).2 (position.after character) rest).map
        ((encodeStep state character rest).1 ++ ·) := by
  rw [encodeFrom, if_pos ascii]

theorem encodeFrom_cons_other (other : ¬ character.toNat < 128) :
    encodeFrom state position (character :: rest) = .error ⟨character, position.line, position.column⟩ := by
  rw [encodeFrom, if_neg other]

/-- All that is written stands for what there is to write for. -/
theorem decode_of_encodeFrom {bytes : List UInt8} (encoded : encodeFrom state position text = .ok bytes) :
    bytes.flatMap decodeByte = withoutReturns (state.pending text) := by
  induction text generalizing state position bytes with
  | nil =>
      obtain rfl := Except.ok.inj encoded
      cases state <;> simp [EncodingState.pending, withoutReturns]
  | cons character rest ih =>
      by_cases ascii : character.toNat < 128
      · rw [encodeFrom_cons_ascii ascii] at encoded
        cases behind : encodeFrom (encodeStep state character rest).2 (position.after character) rest with
        | error error =>
            rw [behind] at encoded
            cases encoded
        | ok more =>
            rw [behind] at encoded
            obtain rfl := Except.ok.inj encoded
            rw [List.flatMap_append, ih behind, decode_encodeStep state ascii]
      · rw [encodeFrom_cons_other ascii] at encoded
        cases encoded

end Texts

end Symbol

namespace TextPosition

/-- The place after some one-byte characters. -/
def afterAll (position : TextPosition) (text : List Char) : TextPosition :=
  text.foldl after position

/-- The characters of the line that a text ends in. -/
def lastLine (text : List Char) : List Char :=
  (text.reverse.takeWhile (· ≠ '\n')).reverse

theorem afterAll_start (text : List Char) :
    start.afterAll text = ⟨1 + text.count '\n', 1 + (lastLine text).length⟩ := by
  induction text using List.reverseRecOn with
  | nil => rfl
  | append_singleton front character ih =>
      rw [afterAll] at ih ⊢
      rw [List.foldl_append, ih, List.foldl_cons, List.foldl_nil, after]
      by_cases feed : character = '\n'
      · simp [feed, lastLine, Nat.add_assoc]
      · simp [feed, lastLine, Nat.add_comm]

/-- An ASCII character takes one byte. -/
theorem utf8ByteSize_of_ascii (ascii : ∀ character ∈ text, character.toNat < 128) :
    (String.ofList text).utf8ByteSize = text.length := by
  induction text with
  | nil => rfl
  | cons character rest ih =>
      obtain ⟨small, ascii⟩ := List.forall_mem_cons.mp ascii
      have one : character.utf8Size = 1 :=
        Char.utf8Size_eq_one_iff.mpr (UInt32.le_iff_toNat_le.mpr (Nat.le_of_lt_succ small))
      rw [← List.singleton_append, String.ofList_append, String.utf8ByteSize_append, ih ascii,
        ← String.singleton_eq_ofList, String.utf8ByteSize_singleton, one, List.length_append, List.length_singleton]

end TextPosition

/-- An error is about the first character of a text that is not ASCII. Its line
    is counted by the line feeds before it, its column by the bytes since the
    last of them. -/
def EncodeError.IsAbout (error : EncodeError) (text : List Char) : Prop :=
  ∃ front back, text = front ++ error.character :: back ∧ (∀ character ∈ front, character.toNat < 128) ∧
    128 ≤ error.character.toNat ∧ error.line = 1 + front.count '\n' ∧
    error.column = 1 + (String.ofList (TextPosition.lastLine front)).utf8ByteSize

namespace Symbol

/-- Whatever the state, only the characters decide whether a text is encoded. -/
theorem encodeFrom_spec (state : EncodingState) (position : TextPosition) (text : List Char) :
    match encodeFrom state position text with
    | .ok _ => ∀ character ∈ text, character.toNat < 128
    | .error error => ∃ front back, text = front ++ error.character :: back ∧
        (∀ character ∈ front, character.toNat < 128) ∧ 128 ≤ error.character.toNat ∧
        position.afterAll front = ⟨error.line, error.column⟩ := by
  induction text generalizing state position with
  | nil => simp [encodeFrom]
  | cons character rest ih =>
      by_cases ascii : character.toNat < 128
      · have behind := ih (encodeStep state character rest).2 (position.after character)
        rw [encodeFrom_cons_ascii ascii]
        cases ran : encodeFrom (encodeStep state character rest).2 (position.after character) rest with
        | ok more =>
            rw [ran] at behind
            have plain : ∀ other ∈ rest, other.toNat < 128 := behind
            exact List.forall_mem_cons.mpr ⟨ascii, plain⟩
        | error error =>
            rw [ran] at behind
            obtain ⟨front, back, rfl, plain, other, place⟩ := behind
            exact ⟨character :: front, back, rfl, List.forall_mem_cons.mpr ⟨ascii, plain⟩, other, place⟩
      · rw [encodeFrom_cons_other ascii]
        exact ⟨[], rest, rfl, by simp, Nat.le_of_not_lt ascii, rfl⟩

/-- A text is encoded exactly if it is ASCII, and the bytes are decoded to the text
    without its carriage returns. Otherwise the error is about the first character
    that is not ASCII. -/
theorem encode_faithful (text : String) :
    ((encode text).isOk = true ↔ ∀ character ∈ text.toList, character.toNat < 128) ∧
      match encode text with
      | .ok bytes => decode bytes = String.ofList (withoutReturns text.toList)
      | .error error => error.IsAbout text.toList := by
  have spec := encodeFrom_spec (.code 0) .start text.toList
  cases ran : encode text with
  | ok bytes =>
      have ran : encodeFrom (.code 0) .start text.toList = .ok bytes := ran
      rw [ran] at spec
      exact ⟨⟨fun _ => spec, fun _ => rfl⟩, congrArg String.ofList (decode_of_encodeFrom ran)⟩
  | error error =>
      have ran : encodeFrom (.code 0) .start text.toList = .error error := ran
      rw [ran] at spec
      obtain ⟨front, back, split, plain, other, place⟩ := spec
      refine ⟨⟨nofun, fun all => ?_⟩, front, back, split, plain, other, ?_⟩
      · have here := all error.character (by simp [split])
        omega
      · rw [TextPosition.afterAll_start, TextPosition.mk.injEq] at place
        have short : ∀ character ∈ TextPosition.lastLine front, character.toNat < 128 := by
          intro character mem
          rw [TextPosition.lastLine, List.mem_reverse] at mem
          exact plain character (List.mem_reverse.mp (List.takeWhile_subset _ mem))
        rw [TextPosition.utf8ByteSize_of_ascii short]
        exact ⟨place.1.symm, place.2.symm⟩

end Symbol

end PocketScript
