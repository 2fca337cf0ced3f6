import Mathlib.Data.List.Basic
import PocketScript.Proofs.Symbol.RoundTrip

/-! # Line ends

Lines may end in a line feed alone or in a carriage return and a line feed. Both
are encoded to the same bytes, as long as no literal has a backslash at the end of
a line: there the backslash escapes the carriage return, which is not written, and
the line feed closes the literal that it would go on with.
-/

namespace PocketScript.Symbol

variable {text letters rest : List Char} {state : EncodingState} {character : Char}

/-- A text with a carriage return in front of every line feed. -/
def withReturns : List Char → List Char
  | [] => []
  | character :: rest =>
    if character = '\n' then '\r' :: '\n' :: withReturns rest else character :: withReturns rest

/-- Right after a backslash in a literal. -/
def EncodingState.isEscape : EncodingState → Bool
  | .escape _ => true
  | .code _ | .literal _ => false

/-- A backslash in a literal stands in front of a line feed. -/
def escapesFeed (state : EncodingState) : List Char → Bool
  | [] => false
  | character :: rest =>
    (character == '\n' && state.isEscape) || escapesFeed (encodeStep state character rest).2 rest

/-- No spelling reaches over the end of a line. -/
theorem isPrefixOf_withReturns (noReturn : '\r' ∉ letters) (noFeed : '\n' ∉ letters) (text : List Char) :
    letters.isPrefixOf (withReturns text) = letters.isPrefixOf text := by
  induction letters generalizing text with
  | nil => rfl
  | cons letter letters ih =>
      rw [List.mem_cons, not_or] at noReturn noFeed
      cases text with
      | nil => rfl
      | cons character rest =>
          rw [withReturns]
          split
          · next feed =>
            have other : (letter == '\r') = false := beq_false_of_ne (Ne.symm noReturn.1)
            have other' : (letter == character) = false := by
              rw [feed]
              exact beq_false_of_ne (Ne.symm noFeed.1)
            simp only [List.isPrefixOf, other, other', Bool.false_and]
          · simp only [List.isPrefixOf, ih noReturn.2 noFeed.2]

theorem longestSpelling?_withReturns (character : Char) (rest : List Char) :
    longestSpelling? (character :: withReturns rest) = longestSpelling? (character :: rest) := by
  refine List.foldl_ext _ _ _ fun best spelled mem => ?_
  obtain ⟨-, -, noReturn, noFeed⟩ := spelledBytes_spec spelled mem
  obtain ⟨letters, byte⟩ := spelled
  have same : letters.isPrefixOf (character :: withReturns rest) = letters.isPrefixOf (character :: rest) := by
    cases letters with
    | nil => rfl
    | cons letter letters =>
        have noReturn : '\r' ∉ letters := fun mem => noReturn (List.mem_cons_of_mem _ mem)
        have noFeed : '\n' ∉ letters := fun mem => noFeed (List.mem_cons_of_mem _ mem)
        simp only [List.isPrefixOf, isPrefixOf_withReturns noReturn noFeed]
  simp only [same]

/-- What an encoder that started in plain code keeps: a spelling that is passed
    over has no line feed in it, and no carriage return closes a literal. -/
def EncodingState.Usual : EncodingState → List Char → Prop
  | .code passed, text => '\n' ∉ text.take passed
  | .literal quote, _ | .escape quote, _ => quote ≠ '\r'

theorem encodeStep_withReturns (state : EncodingState) (character : Char) (rest : List Char) :
    encodeStep state character (withReturns rest) = encodeStep state character rest := by
  unfold encodeStep
  rw [longestSpelling?_withReturns]

theorem EncodingState.Usual.step (usual : state.Usual (character :: rest)) :
    (encodeStep state character rest).2.Usual rest := by
  have fresh : (EncodingState.code 0).Usual rest := by simp [Usual]
  cases state with
  | code passed =>
      cases passed with
      | succ passed => exact fun mem => usual (List.mem_cons_of_mem _ mem)
      | zero =>
          rw [encodeStep]
          split
          · next quoted => rcases quoted with rfl | rfl <;> simp [Usual]
          split
          · next byte length found =>
            obtain ⟨letters, mem, starts, rfl⟩ := longestSpelling?_spec found
            obtain ⟨-, nonempty, -, noFeed⟩ := spelledBytes_spec _ mem
            obtain ⟨letter, letters, rfl⟩ := List.exists_cons_of_ne_nil nonempty
            obtain ⟨-, starts⟩ := List.cons_prefix_cons.mp starts
            have passed : rest.take letters.length = letters := (List.prefix_iff_eq_take.mp starts).symm
            intro feed
            rw [List.length_cons, Nat.add_sub_cancel, passed] at feed
            exact noFeed (List.mem_cons_of_mem _ feed)
          · exact fresh
  | literal quote =>
      rw [encodeStep]
      split
      · exact fresh
      split
      · exact usual
      split
      · exact fresh
      · exact usual
  | escape quote => exact usual

theorem longestSpelling?_return (text : List Char) : longestSpelling? ('\r' :: text) = none := by
  cases found : longestSpelling? ('\r' :: text) with
  | none => rfl
  | some spelled =>
      obtain ⟨letters, mem, starts, -⟩ := longestSpelling?_spec found
      obtain ⟨-, nonempty, noReturn, -⟩ := spelledBytes_spec _ mem
      cases letters with
      | nil => exact absurd rfl nonempty
      | cons letter letters =>
          obtain ⟨rfl, -⟩ := List.cons_prefix_cons.mp starts
          exact absurd (List.mem_cons_self ..) noReturn

/-- A carriage return in front of a line feed writes nothing and changes nothing. -/
theorem encodeStep_return (usual : state.Usual ('\n' :: rest)) (plain : state.isEscape = false) (text : List Char) :
    encodeStep state '\r' text = ([], state) := by
  cases state with
  | code passed =>
      cases passed with
      | zero => simp [encodeStep, longestSpelling?_return, plainByte]
      | succ passed => exact absurd (List.mem_cons_self ..) usual
  | literal quote =>
      have open_ : '\r' ≠ quote := Ne.symm usual
      simp [encodeStep, open_, plainByte]
  | escape quote => cases plain

/-- Two encoders stay in the same state, one of them a carriage return ahead. -/
theorem encodeFrom_withReturns (usual : state.Usual text) (plain : escapesFeed state text = false)
    (position : TextPosition) :
    encodeFrom state position (withReturns text) = encodeFrom state position text := by
  induction text generalizing state position with
  | nil => rfl
  | cons character rest ih =>
      rw [escapesFeed, Bool.or_eq_false_iff] at plain
      have behind := ih usual.step plain.2
      rw [withReturns]
      by_cases feed : character = '\n'
      · subst feed
        have open_ : state.isEscape = false := by simpa using plain.1
        have ascii : ('\r' : Char).toNat < 128 := by decide
        have ascii' : ('\n' : Char).toNat < 128 := by decide
        have place : (position.after '\r').after '\n' = position.after '\n' := rfl
        have unchanged : ∀ result : Except EncodeError (List UInt8), result.map ([] ++ ·) = result := by
          intro result
          cases result <;> rfl
        rw [if_pos rfl, encodeFrom_cons_ascii ascii, encodeStep_return usual open_, encodeFrom_cons_ascii ascii',
          encodeFrom_cons_ascii ascii', encodeStep_withReturns, place, behind, unchanged]
      · rw [if_neg feed]
        by_cases ascii : character.toNat < 128
        · rw [encodeFrom_cons_ascii ascii, encodeFrom_cons_ascii ascii, encodeStep_withReturns, behind]
        · rw [encodeFrom_cons_other ascii, encodeFrom_cons_other ascii]

/-- The kind of line end makes no difference, unless a literal has a backslash at
    the end of a line. -/
theorem encode_lineEnds (text : String) (plain : escapesFeed (.code 0) text.toList = false) :
    encode (String.ofList (withReturns text.toList)) = encode text := by
  have usual : (EncodingState.code 0).Usual text.toList := by simp [EncodingState.Usual]
  rw [encode, String.toList_ofList]
  exact encodeFrom_withReturns usual plain .start

/-- A literal that is left open at the end of a line, and a backslash outside of
    literals. -/
theorem encode_lineEnds_openLiteral :
    escapesFeed (.code 0) "A=\"if:\\\"\nif:A\\\nend;\n".toList = false ∧
      encode (String.ofList (withReturns "A=\"if:\\\"\nif:A\\\nend;\n".toList)) =
        encode "A=\"if:\\\"\nif:A\\\nend;\n" := by
  have plain : escapesFeed (.code 0) "A=\"if:\\\"\nif:A\\\nend;\n".toList = false := by decide +kernel
  exact ⟨plain, encode_lineEnds _ plain⟩

/-- A backslash at the end of a line in a literal: the literal goes on in the next
    line, but not behind a carriage return. -/
theorem encode_escapedLineEnd :
    encode "\"\\\nif:" = .ok [0x22, 0x5c, 0x0a, 0x69, 0x66, 0x3a] ∧
      encode (String.ofList (withReturns "\"\\\nif:".toList)) = .ok [0x22, 0x5c, 0x0a, 152] := by
  decide +kernel

end PocketScript.Symbol
