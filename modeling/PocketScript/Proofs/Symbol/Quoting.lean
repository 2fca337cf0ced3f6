import PocketScript.Console.Script
import PocketScript.Machine.Run
import PocketScript.Proofs.Machine.Runs
import PocketScript.Proofs.Store.Bytes
import PocketScript.Proofs.Symbol.RoundTrip

/-! # Quoted strings

The encoder and the evaluator read string literals each in its own way. A string that
is quoted outside any other literal is stored as it stands, whatever it spells, and
the evaluator reads the string back and goes on behind the closing quote.
-/

namespace PocketScript

namespace Symbol

/-- The literal that is open after a character, by its quote and whether the last
    character was a backslash that escapes the next. -/
def openAfter : Option (Char × Bool) → Char → Option (Char × Bool)
  | none, character => if character = '"' ∨ character = '\'' then some (character, false) else none
  | some (quote, true), _ => some (quote, false)
  | some (quote, false), character =>
    if character = '\n' then none
    else if character = '\\' then some (quote, true)
    else if character = quote then none
    else some (quote, false)

/-- The literal that is open at the end of a text. -/
def openLiteral? (text : List Char) : Option (Char × Bool) :=
  text.foldl openAfter none

/-- How a byte of a string is quoted. -/
def quotedByte (byte : UInt8) : List Char :=
  if byte = 0x0a then ['\\', 'N']
  else if byte = 0x22 ∨ byte = 0x5c then ['\\', Char.ofNat byte.toNat]
  else [Char.ofNat byte.toNat]

/-- A string as a literal. -/
def quoted (bytes : List UInt8) : List Char :=
  '"' :: bytes.flatMap quotedByte ++ ['"']

/-- What strings that can be quoted are made of. -/
def Quotable (byte : UInt8) : Prop :=
  byte < 128 ∧ byte ≠ 0 ∧ byte ≠ 0x0d

instance (byte : UInt8) : Decidable (Quotable byte) :=
  inferInstanceAs (Decidable (_ ∧ _))

/-- The characters of a text as bytes, one each. -/
def asBytes (text : List Char) : List UInt8 :=
  text.map fun character => UInt8.ofNat character.toNat

variable {text front back letters rest : List Char} {character : Char} {state : EncodingState}
  {position : TextPosition} {byte : UInt8} {bytes : List UInt8}

theorem asBytes_append : asBytes (front ++ back) = asBytes front ++ asBytes back :=
  List.map_append

/-- The literal that the encoder stands in. -/
def EncodingState.open? : EncodingState → Option (Char × Bool)
  | .code _ => none
  | .literal quote => some (quote, false)
  | .escape quote => some (quote, true)

/-- What is passed over is there, and has no quote in it. -/
def EncodingState.Fits : EncodingState → List Char → Prop
  | .code passed, text => ∃ letters, letters.length = passed ∧ letters <+: text ∧ '"' ∉ letters ∧ '\'' ∉ letters
  | .literal _, _ | .escape _, _ => True

theorem no_quote_of_spelled : ∀ spelled ∈ spelledBytes, '"' ∉ spelled.1 ∧ '\'' ∉ spelled.1 := by
  decide +kernel

theorem isPrefixOf_append_cons (absent : character ∉ letters) :
    letters.isPrefixOf (front ++ character :: back) = letters.isPrefixOf front := by
  induction letters generalizing front with
  | nil => cases front <;> rfl
  | cons letter letters ih =>
      obtain ⟨differs, absent⟩ := List.ne_and_not_mem_of_not_mem_cons absent
      cases front with
      | nil =>
          have other : (letter == character) = false := beq_false_of_ne (Ne.symm differs)
          simp [List.isPrefixOf, other]
      | cons first front => simp only [List.cons_append, List.isPrefixOf, ih absent]

/-- No spelling reaches into a literal that opens behind it. -/
theorem longestSpelling?_append_quote :
    longestSpelling? (front ++ '"' :: back) = longestSpelling? front := by
  unfold longestSpelling?
  apply List.foldl_ext
  intro best spelled mem
  simp only [isPrefixOf_append_cons (no_quote_of_spelled spelled mem).1]

/-- A step does not look into a literal behind the text. -/
theorem encodeStep_append_quote :
    encodeStep state character (rest ++ '"' :: back) = encodeStep state character rest := by
  cases state with
  | code passed =>
      cases passed with
      | zero => simp only [encodeStep, ← List.cons_append, longestSpelling?_append_quote]
      | succ passed => rfl
  | literal quote | escape quote => rfl

theorem fits_code (text : List Char) : (EncodingState.code 0).Fits text :=
  ⟨[], rfl, List.nil_prefix, List.not_mem_nil, List.not_mem_nil⟩

/-- A step has the same literal open as the text. -/
theorem open?_encodeStep (fits : state.Fits (character :: rest)) :
    (encodeStep state character rest).2.Fits rest ∧
      (encodeStep state character rest).2.open? = openAfter state.open? character := by
  cases state with
  | code passed =>
      obtain ⟨letters, rfl, starts, noQuote, noApostrophe⟩ := fits
      cases letters with
      | nil =>
          simp only [encodeStep, List.length_nil]
          split
          · next quote => exact ⟨trivial, (if_pos quote).symm⟩
          · next plain =>
            have closed : none = openAfter none character := (if_neg plain).symm
            split
            · next spelled length found =>
              obtain ⟨letters, mem, starts, rfl⟩ := longestSpelling?_spec found
              obtain ⟨noQuote, noApostrophe⟩ := no_quote_of_spelled _ mem
              have behind : letters.tail <+: rest := by
                cases letters with
                | nil => exact List.nil_prefix
                | cons letter letters => exact (List.cons_prefix_cons.mp starts).2
              exact ⟨⟨letters.tail, List.length_tail, behind, fun mem => noQuote (List.mem_of_mem_tail mem),
                fun mem => noApostrophe (List.mem_of_mem_tail mem)⟩, closed⟩
            · exact ⟨fits_code rest, closed⟩
      | cons letter letters =>
          obtain ⟨rfl, behind⟩ := List.cons_prefix_cons.mp starts
          obtain ⟨notQuote, noQuote⟩ := List.ne_and_not_mem_of_not_mem_cons noQuote
          obtain ⟨notApostrophe, noApostrophe⟩ := List.ne_and_not_mem_of_not_mem_cons noApostrophe
          have plain : ¬ (letter = '"' ∨ letter = '\'') := by
            intro quote
            exact quote.elim (fun same => notQuote same.symm) fun same => notApostrophe same.symm
          exact ⟨⟨letters, rfl, behind, noQuote, noApostrophe⟩, (if_neg plain).symm⟩
  | literal quote =>
      simp only [encodeStep, EncodingState.open?, openAfter]
      split
      · exact ⟨fits_code rest, rfl⟩
      · split
        · exact ⟨trivial, rfl⟩
        · split
          · exact ⟨fits_code rest, rfl⟩
          · exact ⟨trivial, rfl⟩
  | escape quote => exact ⟨trivial, rfl⟩

/-- What stands in front of a literal is encoded by itself. -/
theorem encodeFrom_append_quote (position : TextPosition) (back : List Char)
    (ascii : ∀ character ∈ front, character.toNat < 128) (fits : state.Fits front) :
    ∃ bytes last place, encodeFrom state position front = .ok bytes ∧
      last.Fits [] ∧ last.open? = front.foldl openAfter state.open? ∧
      encodeFrom state position (front ++ '"' :: back) = (encodeFrom last place ('"' :: back)).map (bytes ++ ·) := by
  induction front generalizing state position with
  | nil =>
      refine ⟨[], state, position, rfl, fits, rfl, ?_⟩
      rw [List.nil_append]
      cases encodeFrom state position ('"' :: back) with
      | error _ | ok _ => rfl
  | cons character rest ih =>
      obtain ⟨small, ascii⟩ := List.forall_mem_cons.mp ascii
      obtain ⟨fits, opens⟩ := open?_encodeStep fits
      obtain ⟨bytes, last, place, encoded, ends, literal, whole⟩ :=
        ih (position.after character) ascii fits
      refine ⟨(encodeStep state character rest).1 ++ bytes, last, place, ?_, ends, ?_, ?_⟩
      · rw [encodeFrom_cons_ascii small, encoded]
        rfl
      · rw [literal, opens, List.foldl_cons]
      · rw [List.cons_append, encodeFrom_cons_ascii small, encodeStep_append_quote, whole]
        cases encodeFrom last place ('"' :: back) with
        | error _ => rfl
        | ok more => simp [Except.map]

theorem plain_quotable : ∀ byte : UInt8, Quotable byte → byte ≠ 0x0a → byte ≠ 0x22 → byte ≠ 0x5c →
    (Char.ofNat byte.toNat).toNat < 128 ∧ Char.ofNat byte.toNat ≠ '\r' ∧ Char.ofNat byte.toNat ≠ '\n' ∧
      Char.ofNat byte.toNat ≠ '\\' ∧ Char.ofNat byte.toNat ≠ '"' ∧
      UInt8.ofNat (Char.ofNat byte.toNat).toNat = byte :=
  forall_byte (by decide +kernel)

/-- A byte is quoted as a character that stands for itself, or as one that stands for
    it behind a backslash. -/
theorem quotedByte_spec (quotable : Quotable byte) : ∃ character : Char, character.toNat < 128 ∧ character ≠ '\r' ∧
    (quotedByte byte = ['\\', character] ∧ UInt8.ofNat character.toNat ≠ 0 ∧
        Store.unescape (UInt8.ofNat character.toNat) = byte ∨
      quotedByte byte = [character] ∧ character ≠ '\n' ∧ character ≠ '\\' ∧ character ≠ '"' ∧
        UInt8.ofNat character.toNat = byte ∧ byte ≠ 0x5c ∧ byte ≠ 0x22) := by
  by_cases feed : byte = 0x0a
  · subst feed
    exact ⟨'N', by decide, by decide, .inl ⟨rfl, by decide, by decide⟩⟩
  by_cases quote : byte = 0x22
  · subst quote
    exact ⟨'"', by decide, by decide, .inl ⟨rfl, by decide, by decide⟩⟩
  by_cases backslash : byte = 0x5c
  · subst backslash
    exact ⟨'\\', by decide, by decide, .inl ⟨rfl, by decide, by decide⟩⟩
  obtain ⟨small, visible, notFeed, notBackslash, notQuote, same⟩ := plain_quotable byte quotable feed quote backslash
  have plain : quotedByte byte = [Char.ofNat byte.toNat] := by simp [quotedByte, feed, quote, backslash]
  exact ⟨_, small, visible, .inr ⟨plain, notFeed, notBackslash, notQuote, same, backslash, quote⟩⟩

theorem encodeFrom_copied (small : character.toNat < 128) (visible : character ≠ '\r') {next : EncodingState}
    (copied : encodeStep state character rest = (plainByte character, next)) :
    encodeFrom state position (character :: rest) =
      (encodeFrom next (position.after character) rest).map (UInt8.ofNat character.toNat :: ·) := by
  rw [encodeFrom_cons_ascii small, copied, plainByte, if_neg visible]
  rfl

/-- What a byte is quoted as is copied, and the literal goes on. -/
theorem encodeFrom_quotedByte (position : TextPosition) (rest : List Char) (quotable : Quotable byte) : ∃ place,
    encodeFrom (.literal '"') position (quotedByte byte ++ rest) =
      (encodeFrom (.literal '"') place rest).map (asBytes (quotedByte byte) ++ ·) := by
  obtain ⟨character, small, visible, ⟨escaped, -, -⟩ | ⟨plain, notFeed, notBackslash, notQuote, -⟩⟩ :=
    quotedByte_spec quotable
  · refine ⟨(position.after '\\').after character, ?_⟩
    have backslash : encodeStep (.literal '"') '\\' (character :: rest) = (plainByte '\\', .escape '"') := rfl
    have behind : encodeStep (.escape '"') character rest = (plainByte character, .literal '"') := rfl
    rw [escaped, List.cons_append, List.cons_append, List.nil_append,
      encodeFrom_copied (by decide) (by decide) backslash, encodeFrom_copied small visible behind]
    cases encodeFrom (.literal '"') ((position.after '\\').after character) rest with
    | error _ | ok _ => rfl
  · refine ⟨position.after character, ?_⟩
    have copied : encodeStep (.literal '"') character rest = (plainByte character, .literal '"') := by
      simp only [encodeStep, if_neg notFeed, if_neg notBackslash, if_neg notQuote]
    rw [plain, List.cons_append, List.nil_append, encodeFrom_copied small visible copied]
    rfl

theorem encodeFrom_body (position : TextPosition) (rest : List Char) (quotable : ∀ byte ∈ bytes, Quotable byte) :
    ∃ place,
    encodeFrom (.literal '"') position (bytes.flatMap quotedByte ++ rest) =
      (encodeFrom (.literal '"') place rest).map (asBytes (bytes.flatMap quotedByte) ++ ·) := by
  induction bytes generalizing position with
  | nil =>
      refine ⟨position, ?_⟩
      rw [List.flatMap_nil, List.nil_append]
      cases encodeFrom (.literal '"') position rest with
      | error _ | ok _ => rfl
  | cons byte bytes ih =>
      obtain ⟨first, quotable⟩ := List.forall_mem_cons.mp quotable
      obtain ⟨middle, copied⟩ := encodeFrom_quotedByte position (bytes.flatMap quotedByte ++ rest) first
      obtain ⟨place, behind⟩ := ih middle quotable
      refine ⟨place, ?_⟩
      rw [List.flatMap_cons, List.append_assoc, copied, behind]
      cases encodeFrom (.literal '"') place rest with
      | error _ => rfl
      | ok more => simp [Except.map, asBytes]

/-- A quoted string is copied, and code follows it. -/
theorem encodeFrom_quoted (position : TextPosition) (rest : List Char) (quotable : ∀ byte ∈ bytes, Quotable byte) :
    ∃ place,
    encodeFrom (.code 0) position (quoted bytes ++ rest) =
      (encodeFrom (.code 0) place rest).map (asBytes (quoted bytes) ++ ·) := by
  have opens : encodeStep (.code 0) '"' (bytes.flatMap quotedByte ++ '"' :: rest) = (plainByte '"', .literal '"') := rfl
  have closes : encodeStep (.literal '"') '"' rest = (plainByte '"', .code 0) := rfl
  obtain ⟨place, body⟩ := encodeFrom_body (position.after '"') ('"' :: rest) quotable
  refine ⟨place.after '"', ?_⟩
  rw [quoted, List.cons_append, List.cons_append, List.append_assoc, List.singleton_append,
    encodeFrom_copied (by decide) (by decide) opens, body, encodeFrom_copied (by decide) (by decide) closes]
  cases encodeFrom (.code 0) (place.after '"') rest with
  | error _ => rfl
  | ok more => simp [Except.map, asBytes]

/-- An ASCII text is encoded, in the same way at every place. -/
theorem encodeFrom_ascii (state : EncodingState) (ascii : ∀ character ∈ text, character.toNat < 128) :
    ∃ bytes, ∀ position, encodeFrom state position text = .ok bytes := by
  induction text generalizing state with
  | nil => exact ⟨[], fun _ => rfl⟩
  | cons character rest ih =>
      obtain ⟨small, ascii⟩ := List.forall_mem_cons.mp ascii
      obtain ⟨bytes, encoded⟩ := ih (encodeStep state character rest).2 ascii
      refine ⟨(encodeStep state character rest).1 ++ bytes, fun position => ?_⟩
      rw [encodeFrom_cons_ascii small, encoded]
      rfl

/-- A text with a string quoted in it, outside of other literals, is encoded part by
    part, and the quoted string as it stands. -/
theorem encode_quoted (quotable : ∀ byte ∈ bytes, Quotable byte)
    (ascii : ∀ character ∈ front, character.toNat < 128) (ascii' : ∀ character ∈ back, character.toNat < 128)
    (outside : openLiteral? front = none) :
    ∃ first second, encode (String.ofList front) = .ok first ∧ encode (String.ofList back) = .ok second ∧
      encode (String.ofList (front ++ quoted bytes ++ back)) = .ok (first ++ asBytes (quoted bytes) ++ second) := by
  obtain ⟨first, last, place, encoded, ends, opens, whole⟩ :=
    encodeFrom_append_quote .start (bytes.flatMap quotedByte ++ ['"'] ++ back) ascii (fits_code front)
  obtain rfl : last = .code 0 := by
    cases last with
    | code passed =>
        obtain ⟨letters, rfl, starts, -, -⟩ := ends
        rw [List.prefix_nil.mp starts, List.length_nil]
    | literal quote | escape quote =>
        have closed : front.foldl openAfter none = none := outside
        cases opens.trans closed
  obtain ⟨after, copied⟩ := encodeFrom_quoted place back quotable
  obtain ⟨second, behind⟩ := encodeFrom_ascii (.code 0) ascii'
  refine ⟨first, second, ?_, ?_, ?_⟩
  · rw [encode, String.toList_ofList, encoded]
  · rw [encode, String.toList_ofList, behind]
  · have split : front ++ quoted bytes ++ back = front ++ '"' :: (bytes.flatMap quotedByte ++ ['"'] ++ back) := by
      simp [quoted]
    have joined : '"' :: (bytes.flatMap quotedByte ++ ['"'] ++ back) = quoted bytes ++ back := by
      simp [quoted]
    rw [encode, String.toList_ofList, split, whole, joined, copied, behind]
    simp [Except.map]

end Symbol

namespace Store

open PocketScript.Symbol

variable {store : Store} {address count : Nat} {byte : UInt8} {bytes : List UInt8}

theorem restOfString?_quotedByte (quotable : Quotable byte) (has : store.Has address (asBytes (quotedByte byte))) :
    store.restOfString? (count + (quotedByte byte).length) false address =
      (store.restOfString? count false (address + (quotedByte byte).length)).map fun (rest, after) =>
        (byte :: rest, after) := by
  obtain ⟨character, -, -, ⟨quoted, nonzero, stands⟩ | ⟨quoted, -, -, -, stands, notBackslash, notQuote⟩⟩ :=
    quotedByte_spec quotable
  · rw [quoted] at has ⊢
    obtain ⟨backslash, behind, -⟩ := has
    have backslash : store.byte address = 0x5c := backslash
    rw [List.length_cons, List.length_singleton, ← Nat.add_assoc, restOfString?, backslash]
    simp only [restOfString?, behind, stands, if_neg nonzero]
    rfl
  · rw [quoted] at has ⊢
    have here : store.byte address = byte := has.1.trans stands
    rw [List.length_singleton, restOfString?, here]
    simp only [if_neg quotable.2.1, if_neg notBackslash, if_neg notQuote]
    rfl

/-- The body of a string is read up to the closing quote. -/
theorem restOfString?_body (quotable : ∀ byte ∈ bytes, Quotable byte)
    (has : store.Has address (asBytes (bytes.flatMap quotedByte ++ ['"']))) :
    store.restOfString? (count + 1 + (bytes.flatMap quotedByte).length) false address =
      some (bytes, address + (bytes.flatMap quotedByte).length + 1) := by
  induction bytes generalizing address with
  | nil =>
      have quote : store.byte address = 0x22 := has.1
      rw [List.flatMap_nil, List.length_nil, Nat.add_zero, restOfString?, quote]
      rfl
  | cons byte bytes ih =>
      obtain ⟨first, quotable⟩ := List.forall_mem_cons.mp quotable
      rw [List.flatMap_cons, List.append_assoc, asBytes_append, has_append] at has
      obtain ⟨here, behind⟩ := has
      have length : (asBytes (quotedByte byte)).length = (quotedByte byte).length := List.length_map ..
      rw [length] at behind
      rw [List.flatMap_cons, List.length_append, Nat.add_comm (quotedByte byte).length, ← Nat.add_assoc,
        restOfString?_quotedByte first here, ih quotable behind, Option.map_some, Nat.add_comm (bytes.flatMap _).length,
        ← Nat.add_assoc]

/-- A quoted string is read to its end: no byte of it is zero, so all of it lies in the
    store. -/
theorem restOfString?_quoted (quotable : ∀ byte ∈ bytes, Quotable byte)
    (has : store.Has address (asBytes (quoted bytes))) :
    store.byte address = 0x22 ∧ store.restOfString? (capacity - (address + 1)) false (address + 1) =
      some (bytes, address + (quoted bytes).length) := by
  have length : (quoted bytes).length = (bytes.flatMap quotedByte).length + 2 := by
    simp [quoted]
  obtain ⟨quote, body⟩ : store.byte address = 0x22 ∧
      store.Has (address + 1) (asBytes (bytes.flatMap quotedByte ++ ['"'])) := has
  have closing : store.byte (address + 1 + (bytes.flatMap quotedByte).length) = 0x22 := by
    rw [asBytes_append, has_append, asBytes, List.length_map] at body
    exact body.2.1
  have nonzero : store.byte (address + 1 + (bytes.flatMap quotedByte).length) ≠ 0 := by
    rw [closing]
    decide
  have inside := lt_capacity nonzero
  obtain ⟨more, room⟩ : ∃ more, capacity - (address + 1) = more + 1 + (bytes.flatMap quotedByte).length :=
    ⟨capacity - (address + 2 + (bytes.flatMap quotedByte).length), by omega⟩
  rw [room, restOfString?_body quotable body, length]
  exact ⟨quote, congrArg (fun code => some (bytes, code)) (by omega)⟩

end Store

namespace Memory

open MemoryM

variable {memory : Memory}

theorem allocate_collides (wellFormed : memory.heap.WellFormed) (size : Nat) (payload : Payload) :
    Ends (allocate size payload) memory (fun _ _ => True) fun error _ => error = .collision := by
  refine Ends.onHeap (fun _ _ _ => trivial) fun error missed => ?_
  obtain none | ⟨address, handle, placed, ran, -⟩ := wellFormed.allocate size payload memory.stack.boundary
  · exact Except.error.inj (missed.symm.trans none)
  · cases missed.symm.trans ran

/-- A new string is read back, or there was no room for it. -/
theorem Sound.createString_reads (sound : memory.Sound) (bytes : List UInt8) :
    Ends (Memory.createString bytes) memory (fun cell after => after.string cell = .ok bytes)
      fun error _ => error = .collision := by
  have reads := sound.createSequence (.bytes bytes) trivial rfl (stringSize bytes.length)
  have collides : Ends (Memory.createSequence (stringSize bytes.length) (.bytes bytes)) memory (fun _ _ => True)
      fun error _ => error = .collision := by
    have empty : memory.heap.contents.Fresh (.target .dangling) := rfl
    have cell := (sound.allocate empty pointerSize).and
      (allocate_collides sound.heap pointerSize (.target .dangling))
    refine Ends.bind (cell.mono ?_ fun _ _ refused => refused.2)
    rintro cell after ⟨⟨evolves, -⟩, -⟩
    have object := allocate_collides evolves.sound.heap (stringSize bytes.length) (.bytes bytes)
    exact Ends.bind (object.mono (fun _ _ _ => trivial) fun _ _ refused => refused)
  refine (reads.and collides).mono ?_ fun _ _ refused => refused.2
  rintro cell after ⟨⟨-, held⟩, -⟩
  exact string_eq_ok_iff.mpr held

end Memory

namespace Machine

variable {κ : Type} [Console κ] {machine : Machine κ} {address : Address} {bytes : List UInt8}

theorem readPrimary_quote (inner : Inner κ) (isStatement : Bool) (quote : machine.store.byte address = 0x22) :
    readPrimary inner (.starting address) isStatement machine = readStringLiteral (.starting address) machine := by
  simp only [readPrimary, Eval.byteAt, Expression.starting, bind, EStateM.bind, get, getThe, MonadStateOf.get,
    EStateM.get, pure, EStateM.pure, quote]
  rfl

/-- An evaluation leads to a new string and goes on at `code`, or the program ends
    because there is no room for the string. -/
def GivesString (evaluation : Eval κ Expression) (machine : Machine κ) (bytes : List UInt8) (start code : Address) :
    Prop :=
  match evaluation machine with
  | .ok expression after => ∃ cell, after.memory.string cell = .ok bytes ∧
      expression = ⟨start, code, .string cell, none, .loose⟩
  | .error interrupt after => interrupt = .quit ∧ after.fault? = some ⟨.memory .collision, start⟩

/-- Evaluating a quoted string. -/
theorem readPrimary_quoted (sound : machine.memory.Sound) (quotable : ∀ byte ∈ bytes, Symbol.Quotable byte)
    (has : machine.store.Has address (Symbol.asBytes (Symbol.quoted bytes))) (inner : Inner κ) (isStatement : Bool) :
    GivesString (readPrimary inner (.starting address) isStatement) machine bytes address
      (address + (Symbol.quoted bytes).length) := by
  obtain ⟨quote, read⟩ := Store.restOfString?_quoted quotable has
  have literal : readStringLiteral (.starting address) machine =
      (Eval.onMemory address (Memory.createString bytes) >>= fun cell => pure
        ⟨address, address + (Symbol.quoted bytes).length, .string cell, none, .loose⟩) machine := by
    simp only [readStringLiteral, Expression.starting, bind, EStateM.bind, get, getThe, MonadStateOf.get, EStateM.get,
      read]
  have creates := sound.createString_reads bytes
  unfold MemoryM.Ends at creates
  unfold GivesString
  rw [readPrimary_quote inner isStatement quote, literal]
  simp only [bind, EStateM.bind, Eval.onMemory, Eval.onMemoryAs, Eval.fail, Machine.noted_inattentive]
  cases ran : Memory.createString bytes machine.memory with
  | ok cell memory =>
      simp only [ran] at creates
      exact ⟨cell, creates, rfl⟩
  | error error memory =>
      simp only [ran] at creates
      exact ⟨rfl, by rw [creates]⟩

/-- A string that is quoted outside of other literals is stored as it stands, whatever
    it spells. Wherever the program is stored, evaluation of what stands in that place
    gives a new string of the same bytes and goes on right behind the closing quote,
    unless there is no room for the string. -/
theorem stringLiterals_survive {front back : List Char} (quotable : ∀ byte ∈ bytes, Symbol.Quotable byte)
    (ascii : ∀ character ∈ front ++ back, character.toNat < 128) (outside : Symbol.openLiteral? front = none) :
    ∃ first second, Symbol.encode (String.ofList front) = .ok first ∧
      Symbol.encode (String.ofList (front ++ Symbol.quoted bytes ++ back)) =
        .ok (first ++ Symbol.asBytes (Symbol.quoted bytes) ++ second) ∧
      ∀ (machine : Machine κ) (inner : Inner κ) (start : Address) (isStatement : Bool),
        machine.memory.Sound →
        machine.store.Has start (first ++ Symbol.asBytes (Symbol.quoted bytes) ++ second) →
        let place := start + first.length
        GivesString (readPrimary inner (.starting place) isStatement) machine bytes place
          (place + (Symbol.quoted bytes).length) := by
  have ascii_front : ∀ character ∈ front, character.toNat < 128 :=
    fun character mem => ascii character (List.mem_append_left back mem)
  have ascii_back : ∀ character ∈ back, character.toNat < 128 :=
    fun character mem => ascii character (List.mem_append_right front mem)
  obtain ⟨first, second, encoded, -, whole⟩ := Symbol.encode_quoted quotable ascii_front ascii_back outside
  refine ⟨first, second, encoded, whole, ?_⟩
  intro machine inner start isStatement sound has
  rw [Store.has_append, Store.has_append] at has
  exact readPrimary_quoted sound quotable has.1.2 inner isStatement

/-- A string that spells a symbol, a quote, a backslash, a line feed, and the letter
    that a line feed is quoted as. -/
def spelledString : List UInt8 := [0x69, 0x66, 0x3a, 0x22, 0x5c, 0x0a, 0x4e]

theorem stringLiterals_survive_spelledString :
    let program := [0x41, 0x3d, 0x22, 0x78, 0x22, 0x85] ++ Symbol.asBytes (Symbol.quoted spelledString) ++ [0x3b]
    let machine := Machine.start (Store.erased.write 0 program) (Script.ofAnswers []) Configuration.standard
    let inner : Inner Script := ⟨fun _ _ _ => throw .unfinished, fun _ => throw .unfinished, none⟩
    Symbol.quoted spelledString = ['"', 'i', 'f', ':', '\\', '"', '\\', '\\', '\\', 'N', 'N', '"'] ∧
      (∀ byte ∈ spelledString, Symbol.Quotable byte) ∧
      (∀ character ∈ ['A', '=', '"', 'x', '"', '+', '+'] ++ [';'], character.toNat < 128) ∧
      Symbol.openLiteral? ['A', '=', '"', 'x', '"', '+', '+'] = none ∧ machine.memory.Sound ∧
      machine.store.Has 0 program ∧
      GivesString (readPrimary inner (.starting 6) false) machine spelledString 6 18 := by
  intro program machine inner
  have quotable : ∀ byte ∈ spelledString, Symbol.Quotable byte := by decide +kernel
  have ascii : ∀ character ∈ ['A', '=', '"', 'x', '"', '+', '+'] ++ [';'], character.toNat < 128 := by
    simp
  have outside : Symbol.openLiteral? ['A', '=', '"', 'x', '"', '+', '+'] = none := by decide
  have empty : machine.memory = (Memory.empty Configuration.standard.regionSize).reset := rfl
  have stored : machine.store = Store.erased.write 0 program := rfl
  have sound : machine.memory.Sound := empty ▸ Memory.sound_reset (.empty _)
  have written : (Store.erased.write 0 program).Has 0 program := Store.has_write (Nat.le_of_ble_eq_true rfl)
  have has : machine.store.Has 0 program := stored ▸ written
  clear_value machine
  obtain ⟨first, second, encoded, whole, survives⟩ := stringLiterals_survive (κ := Script) quotable ascii outside
  have starts : Symbol.encode (String.ofList ['A', '=', '"', 'x', '"', '+', '+']) =
      .ok [0x41, 0x3d, 0x22, 0x78, 0x22, 0x85] := by
    decide +kernel
  obtain rfl := Except.ok.inj (encoded.symm.trans starts)
  have ends :
      Symbol.encode (String.ofList (['A', '=', '"', 'x', '"', '+', '+'] ++ Symbol.quoted spelledString ++ [';'])) =
        .ok program := by
    decide +kernel
  obtain rfl : second = [0x3b] := List.append_cancel_left (Except.ok.inj (whole.symm.trans ends))
  have result := survives machine inner 0 false sound has
  have place : 0 + [(0x41 : UInt8), 0x3d, 0x22, 0x78, 0x22, 0x85].length = 6 := rfl
  have length : (Symbol.quoted spelledString).length = 12 := by decide
  rw [place, length] at result
  exact ⟨by decide, quotable, ascii, outside, sound, has, result⟩

end Machine

end PocketScript
