/-! # Reading bytes as UTF-8

Bytes that are to be shown need not be well-formed UTF-8. `Text.ofBytes` reads
every well-formed character and puts one replacement character for each longest
run of bytes that begins a character and breaks off, and for each byte that
begins none.
-/

namespace PocketScript.Text

/-- A character under way: its bits so far, how many bytes it still owes and
    the range the next one has to lie in. -/
structure Partial where
  bits : Nat
  owed : Nat
  low : Nat
  high : Nat
  deriving DecidableEq, Repr

/-- What a byte at the start of a character begins: a whole character, a
    character under way, or none. -/
inductive Lead where
  | whole (character : Char)
  | starts (state : Partial)
  | none
  deriving DecidableEq, Repr

/-- What a byte begins. The ranges after E0, ED, F0 and F4 leave out overlong
    forms, surrogates and code points beyond the last one. -/
def lead (byte : Nat) : Lead :=
  if byte ≤ 0x7f then .whole (Char.ofNat byte)
  else if 0xc2 ≤ byte ∧ byte ≤ 0xdf then .starts ⟨byte - 0xc0, 1, 0x80, 0xbf⟩
  else if byte = 0xe0 then .starts ⟨0, 2, 0xa0, 0xbf⟩
  else if byte = 0xed then .starts ⟨0xd, 2, 0x80, 0x9f⟩
  else if 0xe1 ≤ byte ∧ byte ≤ 0xef then .starts ⟨byte - 0xe0, 2, 0x80, 0xbf⟩
  else if byte = 0xf0 then .starts ⟨0, 3, 0x90, 0xbf⟩
  else if 0xf1 ≤ byte ∧ byte ≤ 0xf3 then .starts ⟨byte - 0xf0, 3, 0x80, 0xbf⟩
  else if byte = 0xf4 then .starts ⟨4, 3, 0x80, 0x8f⟩
  else .none

/-- The character shown for bytes that are not UTF-8. -/
def replacement : Char := '\uFFFD'

/-- What a byte between characters shows, and what it leaves under way. -/
def begin (byte : UInt8) : List Char × Option Partial :=
  match lead byte.toNat with
  | .whole character => ([character], none)
  | .starts state => ([], some state)
  | .none => ([replacement], none)

/-- What one byte shows, and what it leaves under way. -/
def readByte (state : Option Partial) (byte : UInt8) : List Char × Option Partial :=
  match state with
  | none => begin byte
  | some state =>
    if state.low ≤ byte.toNat ∧ byte.toNat ≤ state.high then
      let bits := state.bits * 64 + (byte.toNat - 0x80)
      if state.owed ≤ 1 then ([Char.ofNat bits], none)
      else ([], some ⟨bits, state.owed - 1, 0x80, 0xbf⟩)
    else
      let (shown, state) := begin byte
      (replacement :: shown, state)

/-- The characters of bytes read from a state. -/
def charactersFrom (state : Option Partial) : List UInt8 → List Char
  | [] => if state.isSome then [replacement] else []
  | byte :: rest =>
    let (shown, state) := readByte state byte
    shown ++ charactersFrom state rest

/-- The text of bytes that need not be UTF-8. -/
def ofBytes (bytes : List UInt8) : String :=
  String.ofList (charactersFrom none bytes)

/-- Whether bytes are well-formed UTF-8 from a state on. -/
def wellFormedFrom (state : Option Partial) : List UInt8 → Bool
  | [] => state.isNone
  | byte :: rest =>
    match state with
    | none =>
      match lead byte.toNat with
      | .whole _ => wellFormedFrom none rest
      | .starts state => wellFormedFrom (some state) rest
      | .none => false
    | some state =>
      state.low ≤ byte.toNat && byte.toNat ≤ state.high &&
        wellFormedFrom (readByte (some state) byte).2 rest

/-- The text of bytes, if they are well-formed UTF-8. -/
def ofBytes? (bytes : List UInt8) : Option String :=
  if wellFormedFrom none bytes then some (ofBytes bytes) else none

/-- The bytes of a text. -/
def toBytes (text : String) : List UInt8 :=
  text.toUTF8.toList

end PocketScript.Text
