import PocketScript.Symbol
import PocketScript.Text.Shown

/-! # Program text and program bytes

Programs are edited as text (`print:A+1`) and stored as bytes, where every
reserved spelling is one byte. `Symbol.encode` replaces the longest spelling at
each place of the code and copies string and character literals as they stand,
so `"if:"` stays a string. `Symbol.decode` expands the bytes again.
-/

namespace PocketScript

/-- Only ASCII can be stored: the upper half of the byte range is taken by the
    reserved spellings. Lines and columns count from one. -/
structure EncodeError where
  character : Char
  line : Nat
  column : Nat
  deriving DecidableEq, Repr

/-- The text of an encoding error. -/
def EncodeError.message (error : EncodeError) : String :=
  "Unsupported character " ++ Text.shown error.character ++ " at line " ++ toString error.line ++
    ", column " ++ toString error.column

/-- A place in a program text. -/
structure TextPosition where
  line : Nat
  column : Nat
  deriving DecidableEq, Repr

namespace TextPosition

/-- The first place of a text. -/
def start : TextPosition := ⟨1, 1⟩

/-- The place after a one-byte character. -/
def after (position : TextPosition) (character : Char) : TextPosition :=
  if character = '\n' then ⟨position.line + 1, 1⟩ else ⟨position.line, position.column + 1⟩

end TextPosition

namespace Symbol

/-- The letters of every reserved spelling with its byte. -/
def spelledBytes : List (List Char × UInt8) :=
  spellings.toList.zipIdx.map fun (spelling, index) =>
    (spelling.toList, UInt8.ofNat (first + index))

/-- The longest reserved spelling a text starts with: its byte and its length. -/
def longestSpelling? (text : List Char) : Option (UInt8 × Nat) :=
  spelledBytes.foldl (fun best (letters, byte) =>
    if letters.isPrefixOf text && best.all (fun (_, length) => length ≤ letters.length) then
      some (byte, letters.length)
    else best) none

/-- Where the encoder stands between two characters. -/
inductive EncodingState where
  /-- In plain code; the next `passed` characters belong to a spelling whose
      byte is already written. -/
  | code (passed : Nat)
  /-- In a literal that `quote` closes. -/
  | literal (quote : Char)
  /-- In a literal, right after a backslash. -/
  | escape (quote : Char)
  deriving DecidableEq, Repr

/-- An ASCII character as it is stored: carriage returns are left out. -/
def plainByte (character : Char) : List UInt8 :=
  if character = '\r' then [] else [UInt8.ofNat character.toNat]

/-- What one ASCII character writes, and the state after it. A line end closes
    a literal that was left open. -/
def encodeStep (state : EncodingState) (character : Char) (rest : List Char) :
    List UInt8 × EncodingState :=
  match state with
  | .code (passed + 1) => ([], .code passed)
  | .code 0 =>
    if character = '"' ∨ character = '\'' then (plainByte character, .literal character)
    else
      match longestSpelling? (character :: rest) with
      | some (byte, length) => ([byte], .code (length - 1))
      | none => (plainByte character, .code 0)
  | .literal quote =>
    if character = '\n' then (plainByte character, .code 0)
    else if character = '\\' then (plainByte character, .escape quote)
    else if character = quote then (plainByte character, .code 0)
    else (plainByte character, .literal quote)
  | .escape quote => (plainByte character, .literal quote)

/-- Encode the rest of a text from a state and a place in it. -/
def encodeFrom (state : EncodingState) (position : TextPosition) :
    List Char → Except EncodeError (List UInt8)
  | [] => .ok []
  | character :: rest =>
    if character.toNat < 128 then
      let (bytes, state) := encodeStep state character rest
      (encodeFrom state (position.after character) rest).map (bytes ++ ·)
    else .error ⟨character, position.line, position.column⟩

/-- The bytes of a program text. -/
def encode (text : String) : Except EncodeError (List UInt8) :=
  encodeFrom (.code 0) .start text.toList

/-- The characters one byte stands for. A byte that is neither ASCII nor a
    reserved spelling shows as the replacement character. -/
def decodeByte (byte : UInt8) : List Char :=
  match spelling? byte with
  | some spelling => spelling.toList
  | none => if byte < 128 then [Char.ofNat byte.toNat] else ['\uFFFD']

/-- The text of program bytes. -/
def decode (bytes : List UInt8) : String :=
  String.ofList (bytes.flatMap decodeByte)

end Symbol

end PocketScript
