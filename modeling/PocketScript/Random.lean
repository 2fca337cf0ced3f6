/-! # Random draws

The random source of `rand;` and `randInt:`: the words of a ChaCha keystream of
twelve rounds, each accepted word giving a draw of fifteen bits. A source is a
key and the number of words already used, so equal sources draw alike.
-/

namespace PocketScript

/-- A keystream and the place in it. -/
structure RandomSource where
  key : Vector UInt32 8
  used : Nat
  deriving DecidableEq, Repr

namespace RandomSource

/-- Rotate a word to the left. -/
def rotateLeft (word : UInt32) (amount : UInt32) : UInt32 :=
  (word <<< amount) ||| (word >>> (32 - amount))

/-- Rotate a word to the right; the amount counts modulo 32. -/
def rotateRight (word : UInt32) (amount : UInt32) : UInt32 :=
  (word >>> amount) ||| (word <<< (32 - amount))

/-- One step of the seed expansion: the next state of a linear congruential
    generator. -/
def nextState (state : UInt64) : UInt64 :=
  state * 6364136223846793005 + 11634580027462260723

/-- The word that a state of the seed expansion gives: its upper bits folded
    together and rotated by the topmost ones. -/
def stateWord (state : UInt64) : UInt32 :=
  rotateRight (((state >>> 18) ^^^ state) >>> 27).toUInt32 (state >>> 59).toUInt32

/-- The words that successive states give. -/
def seedWords (state : UInt64) : (count : Nat) → List UInt32
  | 0 => []
  | count + 1 => stateWord (nextState state) :: seedWords (nextState state) count

/-- The source that a seed starts. -/
def ofSeed (seed : UInt64) : RandomSource :=
  let words := (seedWords seed 8).toArray
  ⟨Vector.ofFn fun index => words.getD index 0, 0⟩

/-- The sixteen words a block is computed from: four constants, the key, the
    block number in two words and two zeros. -/
def blockStart (key : Vector UInt32 8) (block : UInt64) : Vector UInt32 16 :=
  (#v[0x61707865, 0x3320646e, 0x79622d32, 0x6b206574] : Vector UInt32 4) ++ key ++
    (#v[block.toUInt32, (block >>> 32).toUInt32, 0, 0] : Vector UInt32 4)

/-- The quarter round on four places of a block. -/
def quarterRound (words : Vector UInt32 16) (a b c d : Fin 16) : Vector UInt32 16 :=
  let words := words.set a (words[a] + words[b])
  let words := words.set d (rotateLeft (words[d] ^^^ words[a]) 16)
  let words := words.set c (words[c] + words[d])
  let words := words.set b (rotateLeft (words[b] ^^^ words[c]) 12)
  let words := words.set a (words[a] + words[b])
  let words := words.set d (rotateLeft (words[d] ^^^ words[a]) 8)
  let words := words.set c (words[c] + words[d])
  words.set b (rotateLeft (words[b] ^^^ words[c]) 7)

/-- A round on the columns of a block, then one on its diagonals. -/
def doubleRound (words : Vector UInt32 16) : Vector UInt32 16 :=
  let words := quarterRound words 0 4 8 12
  let words := quarterRound words 1 5 9 13
  let words := quarterRound words 2 6 10 14
  let words := quarterRound words 3 7 11 15
  let words := quarterRound words 0 5 10 15
  let words := quarterRound words 1 6 11 12
  let words := quarterRound words 2 7 8 13
  quarterRound words 3 4 9 14

/-- A block of the keystream: twelve rounds added to what they started from. -/
def block (key : Vector UInt32 8) (number : UInt64) : Vector UInt32 16 :=
  let start := blockStart key number
  Vector.zipWith (· + ·) (Nat.repeat doubleRound 6 start) start

/-- A word of the keystream by its position. -/
def word (key : Vector UInt32 8) (position : Nat) : UInt32 :=
  (block key (UInt64.ofNat (position / 16))).get ⟨position % 16, Nat.mod_lt _ (by decide)⟩

/-- After so many words the keystream repeats itself: a block has sixteen of them and a
    number of 64 bits. -/
def period : Nat := Nat.pow 2 68

/-- The first word from the source whose bit 16 is clear, shifted to its upper
    fifteen bits; the others are skipped. -/
def drawWithin : (limit : Nat) → RandomSource → Nat × RandomSource
  | 0, source => (0, source)
  | limit + 1, source =>
    let next := (word source.key source.used).toNat
    let source := { source with used := source.used + 1 }
    if next.testBit 16 then drawWithin limit source else (next >>> 17, source)

/-- A draw from 0 to 32767. A keystream that has no word to draw has none in a whole
    period, and nothing can be drawn from it. -/
def draw (source : RandomSource) : Nat × RandomSource :=
  drawWithin period source

end RandomSource

end PocketScript
