/-! # Program symbols

A program is a string of bytes. A byte below 128 is an ASCII character; each of
the seventy bytes from 128 on stands for one reserved spelling, so an evaluator
never matches keywords while it runs. This module says what every byte means:
which operator or built-in function it is, how many arguments a function takes
and how tightly a binary operator binds.
-/

namespace PocketScript

/-- The operators on two numbers that also have an updating form (`A+=B`). -/
inductive Combination where
  | add
  | subtract
  | multiply
  | divide
  | remainder
  /-- `&&` on truth values. -/
  | both
  /-- `||` on truth values. -/
  | either
  /-- `^^` on truth values. -/
  | exactlyOne
  | bitAnd
  | bitOr
  | bitXor
  | shiftLeft
  | shiftRight
  deriving DecidableEq, Repr

/-- The operators that compare two numbers. -/
inductive Comparison where
  | greater
  | less
  | atLeast
  | atMost
  | equal
  | unequal
  deriving DecidableEq, Repr

/-- An operator between two operands. -/
inductive BinaryOperator where
  | combine (operator : Combination)
  | compare (operator : Comparison)
  /-- `=` -/
  | assign
  /-- A combination written back into its left operand. -/
  | update (operator : Combination)
  deriving DecidableEq, Repr

/-- `++` or `--`. -/
inductive Step where
  | up
  | down
  deriving DecidableEq, Repr

/-- An operator in front of its operand. -/
inductive UnaryOperator where
  | negate
  | not
  | complement
  | step (direction : Step)
  deriving DecidableEq, Repr

/-- Block structure and returns; legal only as a whole statement. -/
inductive Control where
  | whenTrue
  | otherwiseWhen
  | otherwise
  | close
  | loop
  | leaveLoop
  | nextRound
  | define
  | answer
  | leave
  | quit
  deriving DecidableEq, Repr

/-- Functions on numbers. -/
inductive MathFunction where
  | random
  | randomInteger
  | absolute
  | round
  | floor
  | ceiling
  | sine
  | cosine
  | tangent
  | squareRoot
  | power
  | logarithm
  deriving DecidableEq, Repr

/-- Conversions and the functions on strings and lists. -/
inductive ValueFunction where
  | number
  | string
  | type
  | length
  | copy
  | insert
  | remove
  | slice
  | insertSlice
  | removeSlice
  | sameReference
  deriving DecidableEq, Repr

/-- Functions on the console. -/
inductive ConsoleFunction where
  | print
  | askText
  | askNumber
  | menu
  deriving DecidableEq, Repr

/-- Functions on stored files. -/
inductive FileFunction where
  | exists
  | size
  | create
  | delete
  | rename
  | read
  | write
  | run
  deriving DecidableEq, Repr

/-- A built-in function, by family. -/
inductive Builtin where
  | control (function : Control)
  | math (function : MathFunction)
  | value (function : ValueFunction)
  | console (function : ConsoleFunction)
  | file (function : FileFunction)
  deriving DecidableEq, Repr

namespace Symbol

/-- The byte of the first reserved spelling. -/
def first : Nat := 128

/-- The byte of the first built-in function. -/
def firstBuiltin : Nat := 152

/-- Every reserved spelling, in the order of its byte. -/
def spellings : Array String := #[
  "&&", "||", "^^", "<<", ">>", "++", "--", "==", "!=", ">=", "<=",
  "+=", "-=", "*=", "/=", "%=", "&&=", "||=", "^^=", "&=", "|=", "^=", "<<=", ">>=",
  "if:", "elif:", "else;", "end;", "while:", "break;", "cont;", "func:", "ret:", "ret;", "quit;",
  "rand;", "randInt:", "abs:", "round:", "floor:", "ceil:", "sin:", "cos:", "tan:", "sqrt:",
  "pow:", "log:",
  "num:", "str:", "type:", "len:", "copy:", "ins:", "rem:", "sub:", "insSub:", "remSub:", "equRef:",
  "print:", "reqStr;", "reqNum;", "menu:",
  "fExists:", "fSize:", "fCreate:", "fDelete:", "fSetName:", "fRead:", "fWrite:", "fImport:"]

/-- Every built-in function, in the order of its byte. -/
def builtins : Array Builtin := #[
  .control .whenTrue, .control .otherwiseWhen, .control .otherwise, .control .close,
  .control .loop, .control .leaveLoop, .control .nextRound, .control .define,
  .control .answer, .control .leave, .control .quit,
  .math .random, .math .randomInteger, .math .absolute, .math .round, .math .floor,
  .math .ceiling, .math .sine, .math .cosine, .math .tangent, .math .squareRoot,
  .math .power, .math .logarithm,
  .value .number, .value .string, .value .type, .value .length, .value .copy,
  .value .insert, .value .remove, .value .slice, .value .insertSlice,
  .value .removeSlice, .value .sameReference,
  .console .print, .console .askText, .console .askNumber, .console .menu,
  .file .exists, .file .size, .file .create, .file .delete, .file .rename,
  .file .read, .file .write, .file .run]

/-- What the byte spells, if it is a reserved one. -/
def spelling? (byte : UInt8) : Option String :=
  if first ≤ byte.toNat then spellings[byte.toNat - first]? else none

/-- The built-in function a byte stands for. -/
def builtin? (byte : UInt8) : Option Builtin :=
  if firstBuiltin ≤ byte.toNat then builtins[byte.toNat - firstBuiltin]? else none

/-- `A` to `Z` and `_` start a name. -/
def startsName (byte : UInt8) : Bool :=
  (0x41 ≤ byte && byte ≤ 0x5a) || byte == 0x5f

/-- `0` to `9`. -/
def isDigit (byte : UInt8) : Bool :=
  0x30 ≤ byte && byte ≤ 0x39

/-- Names go on with what starts one and with digits. -/
def continuesName (byte : UInt8) : Bool :=
  startsName byte || isDigit byte

end Symbol

/-- The step a byte stands for. -/
def Step.ofByte? (byte : UInt8) : Option Step :=
  match byte.toNat with
  | 133 => some .up
  | 134 => some .down
  | _ => none

/-- The number a step adds. -/
def Step.amount : Step → Float32
  | .up => 1.0
  | .down => -1.0

/-- The operator a byte stands for in front of an operand. -/
def UnaryOperator.ofByte? (byte : UInt8) : Option UnaryOperator :=
  match byte.toNat with
  | 0x2d => some .negate
  | 0x21 => some .not
  | 0x7e => some .complement
  | 133 => some (.step .up)
  | 134 => some (.step .down)
  | _ => none

/-- The operator a byte stands for between two operands. -/
def BinaryOperator.ofByte? (byte : UInt8) : Option BinaryOperator :=
  match byte.toNat with
  | 0x2a => some (.combine .multiply)
  | 0x2f => some (.combine .divide)
  | 0x25 => some (.combine .remainder)
  | 0x2b => some (.combine .add)
  | 0x2d => some (.combine .subtract)
  | 0x3e => some (.compare .greater)
  | 0x3c => some (.compare .less)
  | 0x26 => some (.combine .bitAnd)
  | 0x5e => some (.combine .bitXor)
  | 0x7c => some (.combine .bitOr)
  | 0x3d => some .assign
  | 128 => some (.combine .both)
  | 129 => some (.combine .either)
  | 130 => some (.combine .exactlyOne)
  | 131 => some (.combine .shiftLeft)
  | 132 => some (.combine .shiftRight)
  | 135 => some (.compare .equal)
  | 136 => some (.compare .unequal)
  | 137 => some (.compare .atLeast)
  | 138 => some (.compare .atMost)
  | 139 => some (.update .add)
  | 140 => some (.update .subtract)
  | 141 => some (.update .multiply)
  | 142 => some (.update .divide)
  | 143 => some (.update .remainder)
  | 144 => some (.update .both)
  | 145 => some (.update .either)
  | 146 => some (.update .exactlyOne)
  | 147 => some (.update .bitAnd)
  | 148 => some (.update .bitOr)
  | 149 => some (.update .bitXor)
  | 150 => some (.update .shiftLeft)
  | 151 => some (.update .shiftRight)
  | _ => none

/-- How loosely a combination binds; a smaller number binds tighter. -/
def Combination.precedence : Combination → Nat
  | .multiply | .divide | .remainder => 1
  | .add | .subtract => 2
  | .shiftLeft | .shiftRight => 3
  | .bitAnd => 6
  | .bitXor => 7
  | .bitOr => 8
  | .both => 9
  | .exactlyOne => 10
  | .either => 11

/-- How loosely a comparison binds. -/
def Comparison.precedence : Comparison → Nat
  | .greater | .less | .atLeast | .atMost => 4
  | .equal | .unequal => 5

/-- How loosely a binary operator binds; writing operators bind loosest. -/
def BinaryOperator.precedence : BinaryOperator → Nat
  | .combine operator => operator.precedence
  | .compare operator => operator.precedence
  | .assign | .update _ => 12

/-- How many arguments a built-in function takes. A function definition has no
    fixed number: it takes its own name and one argument for each parameter. -/
def Builtin.arity? : Builtin → Option Nat
  | .control .define => none
  | .control .whenTrue | .control .otherwiseWhen | .control .loop | .control .answer => some 1
  | .control _ => some 0
  | .math .random => some 0
  | .math .randomInteger | .math .power | .math .logarithm => some 2
  | .math _ => some 1
  | .value .insert | .value .slice | .value .insertSlice | .value .removeSlice => some 3
  | .value .remove | .value .sameReference => some 2
  | .value _ => some 1
  | .console .print => some 1
  | .console .askText | .console .askNumber => some 0
  | .console .menu => some 2
  | .file .read => some 3
  | .file .rename | .file .write => some 2
  | .file _ => some 1

end PocketScript
