import PocketScript.Memory.Error
import PocketScript.Store.File

/-! # Faults

What can go wrong while a program runs. The first fault ends the program; it is
reported by its message, which is laid out for a narrow display, and by the
program line that it arose in.
-/

namespace PocketScript

/-- The kinds of faults a program can run into. -/
inductive FaultKind where
  | badStartOfExpression
  | badEndStatement
  | badContinueStatement
  | badBreakStatement
  | badArgumentType
  | missingApostrophe
  | missingQuotationMark
  | missingBracket
  | missingParenthesis
  | missingComma
  | stackHeapCollision
  | badIndex
  | missingFile
  | nameTooLong
  | storageFull
  | badAmount
  | fileExists
  | badDestination
  | badOperandType
  | divideByZero
  | badValue
  | notTopLevel
  | missingValue
  | numberLiteralTooLong
  | variableNameTooLong
  | expressionTooComplex
  deriving DecidableEq, Repr

/-- What a kind of fault has to do with. -/
inductive FaultCategory where
  | syntactic
  | semantic
  | resource
  | file
  deriving DecidableEq, Repr

namespace FaultKind

/-- The message shown to the user, with line breaks for the display. -/
def message : FaultKind → String
  | .badStartOfExpression => "ERROR: Bad\nstart of\nexpression."
  | .badEndStatement => "ERROR: Bad\nend statement."
  | .badContinueStatement => "ERROR: Bad\ncontinue\nstatement."
  | .badBreakStatement => "ERROR: Bad\nbreak statement."
  | .badArgumentType => "ERROR: Bad\nargument type."
  | .missingApostrophe => "ERROR: Missing\napostrophe."
  | .missingQuotationMark => "ERROR: Missing\nquotation mark."
  | .missingBracket => "ERROR: Missing\nbracket."
  | .missingParenthesis => "ERROR: Missing\nparenthesis."
  | .missingComma => "ERROR: Missing\ncomma."
  | .stackHeapCollision => "ERROR: Stack-\nheap collision."
  | .badIndex => "ERROR: Bad\nindex."
  | .missingFile => "ERROR: Missing\nfile."
  | .nameTooLong => "ERROR: Name is\ntoo long."
  | .storageFull => "ERROR: Storage\nis full."
  | .badAmount => "ERROR: Bad\namount."
  | .fileExists => "ERROR: File\nexists."
  | .badDestination => "ERROR: Bad\ndestination."
  | .badOperandType => "ERROR: Bad\noperand type."
  | .divideByZero => "ERROR: Divide\nby zero."
  | .badValue => "ERROR: Bad\nvalue."
  | .notTopLevel => "ERROR: Not\ntop level."
  | .missingValue => "ERROR: Missing\nvalue."
  | .numberLiteralTooLong => "ERROR: Number\nliteral too\nlong."
  | .variableNameTooLong => "ERROR: Variable\nname too long."
  | .expressionTooComplex => "ERROR:\nExpression too\ncomplex."

/-- What a kind of fault has to do with. -/
def category : FaultKind → FaultCategory
  | .badStartOfExpression | .badEndStatement | .badContinueStatement | .badBreakStatement
  | .missingApostrophe | .missingQuotationMark | .missingBracket | .missingParenthesis
  | .missingComma | .notTopLevel | .numberLiteralTooLong | .variableNameTooLong => .syntactic
  | .badArgumentType | .badIndex | .badAmount | .badDestination | .badOperandType
  | .divideByZero | .badValue | .missingValue => .semantic
  | .stackHeapCollision | .storageFull | .nameTooLong | .expressionTooComplex => .resource
  | .missingFile | .fileExists => .file

end FaultKind

/-- The kind of fault that a refused memory operation is. -/
def MemoryError.faultKind : MemoryError → FaultKind
  | .collision => .stackHeapCollision
  | .badIndex => .badIndex
  | .badType => .badArgumentType
  | .dangling => .badValue

/-- The kind of fault that a refused file operation is. -/
def FileError.faultKind : FileError → FaultKind
  | .missingFile => .missingFile
  | .nameTooLong => .nameTooLong
  | .fileExists => .fileExists
  | .storageFull => .storageFull
  | .badIndex => .badIndex
  | .badAmount => .badAmount

/-- Where a fault comes from: the program itself, or an operation that memory or
    the store refused. -/
inductive FaultCause where
  | program (kind : FaultKind)
  | memory (error : MemoryError)
  /-- Memory refused an access through a destination, and nothing is known to have
      kept the string or list that it lies in. -/
  | loose (error : MemoryError)
  | file (error : FileError)
  deriving DecidableEq, Repr

/-- The kind of fault that a cause gives rise to. -/
def FaultCause.kind : FaultCause → FaultKind
  | .program kind => kind
  | .memory error | .loose error => error.faultKind
  | .file error => error.faultKind

/-- A fault and the address of the expression it arose in. -/
structure Fault where
  cause : FaultCause
  address : Address
  deriving DecidableEq, Repr

namespace Fault

/-- The kind of a fault. -/
def kind (fault : Fault) : FaultKind :=
  fault.cause.kind

/-- The message of a fault on one line, with its address. -/
def describe (fault : Fault) : String :=
  fault.kind.message.map (fun character => if character = '\n' then ' ' else character) ++
    " (address " ++ toString fault.address ++ ")"

end Fault

end PocketScript
