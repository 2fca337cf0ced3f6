import PocketScript.Proofs.Flow.Formulas
import PocketScript.Proofs.Number.Digits

/-! # Operator trees

Expressions of number literals and of operators that do not write, as trees, and
the texts for them: with the parentheses that precedence and grouping to the left
call for, and maybe more.
-/

namespace PocketScript

/-- A number literal without an exponent. -/
structure Decimal where
  integer : List UInt8
  /-- The digits behind the point, if there is a point. -/
  fraction? : Option (List UInt8)
  nonempty : integer ≠ []
  digits : ∀ byte ∈ integer ++ fraction?.getD [], Symbol.isDigit byte = true
  short : (integer ++ fraction?.elim [] (0x2e :: ·)).length < Store.numberLiteralLimit

namespace Decimal

/-- The bytes of a literal. -/
def text (decimal : Decimal) : List UInt8 :=
  decimal.integer ++ decimal.fraction?.elim [] (0x2e :: ·)

/-- The number nearest to what the digits mean. -/
def value (decimal : Decimal) : Float32 :=
  (Numeral.mk false decimal.integer (decimal.fraction?.getD []) 0).toFloat32

theorem isDigit_integer (decimal : Decimal) : ∀ byte ∈ decimal.integer, Symbol.isDigit byte = true :=
  fun byte mem => decimal.digits byte (List.mem_append_left _ mem)

theorem isDigit_fraction (decimal : Decimal) : ∀ byte ∈ decimal.fraction?.getD [], Symbol.isDigit byte = true :=
  fun byte mem => decimal.digits byte (List.mem_append_right _ mem)

theorem exists_cons (decimal : Decimal) :
    ∃ first rest, decimal.text = first :: rest ∧ Symbol.isDigit first = true ∧
      (∀ byte ∈ rest, Machine.isNumeric byte = true) ∧ rest.length < Store.numberLiteralLimit - 1 := by
  have whole := decimal.isDigit_integer
  have part := decimal.isDigit_fraction
  obtain ⟨integer, fraction?, nonempty, digits, short⟩ := decimal
  cases integer with
  | nil => exact absurd rfl nonempty
  | cons first rest =>
      refine ⟨first, rest ++ fraction?.elim [] (0x2e :: ·), rfl, whole first (List.mem_cons_self ..), ?_,
        Nat.lt_sub_of_add_lt short⟩
      intro byte mem
      rcases List.mem_append.mp mem with mem | mem
      · exact Machine.isNumeric_of_isDigit (whole byte (List.mem_cons_of_mem _ mem))
      · cases fraction? with
        | none => cases mem
        | some fraction =>
            rcases List.mem_cons.mp mem with rfl | mem
            · rfl
            · exact Machine.isNumeric_of_isDigit (part byte mem)

theorem isDigit_spec : ∀ byte : UInt8, Symbol.isDigit byte = true →
    Numeral.isBlank byte = false ∧ byte ≠ 0x2d ∧ byte ≠ 0x2b :=
  forall_byte (by decide +kernel)

/-- A literal is read as the number that its digits mean. -/
theorem readNumber_text (decimal : Decimal) : readNumber decimal.text = decimal.value := by
  obtain ⟨first, rest, text, digit, -⟩ := decimal.exists_cons
  obtain ⟨blank, minus, plus⟩ := isDigit_spec first digit
  have unsigned : Numeral.splitSign (decimal.text.dropWhile Numeral.isBlank) = (false, decimal.text) := by
    rw [text, List.dropWhile_cons_of_neg (by simp [blank]), Numeral.splitSign, if_neg minus, if_neg plus]
  have split : Numeral.splitDigits decimal.text = (decimal.integer, decimal.fraction?.elim [] (0x2e :: ·)) := by
    refine Numeral.splitDigits_append decimal.isDigit_integer ?_
    cases decimal.fraction? with
    | none => simp
    | some fraction => simp [Symbol.isDigit]
  have fraction : Numeral.splitFraction (decimal.fraction?.elim [] (0x2e :: ·)) =
      (decimal.fraction?.getD [], []) := by
    have part := decimal.isDigit_fraction
    cases found : decimal.fraction? with
    | none => rfl
    | some fraction =>
        rw [found] at part
        have splits : Numeral.splitDigits (fraction ++ []) = (fraction, []) :=
          Numeral.splitDigits_append part (by simp)
        rwa [List.append_nil] at splits
  have spelled : decimal.integer.isEmpty = false := by simpa using decimal.nonempty
  simp [readNumber, Numeral.ofText?, unsigned, split, fraction, spelled, Numeral.readExponent, value]

end Decimal

/-- An operator in front of an operand that does not write. -/
inductive Sign where
  | negate
  | not
  | complement

namespace Sign

def operator : Sign → UnaryOperator
  | negate => .negate
  | not => .not
  | complement => .complement

def byte : Sign → UInt8
  | negate => 0x2d
  | not => 0x21
  | complement => 0x7e

def apply : Sign → Float32 → Float32
  | negate, number => -number
  | not, number => ofTruth (number == 0.0)
  | complement, number => (~~~truncate number).toFloat32

end Sign

/-- An operator between two operands that does not write. -/
inductive Connective where
  | combine (operator : Combination)
  | compare (operator : Comparison)
deriving DecidableEq

namespace Connective

/-- The operators by how tightly they bind, the tightest first. -/
def rows : List (List Connective) :=
  [[combine .multiply, combine .divide, combine .remainder],
    [combine .add, combine .subtract],
    [combine .shiftLeft, combine .shiftRight],
    [compare .greater, compare .less, compare .atLeast, compare .atMost],
    [compare .equal, compare .unequal],
    [combine .bitAnd],
    [combine .bitXor],
    [combine .bitOr],
    [combine .both],
    [combine .exactlyOne],
    [combine .either]]

/-- The row an operator stands in, counted from one. -/
def level (connective : Connective) : Nat :=
  rows.findIdx (connective ∈ ·) + 1

def operator : Connective → BinaryOperator
  | combine operator => .combine operator
  | compare operator => .compare operator

def byte : Connective → UInt8
  | combine .multiply => 0x2a
  | combine .divide => 0x2f
  | combine .remainder => 0x25
  | combine .add => 0x2b
  | combine .subtract => 0x2d
  | combine .shiftLeft => 131
  | combine .shiftRight => 132
  | combine .bitAnd => 0x26
  | combine .bitXor => 0x5e
  | combine .bitOr => 0x7c
  | combine .both => 128
  | combine .exactlyOne => 130
  | combine .either => 129
  | compare .greater => 0x3e
  | compare .less => 0x3c
  | compare .atLeast => 137
  | compare .atMost => 138
  | compare .equal => 135
  | compare .unequal => 136

/-- The evaluator goes by the same rows. -/
theorem precedence_eq (connective : Connective) : connective.operator.precedence = connective.level := by
  cases connective with
  | combine operator => cases operator <;> decide
  | compare operator => cases operator <;> decide

theorem level_lt (connective : Connective) : connective.level < Inner.statementCeiling := by
  cases connective with
  | combine operator => cases operator <;> decide
  | compare operator => cases operator <;> decide

theorem ofByte?_byte (connective : Connective) :
    BinaryOperator.ofByte? connective.byte = some connective.operator := by
  cases connective with
  | combine operator => cases operator <;> rfl
  | compare operator => cases operator <;> rfl

end Connective

/-- An expression of literals and operators that do not write. -/
inductive OperatorTree where
  | literal (decimal : Decimal)
  | unary (sign : Sign) (operand : OperatorTree)
  | binary (connective : Connective) (left right : OperatorTree)

/-- The number of a tree, from the leaves up; none if that divides by zero. -/
def OperatorTree.value? : OperatorTree → Option Float32
  | literal decimal => some decimal.value
  | unary sign operand => operand.value?.map sign.apply
  | binary connective left right =>
    left.value?.bind fun number => right.value?.bind (connective.operator.value? number)

/-- A text for a tree where operators have to bind tighter than a ceiling: in
    parentheses there is no ceiling, the operand of a sign has no operators of its
    own, and to the right of an operator there are only tighter ones. -/
inductive Written : (ceiling : Nat) → OperatorTree → List UInt8 → Prop where
  | literal {ceiling : Nat} (decimal : Decimal) : Written ceiling (.literal decimal) decimal.text
  | parentheses {ceiling : Nat} {tree : OperatorTree} {text : List UInt8}
      (inside : Written Inner.statementCeiling tree text) : Written ceiling tree (0x28 :: (text ++ [0x29]))
  | unary {ceiling : Nat} (sign : Sign) {operand : OperatorTree} {text : List UInt8}
      (behind : Written Inner.operandCeiling operand text) : Written ceiling (.unary sign operand) (sign.byte :: text)
  | binary {ceiling : Nat} (connective : Connective) {left right : OperatorTree} {front back : List UInt8}
      (below : connective.level < ceiling) (before : Written (connective.level + 1) left front)
      (behind : Written connective.level right back) :
      Written ceiling (.binary connective left right) (front ++ connective.byte :: back)

/-- The text of a tree with no more parentheses than it takes. -/
def OperatorTree.text : (ceiling : Nat) → OperatorTree → List UInt8
  | _, literal decimal => decimal.text
  | _, unary sign operand => sign.byte :: operand.text Inner.operandCeiling
  | ceiling, binary connective left right =>
    let text := left.text (connective.level + 1) ++ connective.byte :: right.text connective.level
    if connective.level < ceiling then text else 0x28 :: (text ++ [0x29])

namespace Written

variable {ceiling : Nat} {tree : OperatorTree} {text : List UInt8}

theorem ofTree (ceiling : Nat) (tree : OperatorTree) : Written ceiling tree (tree.text ceiling) := by
  induction tree generalizing ceiling with
  | literal decimal => exact .literal decimal
  | unary sign operand behind => exact .unary sign (behind _)
  | binary connective left right before behind =>
      rw [OperatorTree.text]
      by_cases below : connective.level < ceiling
      · rw [if_pos below]
        exact .binary connective below (before _) (behind _)
      · rw [if_neg below]
        exact .parentheses (.binary connective connective.level_lt (before _) (behind _))

theorem length_pos (written : Written ceiling tree text) : 0 < text.length := by
  cases written with
  | literal decimal =>
      obtain ⟨first, rest, text, -⟩ := decimal.exists_cons
      simp [text]
  | parentheses | unary | binary => simp

theorem plain (written : Written ceiling tree text) : Store.Plain text := by
  induction written with
  | literal decimal =>
      obtain ⟨first, rest, text, digit, all, -⟩ := decimal.exists_cons
      rw [text]
      intro byte mem
      have numeric : Machine.isNumeric byte = true := by
        rcases List.mem_cons.mp mem with rfl | mem
        · exact Machine.isNumeric_of_isDigit digit
        · exact all byte mem
      exact (Machine.isNumeric_spec byte numeric).1
  | parentheses _ inside =>
      intro byte mem
      rcases List.mem_cons.mp mem with rfl | mem
      · rfl
      rcases List.mem_append.mp mem with mem | mem
      · exact inside byte mem
      · obtain rfl := List.mem_singleton.mp mem
        rfl
  | unary sign _ behind =>
      intro byte mem
      rcases List.mem_cons.mp mem with rfl | mem
      · cases sign <;> rfl
      · exact behind byte mem
  | binary connective _ _ _ before behind =>
      intro byte mem
      rcases List.mem_append.mp mem with mem | mem
      · exact before byte mem
      rcases List.mem_cons.mp mem with rfl | mem
      · have spec := BinaryOperator.ofByte?_spec connective.byte (by rw [connective.ofByte?_byte]; rfl)
        simp [Store.endsLine, spec.2.2.2.1, spec.2.2.2.2.1]
      · exact behind byte mem

end Written

end PocketScript
