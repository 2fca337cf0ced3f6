import PocketScript.Proofs.Number.Spelling

/-! # The number a text begins with

A reader of numbers looks for the longest beginning of a text that is a number, and
hands it to a parser. That parser is a parameter here: of one that parses every number
and rounds it correctly it follows that texts are read as their longest numbers, and
that no text is given up that begins with one. The parser in use passes over the digits of
an exponent beyond a hundred thousand or so, which can only be seen in a number of as many
digits.
-/

namespace PocketScript

open Binary32 (Nearest)

/-- The power of ten that an exponent stands for, by the number that its digits are. -/
def Power.exponent (value : List UInt8 → Nat) (power : Power) : Int :=
  if power.sign? = some 0x2d then -value power.digits else value power.digits

namespace Spelling

variable {spelling : Spelling}

def negative (spelling : Spelling) : Bool :=
  spelling.sign? = some 0x2d

/-- The power of ten, one if there is no exponent. -/
def exponent (value : List UInt8 → Nat) (spelling : Spelling) : Int :=
  spelling.power?.elim 0 (Power.exponent value)

/-- The decimal value without its sign. -/
def magnitude (spelling : Spelling) : ℚ :=
  (Numeral.ofDigits spelling.integer + Numeral.ofDigits spelling.fraction / 10 ^ spelling.fraction.length) *
    10 ^ spelling.exponent Numeral.ofDigits

/-- The binary32 number that the decimal value is rounded to. -/
def Rounds (spelling : Spelling) (number : Float32) : Prop :=
  ∃ bits, Nearest spelling.magnitude bits ∧ number = Binary32.ofMagnitude spelling.negative bits

/-- What is spelled, by the number that the digits of an exponent are. -/
def numeral (value : List UInt8 → Nat) (spelling : Spelling) : Numeral :=
  ⟨spelling.negative, spelling.integer, spelling.fraction, spelling.exponent value⟩

theorem magnitude_numeral (spelling : Spelling) :
    (spelling.numeral Numeral.ofDigits).magnitude = spelling.magnitude := by
  have some_power : (10 : ℚ) ^ spelling.fraction.length ≠ 0 := by positivity
  rw [Numeral.magnitude, Numeral.coefficient, Numeral.scale, magnitude, numeral, Numeral.ofDigits_append,
    zpow_sub₀ (by norm_num), zpow_natCast]
  push_cast
  field_simp

theorem Proper.isSpelled (proper : spelling.Proper) (value : List UInt8 → Nat) :
    (spelling.numeral value).IsSpelled := by
  intro byte mem
  rcases List.mem_append.mp mem with before | behind
  · exact proper.integer byte before
  · change byte ∈ spelling.fraction?.getD [] at behind
    cases point : spelling.fraction? with
    | none => simp [point] at behind
    | some digits => exact proper.fraction digits point byte (by simpa [point] using behind)

/-- Whoever evaluates the digits of the exponent exactly rounds correctly. -/
theorem Proper.rounds_numeral (proper : spelling.Proper) :
    spelling.Rounds (spelling.numeral Numeral.ofDigits).toFloat32 :=
  ⟨_, magnitude_numeral spelling ▸ Numeral.nearest_nearestBits (proper.isSpelled _), rfl⟩

/-- Either no digit of the exponent is passed over, or it is large, and larger still with
    the digits that were. -/
theorem exponent_cases (spelling : Spelling) :
    spelling.exponent Numeral.ofExponentDigits = spelling.exponent Numeral.ofDigits ∨
      65536 ≤ spelling.exponent Numeral.ofExponentDigits ∧ 65536 ≤ spelling.exponent Numeral.ofDigits ∨
      spelling.exponent Numeral.ofExponentDigits ≤ -65536 ∧ spelling.exponent Numeral.ofDigits ≤ -65536 := by
  cases same : spelling.power? with
  | none => exact .inl (by simp [exponent, same])
  | some power =>
      simp only [exponent, same, Option.elim_some, Power.exponent]
      rcases Numeral.ofExponentDigits_cases power.digits with same | large
      · exact .inl (by rw [same])
      · right
        split <;> omega

theorem length_digits_le (spelling : Spelling) :
    spelling.integer.length + spelling.fraction.length ≤ spelling.text.length := by
  rw [length_text, fraction]
  cases spelling.fraction? with
  | none =>
      simp only [Option.getD_none, Option.elim_none, List.length_nil]
      omega
  | some digits =>
      simp only [Option.getD_some, Option.elim_some]
      omega

/-- A number that is not too long is rounded correctly though digits of its exponent are
    passed over: what is left of the exponent makes it infinite, or makes it vanish. -/
theorem Proper.nearest_of_short (proper : spelling.Proper) (short : spelling.text.length ≤ 65000) :
    Nearest spelling.magnitude (spelling.numeral Numeral.ofExponentDigits).nearestBits := by
  set read := spelling.numeral Numeral.ofExponentDigits with read_eq
  set whole := spelling.numeral Numeral.ofDigits with whole_eq
  have spelled : whole.IsSpelled := proper.isSpelled _
  have digits := spelling.length_digits_le
  have width : whole.width ≤ spelling.integer.length + spelling.fraction.length := by
    rw [← List.length_append]
    exact (List.dropWhile_sublist _).length_le
  have scale : whole.scale = spelling.exponent Numeral.ofDigits - spelling.fraction.length := rfl
  have read_scale : read.scale = spelling.exponent Numeral.ofExponentDigits - spelling.fraction.length := rfl
  have read_width : read.width = whole.width := rfl
  have read_coefficient : read.coefficient = whole.coefficient := rfl
  rw [← magnitude_numeral spelling, ← whole_eq]
  by_cases none : whole.coefficient = 0
  · rw [Numeral.nearestBits, read_coefficient, if_pos none]
    exact Numeral.nearest_of_zero none
  · rcases spelling.exponent_cases with same | ⟨read_large, large⟩ | ⟨read_small, small⟩
    · have exactly : read = whole := by rw [read_eq, whole_eq, numeral, numeral, same]
      rw [exactly]
      exact Numeral.nearest_nearestBits spelled
    · have read_top : 40 < (read.width : Int) + read.scale := by omega
      rw [Numeral.nearestBits, read_coefficient, if_neg none, if_pos read_top]
      exact Numeral.nearest_of_large spelled none (by omega)
    · have read_top : (read.width : Int) + read.scale < -60 := by omega
      rw [Numeral.nearestBits, read_coefficient, if_neg none, if_neg (by omega), if_pos read_top]
      exact Numeral.nearest_of_small spelled (by omega)

end Spelling

theorem splitSign_eq (text : List UInt8) :
    Numeral.splitSign text = (decide ((takeSign text).1 = some 0x2d), (takeSign text).2) := by
  cases text with
  | nil => rfl
  | cons byte rest =>
      by_cases minus : byte = 0x2d
      · simp [Numeral.splitSign, takeSign, isSign, minus]
      · by_cases plus : byte = 0x2b
        · simp [Numeral.splitSign, takeSign, isSign, plus]
        · simp [Numeral.splitSign, takeSign, isSign, minus, plus]

theorem splitFraction_eq (text : List UInt8) :
    Numeral.splitFraction text = ((takeFraction text).1.getD [], (takeFraction text).2) := by
  cases text with
  | nil => rfl
  | cons byte rest =>
      by_cases point : byte = 0x2e
      · simp [Numeral.splitFraction, takeFraction, isPoint, point]
      · simp [Numeral.splitFraction, takeFraction, isPoint, point]

theorem readExponent_eq (text : List UInt8) :
    Numeral.readExponent text = (takePower text).elim 0 (Power.exponent Numeral.ofExponentDigits) := by
  cases text with
  | nil => rfl
  | cons byte rest =>
      by_cases mark : byte = 0x65 ∨ byte = 0x45
      · have marks : isMark byte = true := by simpa [isMark] using mark
        by_cases empty : (Numeral.splitDigits (takeSign rest).2).1 = []
        · simp [Numeral.readExponent, takePower, mark, marks, splitSign_eq, empty, Numeral.ofExponentDigits]
        · simp [Numeral.readExponent, takePower, mark, marks, splitSign_eq, empty, Power.exponent]
      · have marks : isMark byte = false := by simpa [isMark] using mark
        simp [Numeral.readExponent, takePower, mark, marks]

/-- A numeral is read off the parts that a scan finds behind the blanks. -/
theorem ofText?_eq (text : List UInt8) : Numeral.ofText? text =
    (scan (text.dropWhile Numeral.isBlank)).map (Spelling.numeral Numeral.ofExponentDigits) := by
  simp only [Numeral.ofText?, scan, splitSign_eq, splitFraction_eq, readExponent_eq]
  split
  · rfl
  · rfl

/-- A parser of texts as binary32 numbers. -/
abbrev Parser :=
  List UInt8 → Option Float32

/-- The parser accepts a number and rounds it correctly. -/
def Parser.Parses (parser : Parser) (spelling : Spelling) : Prop :=
  ∃ number, parser spelling.text = some number ∧ spelling.Rounds number

/-- Read the number that a text begins with, with a parser that is given the longest
    number behind the blanks. What it does not parse counts as zero. -/
def readNumberBy (parser : Parser) (text : List UInt8) : Float32 :=
  match scan (text.dropWhile Numeral.isBlank) with
  | some spelling => (parser spelling.text).getD 0.0
  | none => 0.0

/-- The parser in use. -/
def readParser : Parser := fun text =>
  (Numeral.ofText? text).map Numeral.toFloat32

/-- A parser that evaluates all digits of an exponent. -/
def exactParser : Parser := fun text =>
  (scan text).map fun spelling => (spelling.numeral Numeral.ofDigits).toFloat32

theorem isBlank_spec : ∀ byte : UInt8,
    isSign byte = true ∨ Symbol.isDigit byte = true ∨ isPoint byte = true → Numeral.isBlank byte = false :=
  forall_byte (by decide +kernel)

section Parsing

variable {spelling : Spelling} {text part : List UInt8} {parser : Parser}

theorem ascii_spec : ∀ byte : UInt8,
    isSign byte = true ∨ Symbol.isDigit byte = true ∨ isPoint byte = true ∨ isMark byte = true → byte < 0x80 :=
  forall_byte (by decide +kernel)

theorem Spelling.Proper.ascii (proper : spelling.Proper) : ∀ byte ∈ spelling.text, byte < 0x80 := by
  have sign {sign? : Option UInt8} (signs : ∀ sign ∈ sign?, isSign sign = true) : ∀ byte ∈ sign?.toList, byte < 0x80 :=
    fun byte mem => ascii_spec byte (.inl (signs byte (Option.mem_toList.mp mem)))
  have digits {text : List UInt8} (all : ∀ byte ∈ text, Symbol.isDigit byte = true) : ∀ byte ∈ text, byte < 0x80 :=
    fun byte mem => ascii_spec byte (.inr (.inl (all byte mem)))
  have power : ∀ byte ∈ Spelling.powerText spelling.power?, byte < 0x80 := by
    cases same : spelling.power? with
    | none => exact nofun
    | some power =>
        obtain ⟨mark, signs, -, all⟩ := proper.power power same
        have first : power.mark < 0x80 := ascii_spec _ (.inr (.inr (.inr mark)))
        exact List.forall_mem_cons.mpr ⟨first, List.forall_mem_append.mpr ⟨sign signs, digits all⟩⟩
  have fraction : ∀ byte ∈ Spelling.fractionText spelling.fraction? (Spelling.powerText spelling.power?),
      byte < 0x80 := by
    cases same : spelling.fraction? with
    | none => exact power
    | some fraction =>
        have behind := List.forall_mem_append.mpr ⟨digits (proper.fraction fraction same), power⟩
        exact List.forall_mem_cons.mpr ⟨by decide, behind⟩
  exact List.forall_mem_append.mpr ⟨sign proper.sign, List.forall_mem_append.mpr ⟨digits proper.integer, fraction⟩⟩

/-- The text of a number does not start with a blank. -/
theorem Spelling.Proper.dropWhile_isBlank (proper : spelling.Proper) :
    spelling.text.dropWhile Numeral.isBlank = spelling.text := by
  have starts : ∀ byte ∈ spelling.text.head?, Numeral.isBlank byte = false := by
    obtain ⟨sign?, integer, fraction?, power?⟩ := spelling
    intro byte first
    cases sign? with
    | some sign =>
        obtain rfl := Option.some.inj first
        exact isBlank_spec sign (.inl (proper.sign sign rfl))
    | none =>
        cases integer with
        | cons digit digits =>
            obtain rfl := Option.some.inj first
            exact isBlank_spec digit (.inr (.inl (proper.integer digit List.mem_cons_self)))
        | nil =>
            cases fraction? with
            | none => exact absurd rfl (proper.nonempty.resolve_left fun absurd => absurd rfl)
            | some digits =>
                obtain rfl := Option.some.inj first
                exact isBlank_spec 0x2e (.inr (.inr rfl))
  cases same : spelling.text with
  | nil => rfl
  | cons byte rest => exact List.dropWhile_cons_of_neg (by simp [starts byte (by rw [same]; rfl)])

/-- Reading is with the parser in use. -/
theorem readNumber_eq (text : List UInt8) : readNumber text = readNumberBy readParser text := by
  rw [readNumber, readNumberBy, ofText?_eq]
  cases found : scan (text.dropWhile Numeral.isBlank) with
  | none => rfl
  | some spelling =>
      obtain ⟨proper, -⟩ := scan_sound found
      simp [readParser, ofText?_eq, proper.dropWhile_isBlank, scan_text proper]

theorem exactParser_parses (proper : spelling.Proper) : exactParser.Parses spelling :=
  ⟨_, by rw [exactParser, scan_text proper, Option.map_some], proper.rounds_numeral⟩

/-- The parser in use parses all numbers that are not too long. -/
theorem readParser_parses (proper : spelling.Proper) (short : spelling.text.length ≤ 65000) :
    readParser.Parses spelling := by
  refine ⟨(spelling.numeral Numeral.ofExponentDigits).toFloat32, ?_, _, proper.nearest_of_short short, rfl⟩
  rw [readParser, ofText?_eq, proper.dropWhile_isBlank, scan_text proper, Option.map_some, Option.map_some]

/-- If the longest number at the beginning is parsed, then the text is read as that number. -/
theorem readNumberBy_of_parses (longest : IsLongest numbers spelling.text (text.dropWhile Numeral.isBlank))
    (proper : spelling.Proper) (parses : parser.Parses spelling) :
    parser spelling.text = some (readNumberBy parser text) ∧ spelling.Rounds (readNumberBy parser text) := by
  obtain ⟨number, parsed, rounds⟩ := parses
  have reads : readNumberBy parser text = number := by
    simp only [readNumberBy, longest.scan_eq proper, parsed, Option.getD_some]
  rw [reads]
  exact ⟨parsed, rounds⟩

/-- A text that begins with no number is zero. -/
theorem readNumberBy_of_none (parser : Parser)
    (none : ∀ part, ¬ IsLongest numbers part (text.dropWhile Numeral.isBlank)) :
    readNumberBy parser text = 0.0 := by
  rw [readNumberBy]
  cases found : scan (text.dropWhile Numeral.isBlank) with
  | none => rfl
  | some spelling => exact absurd (isLongest_of_scan found) (none _)

/-- What a text that is a number is read as. -/
def Parser.Reads (parser : Parser) (part : List UInt8) (number : Float32) : Prop :=
  ∃ spelling : Spelling, spelling.Proper ∧ spelling.text = part ∧ parser part = some number ∧
    spelling.Rounds number

/-- A parser that parses all numbers correctly is given the longest number that a text begins
    with behind its blanks, as ASCII text, and what it is rounded to is what the text is read
    as. A text that begins with no number is read as zero. This is how texts are read, with a
    parser that parses all numbers of up to 65000 bytes. -/
theorem readNumber_longest (parser : Parser)
    (parses : ∀ spelling : Spelling, spelling.Proper → parser.Parses spelling) (text : List UInt8) :
    let rest := text.dropWhile Numeral.isBlank
    (∀ part, IsLongest numbers part rest →
      (∀ byte ∈ part, byte < 0x80) ∧ parser.Reads part (readNumberBy parser text)) ∧
    ((∀ part, ¬ IsLongest numbers part rest) → readNumberBy parser text = 0.0) ∧
    readNumber text = readNumberBy readParser text ∧
    (∀ part, IsLongest numbers part rest → part.length ≤ 65000 → readParser.Reads part (readNumber text)) ∧
    ((∀ part, ¬ IsLongest numbers part rest) → readNumber text = 0.0) := by
  intro rest
  refine ⟨fun part longest => ?_, readNumberBy_of_none parser, readNumber_eq text, fun part longest short => ?_,
    fun none => ?_⟩
  · obtain ⟨spelling, proper, rfl⟩ := mem_numbers.mp longest.mem
    exact ⟨proper.ascii, spelling, proper, rfl, readNumberBy_of_parses longest proper (parses spelling proper)⟩
  · obtain ⟨spelling, proper, rfl⟩ := mem_numbers.mp longest.mem
    rw [readNumber_eq]
    exact ⟨spelling, proper, rfl, readNumberBy_of_parses longest proper (readParser_parses proper short)⟩
  · rw [readNumber_eq]
    exact readNumberBy_of_none readParser none

/-- In `  2e+x` a mark and a sign without digits are left out. -/
theorem readNumber_longest_digitless :
    let text : List UInt8 := [0x20, 0x20, 0x32, 0x65, 0x2b, 0x78]
    (∀ spelling : Spelling, spelling.Proper → exactParser.Parses spelling) ∧
      IsLongest numbers [0x32] (text.dropWhile Numeral.isBlank) ∧
      exactParser.Reads [0x32] (readNumberBy exactParser text) := by
  intro text
  have scanned : scan (text.dropWhile Numeral.isBlank) = some ⟨none, [0x32], none, none⟩ := by decide
  have longest : IsLongest numbers [0x32] (text.dropWhile Numeral.isBlank) := isLongest_of_scan scanned
  have parses (spelling : Spelling) (proper : spelling.Proper) := exactParser_parses proper
  exact ⟨parses, longest, ((readNumber_longest exactParser parses text).1 [0x32] longest).2⟩

end Parsing

end PocketScript
