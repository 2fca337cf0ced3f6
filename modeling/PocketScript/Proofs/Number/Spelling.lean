import Mathlib.Computability.Language
import PocketScript.Proofs.Bytes
import PocketScript.Proofs.Number.Digits

/-! # Spelled numbers

The texts of numbers are the language of `[+-]?([0-9]+(\.[0-9]*)?|\.[0-9]+)([eE][+-]?[0-9]+)?`.
A scan from left to right takes every part as long as it can, and gives an exponent up
that has no digits. What it takes is the longest beginning in the language, since no
part can go on with a byte that another part starts with.
-/

namespace PocketScript

open Computability

/-- A plus or a minus sign. -/
def isSign (byte : UInt8) : Bool :=
  byte == 0x2b || byte == 0x2d

/-- What an exponent starts with. -/
def isMark (byte : UInt8) : Bool :=
  byte == 0x65 || byte == 0x45

/-- A decimal point. -/
def isPoint (byte : UInt8) : Bool :=
  byte == 0x2e

/-- The texts of one byte of some kind. -/
def oneOf (kind : UInt8 → Bool) : Language UInt8 :=
  {text | ∃ byte, kind byte = true ∧ text = [byte]}

/-- The texts of a language, and the empty one. -/
def optional (language : Language UInt8) : Language UInt8 :=
  1 + language

/-- One digit or more. -/
def someDigits : Language UInt8 :=
  oneOf Symbol.isDigit * (oneOf Symbol.isDigit)∗

/-- The texts of numbers. -/
def numbers : Language UInt8 :=
  optional (oneOf isSign) *
    (someDigits * optional (oneOf isPoint * (oneOf Symbol.isDigit)∗) + oneOf isPoint * someDigits) *
    optional (oneOf isMark * optional (oneOf isSign) * someDigits)

section Languages

variable {text : List UInt8} {kind : UInt8 → Bool} {language : Language UInt8}

theorem mem_kstar_oneOf : text ∈ (oneOf kind)∗ ↔ ∀ byte ∈ text, kind byte = true := by
  rw [Language.mem_kstar]
  constructor
  · rintro ⟨parts, rfl, each⟩ byte mem
    obtain ⟨part, part_mem, mem⟩ := List.mem_flatten.mp mem
    obtain ⟨other, holds, rfl⟩ := each part part_mem
    rwa [List.mem_singleton.mp mem]
  · intro all
    refine ⟨text.map fun byte => [byte], by simp [← List.flatMap_def], fun part mem => ?_⟩
    obtain ⟨byte, inside, rfl⟩ := List.mem_map.mp mem
    exact ⟨byte, all byte inside, rfl⟩

theorem mem_oneOf_mul : text ∈ oneOf kind * language ↔
    ∃ byte rest, kind byte = true ∧ rest ∈ language ∧ text = byte :: rest := by
  rw [Language.mem_mul]
  constructor
  · rintro ⟨_, ⟨byte, holds, rfl⟩, rest, mem, rfl⟩
    exact ⟨byte, rest, holds, mem, rfl⟩
  · rintro ⟨byte, rest, holds, mem, rfl⟩
    exact ⟨[byte], ⟨byte, holds, rfl⟩, rest, mem, rfl⟩

theorem mem_someDigits : text ∈ someDigits ↔ text ≠ [] ∧ ∀ byte ∈ text, Symbol.isDigit byte = true := by
  rw [someDigits, mem_oneOf_mul]
  constructor
  · rintro ⟨byte, rest, digit, digits, rfl⟩
    exact ⟨List.cons_ne_nil _ _, List.forall_mem_cons.mpr ⟨digit, mem_kstar_oneOf.mp digits⟩⟩
  · rintro ⟨nonempty, all⟩
    cases text with
    | nil => exact absurd rfl nonempty
    | cons byte rest =>
        obtain ⟨digit, digits⟩ := List.forall_mem_cons.mp all
        exact ⟨byte, rest, digit, mem_kstar_oneOf.mpr digits, rfl⟩

theorem mem_optional : text ∈ optional language ↔ text = [] ∨ text ∈ language := by
  rw [optional, Language.mem_add, Language.mem_one]

theorem mem_optional_sign : text ∈ optional (oneOf isSign) ↔
    ∃ sign? : Option UInt8, (∀ sign ∈ sign?, isSign sign = true) ∧ text = sign?.toList := by
  rw [mem_optional]
  constructor
  · rintro (rfl | ⟨byte, holds, rfl⟩)
    · exact ⟨none, by simp, rfl⟩
    · exact ⟨some byte, by simpa using holds, rfl⟩
  · rintro ⟨_ | sign, holds, rfl⟩
    · exact .inl rfl
    · exact .inr ⟨sign, holds sign rfl, rfl⟩

end Languages

/-- An exponent: its mark, its sign and its digits. -/
structure Power where
  mark : UInt8
  sign? : Option UInt8
  digits : List UInt8
  deriving DecidableEq

/-- The parts of the text of a number: the sign, the digits before the point, those behind
    it if there is a point, and the exponent. -/
structure Spelling where
  sign? : Option UInt8
  integer : List UInt8
  fraction? : Option (List UInt8)
  power? : Option Power
  deriving DecidableEq

/-- The text of an exponent. -/
def Power.text (power : Power) : List UInt8 :=
  power.mark :: (power.sign?.toList ++ power.digits)

/-- What the language says of an exponent. -/
structure Power.Proper (power : Power) : Prop where
  mark : isMark power.mark = true
  sign : ∀ sign ∈ power.sign?, isSign sign = true
  nonempty : power.digits ≠ []
  digits : ∀ byte ∈ power.digits, Symbol.isDigit byte = true

namespace Spelling

/-- The digits behind the point. -/
def fraction (spelling : Spelling) : List UInt8 :=
  spelling.fraction?.getD []

/-- The text after the digits before the point. -/
def fractionText (fraction? : Option (List UInt8)) (rest : List UInt8) : List UInt8 :=
  fraction?.elim rest (0x2e :: · ++ rest)

theorem fractionText_append (fraction? : Option (List UInt8)) (rest tail : List UInt8) :
    fractionText fraction? rest ++ tail = fractionText fraction? (rest ++ tail) := by
  cases fraction? <;> simp [fractionText]

/-- The text from the exponent on. -/
def powerText (power? : Option Power) : List UInt8 :=
  power?.elim [] Power.text

/-- The text of a number. -/
def text (spelling : Spelling) : List UInt8 :=
  spelling.sign?.toList ++ (spelling.integer ++ fractionText spelling.fraction? (powerText spelling.power?))

/-- What the language says of a number. -/
structure Proper (spelling : Spelling) : Prop where
  sign : ∀ sign ∈ spelling.sign?, isSign sign = true
  integer : ∀ byte ∈ spelling.integer, Symbol.isDigit byte = true
  fraction : ∀ digits ∈ spelling.fraction?, ∀ byte ∈ digits, Symbol.isDigit byte = true
  nonempty : spelling.integer ≠ [] ∨ spelling.fraction ≠ []
  power : ∀ power ∈ spelling.power?, power.Proper

end Spelling

variable {text rest tail : List UInt8}

theorem mem_power : text ∈ optional (oneOf isMark * optional (oneOf isSign) * someDigits) ↔
    ∃ power? : Option Power, (∀ power ∈ power?, power.Proper) ∧ text = Spelling.powerText power? := by
  rw [mem_optional, mul_assoc, mem_oneOf_mul]
  constructor
  · rintro (rfl | ⟨mark, rest, marks, mem, rfl⟩)
    · exact ⟨none, by simp, rfl⟩
    · obtain ⟨sign, sign_mem, digits, digits_mem, rfl⟩ := Language.mem_mul.mp mem
      obtain ⟨sign?, signs, rfl⟩ := mem_optional_sign.mp sign_mem
      obtain ⟨nonempty, all⟩ := mem_someDigits.mp digits_mem
      refine ⟨some ⟨mark, sign?, digits⟩, fun power same => ?_, rfl⟩
      obtain rfl := Option.some.inj same
      exact ⟨marks, signs, nonempty, all⟩
  · rintro ⟨_ | power, proper, rfl⟩
    · exact .inl rfl
    · obtain ⟨marks, signs, nonempty, all⟩ := proper power rfl
      exact .inr ⟨power.mark, _, marks, Language.mem_mul.mpr ⟨_, mem_optional_sign.mpr ⟨power.sign?, signs, rfl⟩, _,
        mem_someDigits.mpr ⟨nonempty, all⟩, rfl⟩, rfl⟩

theorem mem_mantissa :
    text ∈ someDigits * optional (oneOf isPoint * (oneOf Symbol.isDigit)∗) + oneOf isPoint * someDigits ↔
      ∃ (integer : List UInt8) (fraction? : Option (List UInt8)), (∀ byte ∈ integer, Symbol.isDigit byte = true) ∧
        (∀ digits ∈ fraction?, ∀ byte ∈ digits, Symbol.isDigit byte = true) ∧
        (integer ≠ [] ∨ fraction?.getD [] ≠ []) ∧ text = integer ++ Spelling.fractionText fraction? [] := by
  have point (byte : UInt8) : isPoint byte = true ↔ byte = 0x2e := by simp [isPoint]
  rw [Language.mem_add, Language.mem_mul, mem_oneOf_mul]
  constructor
  · rintro (⟨integer, integer_mem, rest, rest_mem, rfl⟩ | ⟨byte, fraction, is_point, fraction_mem, rfl⟩)
    · obtain ⟨nonempty, all⟩ := mem_someDigits.mp integer_mem
      rcases mem_optional.mp rest_mem with rfl | with_point
      · exact ⟨integer, none, all, by simp, .inl nonempty, rfl⟩
      · obtain ⟨byte, fraction, is_point, fraction_mem, rfl⟩ := mem_oneOf_mul.mp with_point
        obtain rfl := (point byte).mp is_point
        refine ⟨integer, some fraction, all, fun digits same => ?_, .inl nonempty, by simp [Spelling.fractionText]⟩
        obtain rfl := Option.some.inj same
        exact mem_kstar_oneOf.mp fraction_mem
    · obtain ⟨nonempty, all⟩ := mem_someDigits.mp fraction_mem
      obtain rfl := (point byte).mp is_point
      refine ⟨[], some fraction, by simp, fun digits same => ?_, .inr nonempty, by simp [Spelling.fractionText]⟩
      obtain rfl := Option.some.inj same
      exact all
  · rintro ⟨integer, fraction?, all, all', nonempty, rfl⟩
    cases fraction? with
    | none =>
        have nonempty : integer ≠ [] := nonempty.resolve_right fun absurd => absurd rfl
        exact .inl ⟨integer, mem_someDigits.mpr ⟨nonempty, all⟩, [], mem_optional.mpr (.inl rfl), rfl⟩
    | some fraction =>
        have digits := all' fraction rfl
        by_cases empty : integer = []
        · obtain rfl := empty
          have nonempty : fraction ≠ [] := nonempty.resolve_left fun absurd => absurd rfl
          exact .inr ⟨0x2e, fraction, rfl, mem_someDigits.mpr ⟨nonempty, digits⟩, by simp [Spelling.fractionText]⟩
        · refine .inl ⟨integer, mem_someDigits.mpr ⟨empty, all⟩, 0x2e :: fraction, mem_optional.mpr (.inr ?_),
            by simp [Spelling.fractionText]⟩
          exact mem_oneOf_mul.mpr ⟨0x2e, fraction, rfl, mem_kstar_oneOf.mpr digits, rfl⟩

/-- The texts of the language are those of proper parts. -/
theorem mem_numbers : text ∈ numbers ↔ ∃ spelling : Spelling, spelling.Proper ∧ spelling.text = text := by
  rw [numbers, Language.mem_mul]
  constructor
  · rintro ⟨_, mem, power, power_mem, rfl⟩
    obtain ⟨sign, sign_mem, mantissa, mantissa_mem, rfl⟩ := Language.mem_mul.mp mem
    obtain ⟨sign?, signs, rfl⟩ := mem_optional_sign.mp sign_mem
    obtain ⟨integer, fraction?, all, all', nonempty, rfl⟩ := mem_mantissa.mp mantissa_mem
    obtain ⟨power?, proper, rfl⟩ := mem_power.mp power_mem
    refine ⟨⟨sign?, integer, fraction?, power?⟩, ⟨signs, all, all', nonempty, proper⟩, ?_⟩
    simp only [Spelling.text, List.append_assoc, Spelling.fractionText_append, List.nil_append]
  · rintro ⟨spelling, proper, rfl⟩
    refine ⟨_, Language.mem_mul.mpr ⟨_, mem_optional_sign.mpr ⟨spelling.sign?, proper.sign, rfl⟩, _,
      mem_mantissa.mpr ⟨spelling.integer, spelling.fraction?, proper.integer, proper.fraction, proper.nonempty, rfl⟩, rfl⟩,
      _, mem_power.mpr ⟨spelling.power?, proper.power, rfl⟩, ?_⟩
    simp only [Spelling.text, List.append_assoc, Spelling.fractionText_append, List.nil_append]

/-- The sign that a text starts with, and the rest. -/
def takeSign : List UInt8 → Option UInt8 × List UInt8
  | byte :: rest => if isSign byte then (some byte, rest) else (none, byte :: rest)
  | [] => (none, [])

/-- The digits behind a point that a text starts with, and the rest. -/
def takeFraction : List UInt8 → Option (List UInt8) × List UInt8
  | byte :: rest =>
    if isPoint byte then (some (Numeral.splitDigits rest).1, (Numeral.splitDigits rest).2)
    else (none, byte :: rest)
  | [] => (none, [])

/-- The exponent that a text starts with. One without digits is none. -/
def takePower : List UInt8 → Option Power
  | byte :: rest =>
    if isMark byte then
      let digits := (Numeral.splitDigits (takeSign rest).2).1
      if digits.isEmpty then none else some ⟨byte, (takeSign rest).1, digits⟩
    else none
  | [] => none

/-- The parts of the number that a text starts with, each taken as long as it can be. -/
def scan (text : List UInt8) : Option Spelling :=
  let (sign?, rest) := takeSign text
  let (integer, rest) := Numeral.splitDigits rest
  let (fraction?, rest) := takeFraction rest
  if integer.isEmpty && (fraction?.getD []).isEmpty then none
  else some ⟨sign?, integer, fraction?, takePower rest⟩

theorem takeSign_spec (text : List UInt8) :
    (takeSign text).1.toList ++ (takeSign text).2 = text ∧ ∀ sign ∈ (takeSign text).1, isSign sign = true := by
  cases text with
  | nil => simp [takeSign]
  | cons byte rest =>
      by_cases sign : isSign byte = true
      · simp [takeSign, sign]
      · simp [takeSign, sign]

theorem splitDigits_spec (text : List UInt8) :
    (Numeral.splitDigits text).1 ++ (Numeral.splitDigits text).2 = text ∧
      ∀ byte ∈ (Numeral.splitDigits text).1, Symbol.isDigit byte = true :=
  ⟨List.takeWhile_append_dropWhile, fun _ mem => List.mem_takeWhile_imp mem⟩

theorem takeFraction_spec (text : List UInt8) :
    Spelling.fractionText (takeFraction text).1 (takeFraction text).2 = text ∧
      ∀ digits ∈ (takeFraction text).1, ∀ byte ∈ digits, Symbol.isDigit byte = true := by
  cases text with
  | nil => simp [takeFraction, Spelling.fractionText]
  | cons byte rest =>
      by_cases point : isPoint byte = true
      · obtain rfl : byte = 0x2e := by simpa [isPoint] using point
        obtain ⟨whole, digits⟩ := splitDigits_spec rest
        simp only [takeFraction, point, if_true, Spelling.fractionText, Option.elim_some, List.cons_append, whole,
          true_and]
        intro taken same
        obtain rfl := Option.some.inj same
        exact digits
      · simp [takeFraction, point, Spelling.fractionText]

theorem takePower_spec (text : List UInt8) :
    Spelling.powerText (takePower text) <+: text ∧ ∀ power ∈ takePower text, power.Proper := by
  have nothing : Spelling.powerText none <+: text ∧ ∀ power ∈ (none : Option Power), power.Proper :=
    ⟨List.nil_prefix, by simp⟩
  cases text with
  | nil => exact nothing
  | cons byte rest =>
      by_cases mark : isMark byte = true
      · obtain ⟨signed, signs⟩ := takeSign_spec rest
        obtain ⟨whole, digits⟩ := splitDigits_spec (takeSign rest).2
        by_cases empty : (Numeral.splitDigits (takeSign rest).2).1 = []
        · simpa [takePower, mark, empty] using nothing
        · have taken : takePower (byte :: rest) =
              some ⟨byte, (takeSign rest).1, (Numeral.splitDigits (takeSign rest).2).1⟩ := by
            simp [takePower, mark, empty]
          rw [taken]
          refine ⟨⟨(Numeral.splitDigits (takeSign rest).2).2, ?_⟩, fun power same => ?_⟩
          · simp only [Spelling.powerText, Option.elim_some, Power.text, List.cons_append, List.append_assoc, whole,
              signed]
          · obtain rfl := Option.some.inj same
            exact ⟨mark, signs, empty, digits⟩
      · simpa [takePower, mark] using nothing

/-- What a scan finds is a number that the text starts with. -/
theorem scan_sound {spelling : Spelling} (found : scan text = some spelling) :
    spelling.Proper ∧ spelling.text <+: text := by
  obtain ⟨signed, signs⟩ := takeSign_spec text
  obtain ⟨whole, digits⟩ := splitDigits_spec (takeSign text).2
  obtain ⟨pointed, digits'⟩ := takeFraction_spec (Numeral.splitDigits (takeSign text).2).2
  obtain ⟨⟨last, powered⟩, proper⟩ := takePower_spec (takeFraction (Numeral.splitDigits (takeSign text).2).2).2
  simp only [scan] at found
  split at found
  · cases found
  · next spelled =>
    obtain rfl := Option.some.inj found
    have nonempty : (Numeral.splitDigits (takeSign text).2).1 ≠ [] ∨
        (takeFraction (Numeral.splitDigits (takeSign text).2).2).1.getD [] ≠ [] := by
      simpa [imp_iff_not_or] using spelled
    refine ⟨⟨signs, digits, digits', nonempty, proper⟩, last, ?_⟩
    simp only [Spelling.text, List.append_assoc, Spelling.fractionText_append, powered, pointed, whole, signed]

variable {spelling : Spelling} {power : Power} {digits : List UInt8}

theorem isSign_spec : ∀ byte : UInt8, Symbol.isDigit byte = true ∨ isPoint byte = true → isSign byte = false :=
  forall_byte (by decide +kernel)

theorem isMark_spec : ∀ byte : UInt8, isMark byte = true → Symbol.isDigit byte = false ∧ isPoint byte = false :=
  forall_byte (by decide +kernel)

theorem takeSign_append {sign? : Option UInt8} (signs : ∀ sign ∈ sign?, isSign sign = true)
    (stops : ∀ byte ∈ rest.head?, isSign byte = false) : takeSign (sign?.toList ++ rest) = (sign?, rest) := by
  cases sign? with
  | some sign => simp [takeSign, signs sign rfl]
  | none =>
      cases rest with
      | nil => rfl
      | cons byte rest => simp [takeSign, stops byte rfl]

/-- Digits go on with those of the text behind them. -/
theorem splitDigits_extend (all : ∀ byte ∈ digits, Symbol.isDigit byte = true) (tail : List UInt8) :
    Numeral.splitDigits (digits ++ tail) =
      (digits ++ (Numeral.splitDigits tail).1, (Numeral.splitDigits tail).2) := by
  simp only [Numeral.splitDigits, List.takeWhile_append_of_pos all, List.dropWhile_append_of_pos all]

theorem takeFraction_of_no_point (stops : ∀ byte ∈ rest.head?, isPoint byte = false) :
    takeFraction rest = (none, rest) := by
  cases rest with
  | nil => rfl
  | cons byte rest => simp [takeFraction, stops byte rfl]

/-- Digits that are there do not start with a sign. -/
theorem head_not_sign (all : ∀ byte ∈ digits, Symbol.isDigit byte = true)
    (stops : digits = [] → ∀ byte ∈ rest.head?, isPoint byte = true) :
    ∀ byte ∈ (digits ++ rest).head?, isSign byte = false := by
  cases digits with
  | nil => exact fun byte first => isSign_spec byte (.inr (stops rfl byte first))
  | cons digit digits =>
      intro byte first
      obtain rfl := Option.some.inj first
      exact isSign_spec digit (.inl (all digit List.mem_cons_self))

theorem takePower_append (proper : power.Proper) (tail : List UInt8) :
    takePower (power.text ++ tail) = some { power with digits := power.digits ++ (Numeral.splitDigits tail).1 } := by
  obtain ⟨mark, signs, nonempty, all⟩ := proper
  have unsigned : takeSign (power.sign?.toList ++ (power.digits ++ tail)) = (power.sign?, power.digits ++ tail) :=
    takeSign_append signs (head_not_sign all fun empty => absurd empty nonempty)
  have more : (power.digits ++ (Numeral.splitDigits tail).1).isEmpty = false := by simp [nonempty]
  simp [Power.text, takePower, mark, unsigned, splitDigits_extend all, more]

/-- Digits before a point or the exponent end there. -/
theorem splitDigits_fractionText (fraction? : Option (List UInt8))
    (all : ∀ byte ∈ digits, Symbol.isDigit byte = true)
    (stops : ∀ byte ∈ rest.head?, Symbol.isDigit byte = false) :
    Numeral.splitDigits (digits ++ Spelling.fractionText fraction? rest) =
      (digits, Spelling.fractionText fraction? rest) := by
  refine Numeral.splitDigits_append all ?_
  cases fraction? with
  | none => exact stops
  | some fraction =>
      intro byte first
      obtain rfl := Option.some.inj first
      rfl

theorem takeFraction_append {fraction? : Option (List UInt8)}
    (all : ∀ digits ∈ fraction?, ∀ byte ∈ digits, Symbol.isDigit byte = true)
    (stops : ∀ byte ∈ rest.head?, Symbol.isDigit byte = false ∧ isPoint byte = false) :
    takeFraction (Spelling.fractionText fraction? rest) = (fraction?, rest) := by
  cases fraction? with
  | none => exact takeFraction_of_no_point fun byte first => (stops byte first).2
  | some fraction =>
      have split := Numeral.splitDigits_append (all fraction rfl) fun byte first => (stops byte first).1
      change (some (Numeral.splitDigits (fraction ++ rest)).1, (Numeral.splitDigits (fraction ++ rest)).2) = _
      rw [split]

/-- A number without digits before the point starts with the point. -/
theorem Spelling.Proper.starts (proper : spelling.Proper) (rest : List UInt8) (empty : spelling.integer = []) :
    ∀ byte ∈ (Spelling.fractionText spelling.fraction? rest).head?, isPoint byte = true := by
  have some_digit := proper.nonempty.resolve_left fun nonempty => nonempty empty
  cases point : spelling.fraction? with
  | none =>
      rw [Spelling.fraction, point] at some_digit
      exact absurd rfl some_digit
  | some fraction =>
      intro byte first
      obtain rfl := Option.some.inj first
      rfl

theorem text_append (spelling : Spelling) (tail : List UInt8) : spelling.text ++ tail = spelling.sign?.toList ++
    (spelling.integer ++
      Spelling.fractionText spelling.fraction? (Spelling.powerText spelling.power? ++ tail)) := by
  simp only [Spelling.text, List.append_assoc, Spelling.fractionText_append]

/-- The sign and the digits before the point. -/
theorem scan_eq (proper : spelling.Proper) {first after : List UInt8}
    (split : Numeral.splitDigits (spelling.integer ++ after) = (first, rest))
    (starts : spelling.integer = [] → ∀ byte ∈ after.head?, isPoint byte = true)
    (spelled : first ≠ [] ∨ (takeFraction rest).1.getD [] ≠ []) :
    scan (spelling.sign?.toList ++ (spelling.integer ++ after)) =
      some ⟨spelling.sign?, first, (takeFraction rest).1, takePower (takeFraction rest).2⟩ := by
  have nonempty : (first.isEmpty && ((takeFraction rest).1.getD []).isEmpty) = false := by
    rcases spelled with some_digit | some_digit <;> simp [some_digit]
  simp only [scan, takeSign_append proper.sign (head_not_sign proper.integer starts), split, nonempty,
    Bool.false_eq_true, if_false]

/-- A number with an exponent goes on with digits of the exponent. -/
theorem scan_append_power (proper : spelling.Proper) (same : spelling.power? = some power) (tail : List UInt8) :
    scan (spelling.text ++ tail) = some { spelling with
      power? := some { power with digits := power.digits ++ (Numeral.splitDigits tail).1 } } := by
  have marked : ∀ byte ∈ (power.text ++ tail).head?, Symbol.isDigit byte = false ∧ isPoint byte = false := by
    intro byte first
    obtain rfl := Option.some.inj first
    exact isMark_spec _ (proper.power power same).mark
  have split := splitDigits_fractionText spelling.fraction? proper.integer fun byte first => (marked byte first).1
  have fraction := takeFraction_append proper.fraction marked
  rw [text_append, same]
  refine (scan_eq proper split (proper.starts _) ?_).trans ?_
  · rw [fraction]
    exact proper.nonempty
  · rw [fraction, takePower_append (proper.power power same)]

/-- A number that ends behind the point goes on with digits and an exponent. -/
theorem scan_append_fraction (proper : spelling.Proper) (same : spelling.fraction? = some digits)
    (unscaled : spelling.power? = none) (tail : List UInt8) :
    scan (spelling.text ++ tail) = some { spelling with
      fraction? := some (digits ++ (Numeral.splitDigits tail).1)
      power? := takePower (Numeral.splitDigits tail).2 } := by
  have fraction : takeFraction (0x2e :: (digits ++ tail)) =
      (some (digits ++ (Numeral.splitDigits tail).1), (Numeral.splitDigits tail).2) := by
    change (some (Numeral.splitDigits (digits ++ tail)).1, (Numeral.splitDigits (digits ++ tail)).2) = _
    rw [splitDigits_extend (proper.fraction digits same)]
  have split : Numeral.splitDigits (spelling.integer ++ 0x2e :: (digits ++ tail)) =
      (spelling.integer, 0x2e :: (digits ++ tail)) := by
    refine Numeral.splitDigits_append proper.integer fun byte first => ?_
    obtain rfl := Option.some.inj first
    rfl
  have starts := proper.starts tail
  have some_digit := proper.nonempty
  rw [Spelling.fraction, same] at some_digit
  rw [same] at starts
  rw [text_append, same, unscaled]
  refine (scan_eq proper split starts ?_).trans ?_
  · rw [fraction]
    exact some_digit.imp_right fun nonempty => List.append_ne_nil_of_left_ne_nil nonempty _
  · rw [fraction]

/-- A number without a point goes on with digits, a point and an exponent. -/
theorem scan_append_integer (proper : spelling.Proper) (pointless : spelling.fraction? = none)
    (unscaled : spelling.power? = none) (tail : List UInt8) :
    let rest := (Numeral.splitDigits tail).2
    scan (spelling.text ++ tail) = some ⟨spelling.sign?, spelling.integer ++ (Numeral.splitDigits tail).1,
      (takeFraction rest).1, takePower (takeFraction rest).2⟩ := by
  have some_digit : spelling.integer ≠ [] := proper.nonempty.resolve_right fun nonempty => by
    rw [Spelling.fraction, pointless] at nonempty
    exact nonempty rfl
  rw [text_append, pointless, unscaled]
  exact scan_eq proper (splitDigits_extend proper.integer tail) (fun empty => absurd empty some_digit)
    (.inl (List.append_ne_nil_of_left_ne_nil some_digit _))

theorem length_text (spelling : Spelling) : spelling.text.length = spelling.sign?.toList.length +
    (spelling.integer.length + (spelling.fraction?.elim 0 (·.length + 1) +
      (Spelling.powerText spelling.power?).length)) := by
  obtain ⟨sign?, integer, fraction?, power?⟩ := spelling
  cases fraction? with
  | none => simp [Spelling.text, Spelling.fractionText]
  | some fraction =>
      simp only [Spelling.text, Spelling.fractionText, Option.elim_some, List.length_append, List.length_cons]

/-- A number that starts a text is found, or a longer one. -/
theorem scan_append (proper : spelling.Proper) (tail : List UInt8) :
    ∃ longer, scan (spelling.text ++ tail) = some longer ∧ spelling.text.length ≤ longer.text.length ∧
      (tail = [] → longer = spelling) := by
  obtain ⟨sign?, integer, fraction?, power?⟩ := spelling
  -- Only the part that comes last can go on.
  cases power? with
  | some power =>
      refine ⟨_, scan_append_power proper rfl tail, ?_, ?_⟩
      · simp only [length_text, Spelling.powerText, Option.elim_some, Power.text, List.length_cons, List.length_append]
        omega
      · rintro rfl
        simp [Numeral.splitDigits]
  | none =>
      cases fraction? with
      | some fraction =>
          refine ⟨_, scan_append_fraction proper rfl rfl tail, ?_, ?_⟩
          · simp only [length_text, Spelling.powerText, Option.elim_none, Option.elim_some, List.length_append,
              List.length_nil]
            omega
          · rintro rfl
            simp [Numeral.splitDigits, takePower]
      | none =>
          refine ⟨_, scan_append_integer proper rfl rfl tail, ?_, ?_⟩
          · simp only [length_text, Spelling.powerText, Option.elim_none, List.length_append, List.length_nil]
            omega
          · rintro rfl
            simp [Numeral.splitDigits, takeFraction, takePower]

/-- The longest text of a language that a text starts with. -/
structure IsLongest (language : Language UInt8) (part text : List UInt8) : Prop where
  mem : part ∈ language
  starts : part <+: text
  longest : ∀ other ∈ language, other <+: text → other.length ≤ part.length

/-- A scan finds nothing only if no number starts the text. -/
theorem not_starts_of_scan (nothing : scan text = none) : ∀ part ∈ numbers, ¬ part <+: text := by
  rintro part mem ⟨tail, rfl⟩
  obtain ⟨spelling, proper, rfl⟩ := mem_numbers.mp mem
  obtain ⟨longer, found, -⟩ := scan_append proper tail
  rw [nothing] at found
  cases found

/-- What a scan finds is the longest number that starts the text. -/
theorem isLongest_of_scan (found : scan text = some spelling) : IsLongest numbers spelling.text text := by
  obtain ⟨proper, starts⟩ := scan_sound found
  refine ⟨mem_numbers.mpr ⟨spelling, proper, rfl⟩, starts, ?_⟩
  rintro part mem ⟨tail, rfl⟩
  obtain ⟨other, proper', rfl⟩ := mem_numbers.mp mem
  obtain ⟨longer, found', length, -⟩ := scan_append proper' tail
  rwa [Option.some.inj (found.symm.trans found')]

/-- The parts of a number are found in its text. -/
theorem scan_text (proper : spelling.Proper) : scan spelling.text = some spelling := by
  obtain ⟨longer, found, -, same⟩ := scan_append proper []
  rw [List.append_nil, same rfl] at found
  exact found

/-- The longest number that starts a text is the one that a scan finds. -/
theorem IsLongest.scan_eq (longest : IsLongest numbers spelling.text text) (proper : spelling.Proper) :
    scan text = some spelling := by
  cases found : scan text with
  | none => exact absurd longest.starts (not_starts_of_scan found _ longest.mem)
  | some other =>
      have found_longest := isLongest_of_scan found
      have length : other.text.length = spelling.text.length :=
        Nat.le_antisymm (longest.longest _ found_longest.mem found_longest.starts)
          (found_longest.longest _ longest.mem longest.starts)
      have same : other.text = spelling.text :=
        (List.prefix_of_prefix_length_le found_longest.starts longest.starts length.le).eq_of_length length
      have parts := (scan_text (scan_sound found).1).symm.trans (same ▸ scan_text proper)
      rw [Option.some.inj parts]

end PocketScript
