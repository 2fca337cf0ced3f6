import PocketScript.Proofs.Number.Finite
import PocketScript.Number.Writing

/-! # Scientific form

Numbers far from one are divided or multiplied by ten, rounding in every step, until
they are at least one and below ten. That they are written with four decimals can
still make ten out of them.
-/

namespace PocketScript

open Binary32
open Float.Model (UnpackedFloat)

variable {number : Float32} {significand : Nat} {exponent : Int}

/-- A number that is at least one and below ten. -/
def IsUnit (number : Float32) : Prop :=
  ∃ significand exponent, IsNumber number significand exponent ∧ 1 ≤ value significand exponent ∧
    value significand exponent < 10

theorem ten_le_iff (is : IsNumber number significand exponent) : 10.0 ≤ number ↔ 10 ≤ value significand exponent := by
  rw [isNumber_ten.le_iff is, value_ten]

theorem lt_one_iff (is : IsNumber number significand exponent) : number < 1.0 ↔ value significand exponent < 1 := by
  rw [is.lt_iff isNumber_one, value_one]

/-- Every division takes a number down to an eighth at least, and not below one. -/
theorem divideToUnit_isUnit {limit : Nat} {count : Int} (is : IsNumber number significand exponent)
    (above : 1 ≤ value significand exponent) (enough : value significand exponent < 10 * 8 ^ limit) :
    IsUnit (divideToUnit limit number count).1 := by
  induction limit generalizing number significand exponent count with
  | zero => exact ⟨significand, exponent, is, above, by linarith⟩
  | succ limit ih =>
      rw [divideToUnit]
      split
      · next large =>
        obtain ⟨rounded, power, tenth, least, most⟩ := is.tenth ((ten_le_iff is).mp large)
        refine ih tenth least ?_
        rw [pow_succ] at enough
        linarith
      · next small => exact ⟨significand, exponent, is, above, not_le.mp fun large => small ((ten_le_iff is).mpr large)⟩

/-- Every multiplication takes a number up to eight times as much at least, and not up
    to ten. -/
theorem multiplyToUnit_isUnit {limit : Nat} {count : Int} (is : IsNumber number significand exponent)
    (below : value significand exponent < 10) (enough : 1 ≤ value significand exponent * 8 ^ limit) :
    IsUnit (multiplyToUnit limit number count).1 := by
  induction limit generalizing number significand exponent count with
  | zero => exact ⟨significand, exponent, is, by linarith, below⟩
  | succ limit ih =>
      rw [multiplyToUnit]
      split
      · next small =>
        obtain ⟨rounded, power, tenfold, least, most⟩ := is.tenfold ((lt_one_iff is).mp small)
        refine ih tenfold most ?_
        have unit : (0 : ℚ) < 8 ^ limit := by positivity
        have grows := mul_le_mul_of_nonneg_right least unit.le
        rw [pow_succ] at enough
        linarith
      · next large => exact ⟨significand, exponent, is, not_lt.mp fun small => large ((lt_one_iff is).mpr small), below⟩

theorem divideToUnit_small {limit : Nat} {count : Int} (is : IsNumber number significand exponent)
    (below : value significand exponent < 10) : divideToUnit limit number count = (number, count) := by
  cases limit with
  | zero => rfl
  | succ limit => rw [divideToUnit, if_neg fun large => absurd ((ten_le_iff is).mp large) (not_le.mpr below)]

theorem multiplyToUnit_large {limit : Nat} {count : Int} (is : IsNumber number significand exponent)
    (above : 1 ≤ value significand exponent) : multiplyToUnit limit number count = (number, count) := by
  cases limit with
  | zero => rfl
  | succ limit => rw [multiplyToUnit, if_neg fun small => absurd ((lt_one_iff is).mp small) (not_lt.mpr above)]

theorem le_largest (is : IsNumber number significand exponent) :
    value significand exponent ≤ value 16777215 104 := by
  have largest : Canonical 16777215 104 := ⟨by norm_num, by norm_num, by norm_num, .inr (by norm_num)⟩
  have small := is.canonical.small
  rcases is.bounded.lt_or_eq with lower | rfl
  · exact (is.canonical.lt_of_lt largest.full lower).le
  · exact value_le_value.mpr (by omega)

/-- No number is so large or so small that the steps are cut short. -/
theorem toScientific_isUnit (is : IsNumber number significand exponent) : IsUnit (toScientific number).1 := by
  unfold toScientific
  by_cases below : value significand exponent < 10
  · have least := is.canonical.least_le
    have enough : 1 ≤ value 1 (-149) * 8 ^ decadeLimit := by norm_num [value, decadeLimit]
    have unit : (0 : ℚ) < 8 ^ decadeLimit := by positivity
    rw [divideToUnit_small is below]
    exact multiplyToUnit_isUnit is below (enough.trans (mul_le_mul_of_nonneg_right least unit.le))
  · have above : 1 ≤ value significand exponent := by linarith
    have enough : value 16777215 104 < 10 * 8 ^ decadeLimit := by norm_num [value, decadeLimit]
    have divided : IsUnit (divideToUnit decadeLimit number 0).1 :=
      divideToUnit_isUnit is above ((le_largest is).trans_lt enough)
    generalize divideToUnit decadeLimit number 0 = quotient at divided
    obtain ⟨rounded, power, is', least, most⟩ := divided
    obtain ⟨number', count⟩ := quotient
    have same : multiplyToUnit decadeLimit number' count = (number', count) := multiplyToUnit_large is' least
    dsimp only
    rw [same]
    exact ⟨rounded, power, is', least, most⟩

/-- Digits, and maybe a minus sign. -/
def IsDecimal (text : List Char) : Prop :=
  ∃ negative digits, digits ≠ [] ∧ (∀ digit ∈ digits, digit.isDigit = true) ∧ text = withSign negative digits

/-- Maybe a minus sign, then one digit from 1 to 9, a point, four digits, `e` and an
    exponent. -/
def IsNormalised (text : List Char) : Prop :=
  ∃ negative lead decimals power, '1' ≤ lead ∧ lead ≤ '9' ∧ decimals.length = 4 ∧
    (∀ digit ∈ decimals, digit.isDigit = true) ∧ IsDecimal power ∧
    text = withSign negative (lead :: '.' :: decimals ++ 'e' :: power)

theorem isDigit_of_mem_decimalDigits {count : Nat} {digit : Char} (mem : digit ∈ decimalDigits count) :
    digit.isDigit = true :=
  Nat.isDigit_of_mem_toDigits (by decide) (by decide) mem

theorem isDecimal_writeExponent (power : Int) : IsDecimal (writeExponent power) := by
  refine ⟨power < 0, decimalDigits power.natAbs, ?_, fun digit => isDigit_of_mem_decimalDigits, rfl⟩
  have some_digit : 0 < (decimalDigits power.natAbs).length := Nat.length_toDigits_pos
  exact List.length_pos_iff.mp some_digit

theorem padZeros_digits {count : Nat} (short : count < 10000) :
    (padZeros 4 (decimalDigits count)).length = 4 ∧
      ∀ digit ∈ padZeros 4 (decimalDigits count), digit.isDigit = true := by
  have length : (decimalDigits count).length ≤ 4 := (Nat.length_toDigits_le_iff (by decide) (by decide)).mpr short
  constructor
  · rw [padZeros, List.length_append, List.length_replicate]
    omega
  · intro digit mem
    rcases List.mem_append.mp mem with zero | digit
    · rw [List.eq_of_mem_replicate zero]
      rfl
    · exact isDigit_of_mem_decimalDigits digit

theorem digitChar_lead : ∀ lead : Fin 10, lead ≠ 0 → '1' ≤ lead.val.digitChar ∧ lead.val.digitChar ≤ '9' := by
  decide

/-- Less than ten is written with one digit in front of the point. -/
theorem writeFixed_spec {count : Nat} (least : 10000 ≤ count) (most : count < 100000) :
    ∃ lead decimals, writeFixed count = lead :: '.' :: decimals ∧ '1' ≤ lead ∧ lead ≤ '9' ∧ decimals.length = 4 ∧
      ∀ digit ∈ decimals, digit.isDigit = true := by
  have single : count / 10000 < 10 := by omega
  have nonzero : (⟨count / 10000, single⟩ : Fin 10) ≠ 0 := by
    intro zero
    have : count / 10000 = 0 := congrArg Fin.val zero
    omega
  have one_digit : decimalDigits (count / 10000) = [(count / 10000).digitChar] := Nat.toDigits_of_lt_base single
  obtain ⟨lower, upper⟩ := digitChar_lead ⟨count / 10000, single⟩ nonzero
  obtain ⟨length, digits⟩ := padZeros_digits (Nat.mod_lt count (by decide : 0 < 10000))
  refine ⟨(count / 10000).digitChar, padZeros 4 (decimalDigits (count % 10000)), ?_, lower, upper, length, digits⟩
  rw [writeFixed, one_digit]
  rfl

theorem writeFixed_ten : writeFixed 100000 = ['1', '0', '.', '0', '0', '0', '0'] := by
  decide

theorem roundDiv_near (numerator denominator : Nat) :
    numerator / denominator ≤ roundDiv numerator denominator ∧
      roundDiv numerator denominator ≤ numerator / denominator + 1 := by
  rw [roundDiv]
  split
  · omega
  · split <;> omega

/-- What is rounded below an even number: exactly what is further than a half below it. -/
theorem roundDiv_lt_iff {numerator denominator limit : Nat} (positive : 0 < denominator) (even : limit % 2 = 0) :
    roundDiv numerator denominator < limit ↔ 2 * numerator + denominator < 2 * (limit * denominator) := by
  obtain ⟨lower, upper⟩ := roundDiv_near numerator denominator
  have whole := Nat.div_add_mod' numerator denominator
  have rest := Nat.mod_lt numerator positive
  rcases lt_trichotomy (numerator / denominator + 1) limit with less | equal | greater
  · have far : (numerator / denominator + 2) * denominator ≤ limit * denominator := Nat.mul_le_mul_right _ less
    rw [Nat.add_mul] at far
    exact ⟨fun _ => by omega, fun _ => by omega⟩
  · -- Half way to an even number goes up to it.
    rw [← equal, Nat.add_mul, roundDiv]
    split
    · omega
    · split <;> omega
  · have near : limit * denominator ≤ numerator / denominator * denominator :=
      Nat.mul_le_mul_right _ (Nat.lt_succ_iff.mp greater)
    exact ⟨fun _ => by omega, fun _ => by omega⟩

theorem tenThousandths_bounds {units : Nat} (least : unitsPerOne ≤ units) (most : units < 10 * unitsPerOne) :
    10000 ≤ tenThousandths units ∧ tenThousandths units ≤ 100000 ∧
      (tenThousandths units < 100000 ↔ 20000 * units < 199999 * unitsPerOne) := by
  have positive : 0 < unitsPerOne := Nat.two_pow_pos 149
  obtain ⟨lower, upper⟩ := roundDiv_near (units * 10000) unitsPerOne
  have at_least : 10000 ≤ units * 10000 / unitsPerOne := by
    rw [Nat.le_div_iff_mul_le positive]
    omega
  have at_most : units * 10000 / unitsPerOne < 100000 := by
    rw [Nat.div_lt_iff_lt_mul positive]
    omega
  rw [tenThousandths]
  refine ⟨by omega, by omega, ?_⟩
  rw [roundDiv_lt_iff positive (by norm_num)]
  omega

theorem abs_eq (number : Float32) : number.abs = .ofModel (.pack number.toModel.unpack.abs) :=
  rfl

/-- A finite number that is not zero, without its sign. -/
theorem isNumber_abs (finite : number.isFinite = true) (far : 10000000.0 < number.abs ∨ 0.0 < number.abs) :
    ∃ sign significand exponent positive, number.toModel.unpack = .finite sign significand exponent positive ∧
      IsNumber number.abs significand exponent := by
  have finite : number.toModel.unpack.isFinite = true := finite
  rw [abs_eq] at far ⊢
  cases unpacked : number.toModel.unpack with
  | notANumber | infinity _ =>
      rw [unpacked] at finite
      cases finite
  | zero sign =>
      rw [unpacked, UnpackedFloat.abs] at far
      exact absurd far (by decide)
  | finite sign significand exponent positive =>
      obtain ⟨canonical, bounded, -⟩ := unpack_finite unpacked
      exact ⟨sign, significand, exponent, positive, rfl, .pack canonical bounded⟩

/-- How a number far from one is written. -/
theorem writeNumber_far (finite : number.isFinite = true)
    (far : 10000000.0 < number.abs ∨ 0.0 < number.abs ∧ number.abs < 0.001) :
    IsUnit (toScientific number.abs).1 ∧
      (writeNumber number).toList = withSign (isNegative number)
        (writeFixed (tenThousandths (units (toScientific number.abs).1)) ++
          'e' :: writeExponent (toScientific number.abs).2) := by
  obtain ⟨sign, significand, exponent, positive, unpacked, is⟩ := isNumber_abs finite (far.imp_right And.left)
  have scientific : isScientific number.abs = true := by
    rw [isScientific, Bool.or_eq_true, decide_eq_true_iff, decide_eq_true_iff]
    exact far.imp_right And.right
  have number_ : number.isNaN = false := by
    change number.toModel.unpack.isNaN = false
    rw [unpacked]
    rfl
  have bounded : number.isInf = false := by
    change number.toModel.unpack.isInf = false
    rw [unpacked]
    rfl
  have nonzero : (number == 0.0) = false := by
    change number.toModel.unpack.beq (.zero .positive) = false
    rw [unpacked]
    cases sign <;> rfl
  refine ⟨toScientific_isUnit is, ?_⟩
  rw [writeNumber, number_, bounded, nonzero, scientific]
  exact String.toList_ofList ..

theorem IsUnit.bounds (unit : IsUnit number) :
    1.0 ≤ number ∧ number < 10.0 ∧ unitsPerOne ≤ units number ∧ units number < 10 * unitsPerOne := by
  obtain ⟨significand, exponent, is, least, most⟩ := unit
  have exact_units := is.units_value
  have one : (unitsPerOne : ℚ) = 2 ^ 149 := by norm_num [unitsPerOne]
  have positive : (0 : ℚ) < 2 ^ 149 := by positivity
  refine ⟨?_, ?_, ?_, ?_⟩
  · rwa [isNumber_one.le_iff is, value_one]
  · rwa [is.lt_iff isNumber_ten, value_ten]
  · rw [← Nat.cast_le (α := ℚ), exact_units, one]
    exact le_mul_of_one_le_left positive.le least
  · rw [← Nat.cast_lt (α := ℚ), exact_units, Nat.cast_mul, one]
    exact mul_lt_mul_of_pos_right most positive

theorem not_isNormalised_ten (negative : Bool) (power : List Char) :
    ¬ IsNormalised (withSign negative (['1', '0', '.', '0', '0', '0', '0'] ++ 'e' :: power)) := by
  rintro ⟨negative', lead, decimals, power', least, -, -, -, -, same⟩
  have no_minus : lead ≠ '-' := by
    rintro rfl
    exact absurd least (by decide)
  cases negative with
  | false =>
      cases negative' with
      | false => simp [withSign] at same
      | true => simp [withSign] at same
  | true =>
      cases negative' with
      | false => simp [withSign, no_minus.symm] at same
      | true => simp [withSign] at same

/-- A finite number far from one is brought between one and ten. Its text then has one
    digit in front of the point exactly if what it was brought to is below 9.99995;
    otherwise the text starts with ten. -/
theorem writeNumber_scientific (finite : number.isFinite = true)
    (far : 10000000.0 < number.abs ∨ 0.0 < number.abs ∧ number.abs < 0.001) :
    1.0 ≤ (toScientific number.abs).1 ∧ (toScientific number.abs).1 < 10.0 ∧
      (20000 * units (toScientific number.abs).1 < 199999 * unitsPerOne →
        IsNormalised (writeNumber number).toList) ∧
      (199999 * unitsPerOne ≤ 20000 * units (toScientific number.abs).1 →
        ¬ IsNormalised (writeNumber number).toList ∧ (writeNumber number).toList = withSign (isNegative number)
          (['1', '0', '.', '0', '0', '0', '0'] ++ 'e' :: writeExponent (toScientific number.abs).2)) := by
  obtain ⟨unit, text⟩ := writeNumber_far finite far
  obtain ⟨above, below, least, most⟩ := unit.bounds
  obtain ⟨lower, upper, short⟩ := tenThousandths_bounds least most
  refine ⟨above, below, fun near => ?_, fun near => ?_⟩
  · obtain ⟨lead, decimals, written, first, last, length, digits⟩ := writeFixed_spec lower (short.mpr near)
    refine ⟨isNegative number, lead, decimals, _, first, last, length, digits,
      isDecimal_writeExponent (toScientific number.abs).2, ?_⟩
    rw [text, written]
  · have ten : tenThousandths (units (toScientific number.abs).1) = 100000 := by omega
    rw [ten, writeFixed_ten] at text
    rw [text]
    exact ⟨not_isNormalised_ten _ _, rfl⟩

/-- 123456789 is brought to 1.2345679, whose text is normalised. -/
theorem writeNumber_scientific_rounded :
    let number := Float32.ofBits 0x4ceb79a3
    number.isFinite = true ∧ 10000000.0 < number.abs ∧
      20000 * units (toScientific number.abs).1 < 199999 * unitsPerOne ∧ IsNormalised (writeNumber number).toList := by
  intro number
  have finite : number.isFinite = true := by decide +kernel
  have far : 10000000.0 < number.abs := by decide +kernel
  have near : 20000 * units (toScientific number.abs).1 < 199999 * unitsPerOne := by decide +kernel
  obtain ⟨-, -, normalised, -⟩ := writeNumber_scientific finite (.inl far)
  exact ⟨finite, far, near, normalised near⟩

/-- 99999992 is brought to 9.999998, which four decimals make ten of. -/
theorem writeNumber_not_normalised_ten :
    let number := Float32.ofBits 0x4cbebc1f
    number.isFinite = true ∧ 10000000.0 < number.abs ∧ writeNumber number = "10.0000e7" ∧
      ¬ IsNormalised (writeNumber number).toList := by
  intro number
  have text : writeNumber number = "10.0000e7" := by decide +kernel
  refine ⟨by decide +kernel, by decide +kernel, text, ?_⟩
  rw [text]
  exact not_isNormalised_ten false ['7']

end PocketScript
