import Mathlib
import PocketScript.Number.Binary32

/-! # Rounding to binary32

A positive finite number is a significand times a power of two. Rounding leads to one
of the two numbers around the exact result, so no number lies between the exact result
and what it is rounded to.
-/

namespace PocketScript.Binary32

open Float.Model
open Float.Model.UnpackedFloat

variable {significand significand' : Nat} {exponent exponent' : Int} {exact : ℚ}

/-- A significand times a power of two. -/
def value (significand : Nat) (exponent : Int) : ℚ :=
  significand * 2 ^ exponent

/-- The significand has all its bits, unless the exponent is the least one. -/
structure Canonical (significand : Nat) (exponent : Int) : Prop where
  positive : 0 < significand
  small : significand < 2 ^ 24
  least : -149 ≤ exponent
  full : exponent = -149 ∨ 2 ^ 23 ≤ significand

theorem value_le_value : value significand exponent ≤ value significand' exponent ↔ significand ≤ significand' := by
  have positive : (0 : ℚ) < 2 ^ exponent := by positivity
  rw [value, value, mul_le_mul_iff_left₀ positive, Nat.cast_le]

theorem value_lt_value : value significand exponent < value significand' exponent ↔ significand < significand' := by
  rw [← not_le, value_le_value, not_le]

/-- The same number with a smaller exponent. -/
theorem value_lower (significand : Nat) (exponent : Int) (count : Nat) :
    value significand (exponent + count) = value (significand * 2 ^ count) exponent := by
  have nonzero : (2 : ℚ) ≠ 0 := two_ne_zero
  rw [value, value, zpow_add₀ nonzero, zpow_natCast]
  push_cast
  ring

theorem value_lower' (significand : Nat) (lower : exponent ≤ exponent') :
    value significand exponent' = value (significand * 2 ^ (exponent' - exponent).toNat) exponent := by
  rw [← value_lower]
  congr 1
  omega

/-- The larger exponent has the larger number. -/
theorem Canonical.lt_of_lt (canonical : Canonical significand exponent)
    (full : exponent' = -149 ∨ 2 ^ 23 ≤ significand') (lower : exponent < exponent') :
    value significand exponent < value significand' exponent' := by
  have filled : 2 ^ 23 ≤ significand' := by
    have := canonical.least
    omega
  rw [value_lower' significand' (Int.le_of_lt lower), value_lt_value]
  obtain ⟨count, shift⟩ : ∃ count, (exponent' - exponent).toNat = count + 1 :=
    ⟨(exponent' - exponent).toNat - 1, by omega⟩
  have doubles : 2 ≤ 2 ^ (count + 1) := Nat.le_self_pow (Nat.succ_ne_zero count) 2
  have small := canonical.small
  rw [shift]
  calc significand < 2 ^ 23 * 2 := by omega
    _ ≤ significand' * 2 ^ (count + 1) := Nat.mul_le_mul filled doubles

/-- No number lies between an exact one and what it is rounded to. -/
structure Faithful (exact : ℚ) (significand : Nat) (exponent : Int) : Prop where
  canonical : Canonical significand exponent
  below : ∀ {other power}, Canonical other power → value other power ≤ exact →
    value other power ≤ value significand exponent
  above : ∀ {other power}, Canonical other power → exact ≤ value other power →
    value significand exponent ≤ value other power

/-- What is cut off from an exact number. -/
structure Cut (exact : ℚ) (significand : Nat) (exponent : Int) : Prop where
  small : significand < 2 ^ 24
  least : -149 ≤ exponent
  full : exponent = -149 ∨ 2 ^ 23 ≤ significand
  lower : value significand exponent ≤ exact
  upper : exact < value (significand + 1) exponent

namespace Cut

variable {other : Nat} {power : Int}

theorem below (cut : Cut exact significand exponent) (canonical : Canonical other power)
    (le : value other power ≤ exact) : value other power ≤ value significand exponent := by
  by_cases lower : power < exponent
  · exact (canonical.lt_of_lt cut.full lower).le
  · have whole := value_lower' other (Int.not_lt.mp lower)
    have less := le.trans_lt cut.upper
    rw [whole, value_lt_value] at less
    rw [whole, value_le_value]
    omega

/-- A number that is not below the exact one is not below the cut one; not even below
    the next one, unless nothing was cut off. -/
theorem above (cut : Cut exact significand exponent) (canonical : Canonical other power)
    (le : exact ≤ value other power) {rounded : Nat}
    (near : rounded = significand ∨ rounded = significand + 1 ∧ exact ≠ value significand exponent) :
    value rounded exponent ≤ value other power := by
  by_cases lower : power < exponent
  · have less := canonical.lt_of_lt cut.full lower
    exact absurd (cut.lower.trans le) (not_le.mpr less)
  · have whole := value_lower' other (Int.not_lt.mp lower)
    rw [whole] at le ⊢
    rw [value_le_value]
    rcases near with rfl | ⟨rfl, inexact⟩
    · exact value_le_value.mp (cut.lower.trans le)
    · exact value_lt_value.mp ((cut.lower.lt_of_ne inexact.symm).trans_le le)

end Cut

section Shifting

variable {extended : ExtendedMantissa} {count : Nat} {accuracy : Accuracy}

/-- Nothing was cut off. -/
def IsExact (extended : ExtendedMantissa) : Prop :=
  extended.roundBit = false ∧ extended.stickyBit = false

theorem shiftRight_succ (extended : ExtendedMantissa) (count : Nat) :
    extended >>> (count + 1) = (extended >>> count).shiftRightOne :=
  rfl

theorem mantissa_shiftRight (extended : ExtendedMantissa) (count : Nat) :
    (extended >>> count).mantissa = extended.mantissa / 2 ^ count := by
  induction count with
  | zero => exact (Nat.div_one _).symm
  | succ count ih => rw [shiftRight_succ, ExtendedMantissa.shiftRightOne, ih, Nat.div_div_eq_div_mul, Nat.pow_succ]

theorem isExact_shiftRight (exact : IsExact extended) (even : extended.mantissa % 2 ^ count = 0) :
    IsExact (extended >>> count) := by
  induction count with
  | zero => exact exact
  | succ count ih =>
      have split := Nat.mod_pow_succ (b := 2) (k := count) (x := extended.mantissa)
      have low : extended.mantissa % 2 ^ count = 0 := by omega
      obtain ⟨noRound, noSticky⟩ := ih low
      have high : extended.mantissa / 2 ^ count % 2 = 0 := by
        rw [even, low, Nat.zero_add] at split
        exact (Nat.mul_eq_zero.mp split.symm).resolve_left (Nat.two_pow_pos count).ne'
      rw [shiftRight_succ, IsExact, ExtendedMantissa.shiftRightOne, mantissa_shiftRight, noRound, noSticky, high]
      exact ⟨rfl, rfl⟩

theorem mantissa_ofMantissaAndAccuracy (mantissa : Nat) (accuracy : Accuracy) :
    (ExtendedMantissa.ofMantissaAndAccuracy mantissa accuracy).mantissa = mantissa := by
  rcases accuracy with _ | (_ | _ | _) <;> rfl

/-- Rounding goes to what is left or to the next number; to the next only if something
    was cut off. -/
theorem roundedMantissa_near (extended : ExtendedMantissa) :
    extended.roundedMantissa = extended.mantissa ∨
      extended.roundedMantissa = extended.mantissa + 1 ∧ ¬ IsExact extended := by
  obtain ⟨mantissa, _ | _, _ | _⟩ := extended
  · exact .inl rfl
  · exact .inl rfl
  · have parity : mantissa + mantissa % 2 = mantissa ∨ mantissa + mantissa % 2 = mantissa + 1 := by omega
    exact parity.imp_right fun next => ⟨next, fun exact => absurd exact.1 (by simp)⟩
  · exact .inr ⟨rfl, fun exact => absurd exact.1 (by simp)⟩

end Shifting

section Rounding

variable {accuracy : Accuracy}

theorem targetExponent_eq (total : Int) : Format.binary32.targetExponent total = max (total - 24) (-149) :=
  rfl

theorem log2_bounds {number : Nat} (positive : 0 < number) :
    2 ^ number.log2 ≤ number ∧ number < 2 ^ (number.log2 + 1) :=
  ⟨Nat.log2_self_le positive.ne', Nat.lt_log2_self⟩

/-- Shifting cuts bits off, as far as there are too many. -/
theorem shiftToTargetExponent_cut (large : 2 ^ 23 ≤ significand) (lower : value significand exponent ≤ exact)
    (upper : exact < value (significand + 1) exponent)
    (accurate : exact = value significand exponent → accuracy = .exact) :
    ∃ extended power, shiftToTargetExponent .binary32 significand exponent accuracy = (extended, power) ∧
      Cut exact extended.mantissa power ∧ (exact = value extended.mantissa power → IsExact extended) := by
  have positive : 0 < significand := by omega
  obtain ⟨least, most⟩ := log2_bounds positive
  have bits : 23 ≤ significand.log2 := (Nat.le_log2 positive.ne').mpr large
  obtain ⟨count, shift⟩ : ∃ count, count =
      (Format.binary32.targetExponent (totalExponent significand exponent) - exponent).toNat := ⟨_, rfl⟩
  have amount := shift
  rw [targetExponent_eq, totalExponent] at amount
  have unit : 0 < 2 ^ count := Nat.two_pow_pos count
  refine ⟨ExtendedMantissa.ofMantissaAndAccuracy significand accuracy >>> count, exponent + count, ?_, ?_, ?_⟩
  · rw [shiftToTargetExponent, shiftToExponent, shift]
  · rw [mantissa_shiftRight, mantissa_ofMantissaAndAccuracy]
    constructor
    · apply Nat.div_lt_of_lt_mul
      rw [← Nat.pow_add]
      exact most.trans_le (Nat.pow_le_pow_right two_pos (by omega))
    · omega
    · by_cases enough : exponent + count = -149
      · exact .inl enough
      · refine .inr ((Nat.le_div_iff_mul_le unit).mpr ?_)
        rw [← Nat.pow_add]
        exact (Nat.pow_le_pow_right two_pos (by omega)).trans least
    · rw [value_lower]
      exact (value_le_value.mpr (Nat.div_mul_le_self ..)).trans lower
    · rw [value_lower, Nat.mul_comm]
      exact upper.trans_le (value_le_value.mpr (Nat.lt_mul_div_succ significand unit))
  · rw [mantissa_shiftRight, mantissa_ofMantissaAndAccuracy, value_lower]
    intro same
    have whole : significand ≤ significand / 2 ^ count * 2 ^ count := by
      have covers : value significand exponent ≤ value (significand / 2 ^ count * 2 ^ count) exponent :=
        lower.trans_eq same
      exact value_le_value.mp covers
    have divides := Nat.div_add_mod' significand (2 ^ count)
    have even : significand % 2 ^ count = 0 := by omega
    have nothing : significand / 2 ^ count * 2 ^ count = significand := by omega
    rw [nothing] at same
    rw [accurate same]
    exact isExact_shiftRight ⟨rfl, rfl⟩ even

/-- A rounded significand that has become too long is cut once more, and nothing is
    lost by that. -/
theorem shiftToTargetExponent_rounded (small : significand ≤ 2 ^ 24) (least : -149 ≤ exponent)
    (full : exponent = -149 ∨ 2 ^ 23 ≤ significand) (positive : 0 < significand) :
    ∃ extended power, shiftToTargetExponent .binary32 significand exponent .exact = (extended, power) ∧
      Canonical extended.mantissa power ∧ value extended.mantissa power = value significand exponent := by
  obtain ⟨lower, upper⟩ := log2_bounds positive
  rw [shiftToTargetExponent, shiftToExponent, targetExponent_eq, totalExponent]
  by_cases long : significand = 2 ^ 24
  · have bits : significand.log2 = 24 := by rw [long, Nat.log2_two_pow]
    have shift : (max (((significand.log2 : Nat) : Int) + 1 + exponent - 24) (-149) - exponent).toNat = 1 := by omega
    refine ⟨_, _, rfl, ?_⟩
    rw [shift, mantissa_shiftRight, mantissa_ofMantissaAndAccuracy, long]
    refine ⟨⟨by norm_num, by norm_num, by omega, .inr (by norm_num)⟩, ?_⟩
    rw [value_lower]
    norm_num
  · have bits : significand.log2 < 24 := by
      rw [Nat.log2_lt positive.ne']
      omega
    have shift : (max (((significand.log2 : Nat) : Int) + 1 + exponent - 24) (-149) - exponent).toNat = 0 := by omega
    refine ⟨_, _, rfl, ?_⟩
    rw [shift, mantissa_shiftRight, mantissa_ofMantissaAndAccuracy, Nat.pow_zero, Nat.div_one]
    rw [Int.natCast_zero, Int.add_zero]
    exact ⟨⟨positive, by omega, least, full⟩, rfl⟩

/-- A number that is not too small is rounded to one of the numbers around it. -/
theorem roundWithAccuracy_faithful (sign : Sign) (accuracy : Accuracy) (large : 2 ^ 23 ≤ significand)
    (lower : value significand exponent ≤ exact) (upper : exact < value (significand + 1) exponent)
    (accurate : exact = value significand exponent → accuracy = .exact) (normal : value 1 (-149) ≤ exact) :
    ∃ rounded power positive, Faithful exact rounded power ∧
      roundWithAccuracy .binary32 sign significand exponent accuracy = .finite sign rounded power positive := by
  obtain ⟨extended, middle, first, cut, exactly⟩ := shiftToTargetExponent_cut large lower upper accurate
  have unit : Canonical 1 (-149) := ⟨by norm_num, by norm_num, by norm_num, .inl rfl⟩
  have positive : 0 < extended.mantissa := by
    have some_bit := cut.below unit normal
    by_contra none
    have zero : extended.mantissa = 0 := by omega
    rw [zero] at some_bit
    have zero_value : value 0 middle = 0 := by simp [value]
    have unit_value : 0 < value 1 (-149) := by simp [value]
    linarith
  have near : extended.roundedMantissa = extended.mantissa ∨ extended.roundedMantissa = extended.mantissa + 1 ∧
      exact ≠ value extended.mantissa middle :=
    (roundedMantissa_near extended).imp_right fun next => ⟨next.1, fun same => next.2 (exactly same)⟩
  have grows : extended.mantissa ≤ extended.roundedMantissa := by
    rcases near with same | ⟨next, -⟩ <;> omega
  have fits : extended.roundedMantissa ≤ 2 ^ 24 := by
    have := cut.small
    rcases near with same | ⟨next, -⟩ <;> omega
  obtain ⟨final, power, second, canonical, same⟩ := shiftToTargetExponent_rounded fits cut.least
    (cut.full.imp_right grows.trans') (positive.trans_le grows)
  refine ⟨final.mantissa, power, canonical.positive, ⟨canonical, ?_, ?_⟩, ?_⟩
  · intro other otherPower otherCanonical le
    rw [same]
    exact (cut.below otherCanonical le).trans (value_le_value.mpr grows)
  · intro other otherPower otherCanonical le
    rw [same]
    exact cut.above otherCanonical le near
  · rw [roundWithAccuracy, first]
    simp only [second, dif_neg canonical.positive.ne']

end Rounding

end PocketScript.Binary32
