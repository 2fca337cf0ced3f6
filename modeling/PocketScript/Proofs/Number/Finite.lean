import PocketScript.Proofs.Number.Rounding
import PocketScript.Number.Writing

/-! # Finite numbers

What is packed is unpacked again. So the comparisons of binary32 numbers, and their
products and quotients by ten, are those of the numbers they stand for, rounded.
-/

namespace PocketScript.Binary32

open Float.Model
open Float.Model.UnpackedFloat

variable {significand : Nat} {exponent : Int} {sign : Sign}

theorem toNat_unpackMantissa (bits : BitVec Format.binary32.numBits) :
    (unpackMantissa bits).toNat = bits.toNat % fractions := by
  simp [unpackMantissa, fractions]

theorem toNat_unpackExponent (bits : BitVec Format.binary32.numBits) :
    (unpackExponent bits).toNat = bits.toNat / fractions % 256 := by
  simp [unpackExponent, fractions, Nat.shiftRight_eq_div_pow]

/-- The fields of a number next to each other are its magnitude bits. -/
theorem fields_eq (packed : BitVec Format.binary32.numBits) :
    fractions * (unpackExponent packed).toNat + (unpackMantissa packed).toNat = packed.toNat % signBit := by
  have split := Nat.div_add_mod (packed.toNat % signBit) fractions
  have mantissa : packed.toNat % signBit % fractions = packed.toNat % fractions :=
    Nat.mod_mod_of_dvd _ (by decide)
  have power : packed.toNat % signBit / fractions = packed.toNat / fractions % 256 :=
    Nat.mod_mul_right_div_self _ fractions 256
  rw [toNat_unpackMantissa, toNat_unpackExponent, ← mantissa, ← power]
  exact split

theorem toNat_leading (bits : BitVec 23) : (1#1 ++ bits).toNat = 2 ^ 23 + bits.toNat := by
  rw [BitVec.toNat_append]
  exact (Nat.shiftLeft_add_eq_or_of_lt bits.isLt 1).symm

theorem exponentBias_eq : (Format.binary32.exponentBias : Int) = 127 :=
  rfl

theorem unitsOfBits_subnormal {fraction : Nat} (short : fraction < fractions) : unitsOfBits fraction = fraction :=
  if_pos short

theorem unitsOfBits_normal {fraction power : Nat} (short : fraction < fractions) (some_power : power ≠ 0) :
    unitsOfBits (fractions * power + fraction) = (fractions + fraction) * 2 ^ (power - 1) := by
  have positive : 0 < fractions := by decide
  have large : ¬ fractions * power + fraction < fractions := by
    have := Nat.le_mul_of_pos_right fractions (Nat.pos_of_ne_zero some_power)
    omega
  rw [unitsOfBits, if_neg large, Nat.mul_add_mod, Nat.mod_eq_of_lt short, Nat.mul_add_div positive,
    Nat.div_eq_of_lt short, Nat.add_zero, Nat.add_comm]
  rfl

/-- A finite number as its bits give it. -/
theorem unpack_finite {bits : BitVec Format.binary32.numBits} {positive : 0 < significand}
    (unpacked : UnpackedFloat.unpack .binary32 bits = .finite sign significand exponent positive) :
    Canonical significand exponent ∧ exponent ≤ 104 ∧
      unitsOfBits (bits.toNat % signBit) = significand * 2 ^ (exponent + 149).toNat := by
  have fields := fields_eq bits
  have short : (unpackMantissa bits).toNat < 2 ^ 23 := (unpackMantissa bits).isLt
  unfold UnpackedFloat.unpack at unpacked
  dsimp only at unpacked
  split at unpacked
  · split at unpacked
    · cases unpacked
    · cases unpacked
  · next finite =>
    split at unpacked
    · next least =>
      split at unpacked
      · cases unpacked
      · cases unpacked
        have least : (unpackExponent bits).toNat = 0 := by rw [least]; rfl
        rw [least, Nat.mul_zero, Nat.zero_add] at fields
        rw [← fields, unitsOfBits_subnormal short, least, exponentBias_eq]
        exact ⟨⟨positive, by omega, by omega, .inl (by omega)⟩, by omega, (Nat.mul_one _).symm⟩
    · next normal =>
      cases unpacked
      have normal : (unpackExponent bits).toNat ≠ 0 := fun zero => normal (BitVec.eq_of_toNat_eq zero)
      have bounded : (unpackExponent bits).toNat ≠ 255 := fun all => finite (BitVec.eq_of_toNat_eq all)
      have width : (unpackExponent bits).toNat < 2 ^ 8 := (unpackExponent bits).isLt
      have shift : (((unpackExponent bits).toNat : Int) - (127 + ((23 : Nat) : Int)) + 149).toNat =
          (unpackExponent bits).toNat - 1 := by omega
      rw [← fields, unitsOfBits_normal short normal, toNat_leading, exponentBias_eq, shift]
      exact ⟨⟨by omega, by omega, by omega, .inr (by omega)⟩, by omega, rfl⟩

/-- What fits is read back. -/
theorem unpack_pack (canonical : Canonical significand exponent) (bounded : exponent ≤ 104)
    (positive : 0 < significand) :
    UnpackedFloat.unpack .binary32 (UnpackedFloat.pack .binary32 (.finite sign significand exponent positive)) =
      .finite sign significand exponent positive := by
  obtain ⟨-, small, least, full⟩ := canonical
  have biased : exponent + Format.binary32.exponentBias + ((23 : Nat) : Int) = exponent + 150 := by
    rw [exponentBias_eq]
    omega
  have fits : ¬ 2 ^ 8 ≤ (exponent + 150).toNat + 1 := by omega
  rw [UnpackedFloat.pack]
  simp only [biased, if_neg fits]
  by_cases normal : 2 ^ 23 ≤ significand
  · have bits : significand.log2 + 1 = Format.binary32.mantissaBits := by
      have lower := (Nat.le_log2 positive.ne').mpr normal
      have upper := (Nat.log2_lt positive.ne').mpr small
      have : Format.binary32.mantissaBits = 24 := rfl
      omega
    have power : (BitVec.ofNat 8 (exponent + 150).toNat).toNat = (exponent + 150).toNat :=
      Nat.mod_eq_of_lt (by omega)
    have finite : BitVec.ofNat 8 (exponent + 150).toNat ≠ -1#8 := by
      intro all
      have := power.symm.trans (congrArg BitVec.toNat all)
      have : (-1#8).toNat = 255 := rfl
      omega
    have some_power : BitVec.ofNat 8 (exponent + 150).toNat ≠ 0#8 := by
      intro zero
      have := power.symm.trans (congrArg BitVec.toNat zero)
      have : (0#8).toNat = 0 := rfl
      omega
    have mantissa : (1#1 ++ BitVec.ofNat 23 significand).toNat = significand := by
      rw [toNat_leading, BitVec.toNat_ofNat]
      omega
    rw [if_pos bits, UnpackedFloat.unpack]
    simp only [unpackMantissa_packComponents, unpackExponent_packComponents, unpackSign_packComponents,
      Sign.ofBitVec_toBitVec, if_neg finite, if_neg some_power, mantissa, power, exponentBias_eq]
    congr 1
    omega
  · have bits : significand.log2 + 1 ≠ Format.binary32.mantissaBits := by
      have upper := (Nat.log2_lt positive.ne').mpr (Nat.not_le.mp normal)
      have : Format.binary32.mantissaBits = 24 := rfl
      omega
    have mantissa : (BitVec.ofNat 23 significand).toNat = significand := Nat.mod_eq_of_lt (by omega)
    have some_bit : BitVec.ofNat 23 significand ≠ 0#23 := by
      intro zero
      have := mantissa.symm.trans (congrArg BitVec.toNat zero)
      have : (0#23).toNat = 0 := rfl
      omega
    have finite : (0#8) ≠ -1#8 := by decide
    rw [if_neg bits, UnpackedFloat.unpack]
    simp only [unpackMantissa_packComponents, unpackExponent_packComponents, unpackSign_packComponents,
      Sign.ofBitVec_toBitVec, if_neg finite, if_true, dif_neg some_bit, mantissa, exponentBias_eq]
    congr 1
    have : (0#8).toNat = 0 := rfl
    omega

/-- A positive finite number with its significand and exponent. -/
structure IsNumber (number : Float32) (significand : Nat) (exponent : Int) : Prop where
  canonical : Canonical significand exponent
  bounded : exponent ≤ 104
  unpacked : number.toModel.unpack = .finite .positive significand exponent canonical.positive

section Numbers

variable {number other : Float32} {significand' : Nat} {exponent' : Int}

theorem IsNumber.ofUnpacked {positive : 0 < significand}
    (unpacked : number.toModel.unpack = .finite .positive significand exponent positive) :
    IsNumber number significand exponent := by
  obtain ⟨canonical, bounded, -⟩ := unpack_finite unpacked
  exact ⟨canonical, bounded, unpacked⟩

theorem IsNumber.pack (canonical : Canonical significand exponent) (bounded : exponent ≤ 104) :
    IsNumber (.ofModel (.pack (.finite .positive significand exponent canonical.positive))) significand exponent :=
  ⟨canonical, bounded, unpack_pack canonical bounded canonical.positive⟩

theorem IsNumber.units_eq (is : IsNumber number significand exponent) :
    units number = significand * 2 ^ (exponent + 149).toNat :=
  (unpack_finite is.unpacked).2.2

/-- The units of a number are what it stands for. -/
theorem IsNumber.units_value (is : IsNumber number significand exponent) :
    (units number : ℚ) = value significand exponent * 2 ^ 149 := by
  have least := is.canonical.least
  have whole := value_lower' significand least
  have same : exponent - -149 = exponent + 149 := by omega
  rw [is.units_eq, whole, same, value, zpow_neg, zpow_ofNat, inv_mul_cancel_right₀ (by positivity)]

theorem lt_iff_compare : number < other ↔ number.toModel.unpack.compare other.toModel.unpack = some .lt := by
  change decide (number.toModel.unpack.lt other.toModel.unpack = true) = true ↔ _
  rw [decide_eq_true_iff, UnpackedFloat.lt, beq_iff_eq]

theorem le_iff_compare : number ≤ other ↔ (number.toModel.unpack.compare other.toModel.unpack).any (·.isLE) = true := by
  change decide (number.toModel.unpack.le other.toModel.unpack = true) = true ↔ _
  rw [decide_eq_true_iff, UnpackedFloat.le]

theorem IsNumber.compare_eq (first : IsNumber number significand exponent)
    (second : IsNumber other significand' exponent') :
    number.toModel.unpack.compare other.toModel.unpack =
      some (compare (value significand exponent) (value significand' exponent')) := by
  rw [first.unpacked, second.unpacked, UnpackedFloat.compare]
  rcases lt_trichotomy exponent exponent' with lower | rfl | higher
  · have less := first.canonical.lt_of_lt second.canonical.full lower
    rw [compare_lt_iff_lt.mpr lower, compare_lt_iff_lt.mpr less]
    rfl
  · rw [compare_eq_iff_eq.mpr rfl]
    rcases lt_trichotomy significand significand' with lower | rfl | higher
    · rw [compare_lt_iff_lt.mpr lower, compare_lt_iff_lt.mpr (value_lt_value.mpr lower)]
      rfl
    · rw [compare_eq_iff_eq.mpr rfl, compare_eq_iff_eq.mpr rfl]
      rfl
    · rw [compare_gt_iff_gt.mpr higher, compare_gt_iff_gt.mpr (value_lt_value.mpr higher)]
      rfl
  · have greater := second.canonical.lt_of_lt first.canonical.full higher
    rw [compare_gt_iff_gt.mpr higher, compare_gt_iff_gt.mpr greater]
    rfl

theorem IsNumber.lt_iff (first : IsNumber number significand exponent)
    (second : IsNumber other significand' exponent') :
    number < other ↔ value significand exponent < value significand' exponent' := by
  rw [lt_iff_compare, first.compare_eq second, Option.some.injEq, compare_lt_iff_lt]

theorem IsNumber.le_iff (first : IsNumber number significand exponent)
    (second : IsNumber other significand' exponent') :
    number ≤ other ↔ value significand exponent ≤ value significand' exponent' := by
  rw [le_iff_compare, first.compare_eq second, Option.any_some, Ordering.isLE_iff_ne_gt]
  exact compare_le_iff_le

theorem unpack_ten : (10.0 : Float32).toModel.unpack = .finite .positive 10485760 (-20) (by decide) :=
  rfl

theorem isNumber_ten : IsNumber 10.0 10485760 (-20) :=
  .ofUnpacked unpack_ten

theorem value_ten : value 10485760 (-20) = 10 := by
  norm_num [value]

theorem isNumber_one : IsNumber 1.0 8388608 (-23) :=
  .ofUnpacked rfl

theorem value_one : value 8388608 (-23) = 1 := by
  norm_num [value]

theorem Canonical.exponent_le (first : Canonical significand exponent) (second : Canonical significand' exponent')
    (le : value significand exponent ≤ value significand' exponent') : exponent ≤ exponent' := by
  by_contra greater
  exact absurd (second.lt_of_lt first.full (Int.not_le.mp greater)) (not_lt.mpr le)

theorem Canonical.least_le (canonical : Canonical significand exponent) :
    value 1 (-149) ≤ value significand exponent := by
  rw [value_lower' significand canonical.least, value_le_value]
  exact Nat.mul_pos canonical.positive (Nat.two_pow_pos _)

/-- Every number has a double, if the exponents go on. -/
theorem Canonical.double (canonical : Canonical significand exponent) :
    ∃ significand' exponent', Canonical significand' exponent' ∧
      value significand' exponent' = 2 * value significand exponent := by
  obtain ⟨positive, small, least, full⟩ := canonical
  by_cases normal : 2 ^ 23 ≤ significand
  · refine ⟨significand, exponent + 1, ⟨positive, small, by omega, .inr normal⟩, ?_⟩
    rw [value, value, zpow_add_one₀ two_ne_zero]
    ring
  · refine ⟨2 * significand, exponent, ⟨by omega, by omega, least, full.imp_right (by omega)⟩, ?_⟩
    rw [value, value]
    push_cast
    ring

theorem mul_ten (number : Float32) : number * 10.0 =
    .ofModel (.pack (UnpackedFloat.mul .binary32 number.toModel.unpack (10.0 : Float32).toModel.unpack)) :=
  rfl

theorem div_ten (number : Float32) : number / 10.0 =
    .ofModel (.pack (UnpackedFloat.div .binary32 number.toModel.unpack (10.0 : Float32).toModel.unpack)) :=
  rfl

/-- The largest number below one, tenfold, is rounded down. -/
theorem tenfold_below_one :
    roundWithAccuracy .binary32 .positive (16777215 * 10485760) (-24 + -20) .exact =
      .finite .positive 10485759 (-20) (by decide) :=
  rfl

/-- Only one number below one is so near to it that its tenfold is nearer to ten than
    the spacing of the numbers there. -/
theorem Canonical.below_one (canonical : Canonical significand exponent) (below : value significand exponent < 1) :
    significand = 16777215 ∧ exponent = -24 ∨ value significand exponent ≤ value 16777214 (-24) := by
  have half : Canonical 8388608 (-24) := ⟨by norm_num, by norm_num, by norm_num, .inr (by norm_num)⟩
  have one : Canonical 8388608 (-23) := isNumber_one.canonical
  have exponent_le := canonical.exponent_le one (below.le.trans_eq value_one.symm)
  have small := canonical.small
  have full := canonical.full
  rcases lt_trichotomy exponent (-24) with lower | rfl | higher
  · exact .inr ((canonical.lt_of_lt half.full lower).le.trans (value_le_value.mpr (by norm_num)))
  · by_cases largest : significand = 16777215
    · exact .inl ⟨largest, rfl⟩
    · exact .inr (value_le_value.mpr (by omega))
  · obtain rfl : exponent = -23 := by omega
    rw [← value_one, value_lt_value] at below
    omega

/-- Tenfold a number below one is at least eightfold, and below ten. -/
theorem IsNumber.tenfold (is : IsNumber number significand exponent) (below : value significand exponent < 1) :
    ∃ rounded power, IsNumber (number * 10.0) rounded power ∧
      8 * value significand exponent ≤ value rounded power ∧ value rounded power < 10 := by
  have exact_eq : value (significand * 10485760) (exponent + -20) = 10 * value significand exponent := by
    rw [value, value, zpow_add₀ two_ne_zero]
    push_cast
    norm_num
    ring
  have least := is.canonical.least_le
  have positive : 0 < value 1 (-149) := by simp [value]
  have large : 2 ^ 23 ≤ significand * 10485760 := by
    have := is.canonical.positive
    omega
  obtain ⟨rounded, power, nonzero, faithful, ran⟩ := roundWithAccuracy_faithful .positive .exact large le_rfl
    (value_lt_value.mpr (Nat.lt_succ_self _)) (fun _ => rfl) (by rw [exact_eq]; linarith)
  rw [exact_eq] at faithful
  have at_most := faithful.above isNumber_ten.canonical (by rw [value_ten]; linarith)
  have bounded := faithful.canonical.exponent_le isNumber_ten.canonical at_most
  have product : number * 10.0 = .ofModel (.pack (.finite .positive rounded power nonzero)) := by
    rw [mul_ten, is.unpacked, unpack_ten]
    exact congrArg (fun result => Float32.ofModel (Float32.Model.pack result)) ran
  refine ⟨rounded, power, ?_, ?_, ?_⟩
  · rw [product]
    exact .pack faithful.canonical (by omega)
  · obtain ⟨_, _, double, twice⟩ := is.canonical.double
    obtain ⟨_, _, double, fourfold⟩ := double.double
    obtain ⟨_, _, double, eightfold⟩ := double.double
    have eight := faithful.below double (by linarith)
    linarith
  · have less : value 10485759 (-20) < 10 := by norm_num [value]
    rcases is.canonical.below_one below with ⟨rfl, rfl⟩ | far
    · have same := tenfold_below_one.symm.trans ran
      injection same with _ same_mantissa same_power
      rw [← same_mantissa, ← same_power]
      exact less
    · have near : Canonical 10485759 (-20) := ⟨by norm_num, by norm_num, by norm_num, .inr (by norm_num)⟩
      have gap : 10 * value 16777214 (-24) ≤ value 10485759 (-20) := by norm_num [value]
      exact (faithful.above near (by linarith)).trans_lt less

/-- A quotient without its remainder. -/
theorem value_div (numerator : Nat) {denominator : Nat} (positive : 0 < denominator) (exponent : Int) :
    value (numerator / denominator) exponent ≤ numerator / denominator * 2 ^ exponent ∧
      (numerator / denominator * 2 ^ exponent : ℚ) < value (numerator / denominator + 1) exponent ∧
      ((numerator / denominator * 2 ^ exponent : ℚ) = value (numerator / denominator) exponent →
        numerator % denominator = 0) := by
  have unit : (0 : ℚ) < 2 ^ exponent := by positivity
  have some : (0 : ℚ) < denominator := Nat.cast_pos.mpr positive
  have whole : (denominator * (numerator / denominator : Nat) + (numerator % denominator : Nat) : ℚ) = numerator := by
    exact_mod_cast Nat.div_add_mod numerator denominator
  have rest : ((numerator % denominator : Nat) : ℚ) < denominator := Nat.cast_lt.mpr (Nat.mod_lt numerator positive)
  have least : (0 : ℚ) ≤ (numerator % denominator : Nat) := Nat.cast_nonneg _
  refine ⟨mul_le_mul_of_nonneg_right ?_ unit.le, mul_lt_mul_of_pos_right ?_ unit, fun same => ?_⟩
  · rw [le_div_iff₀ some]
    linarith
  · rw [div_lt_iff₀ some]
    push_cast
    linarith
  · have quotient := (div_eq_iff some.ne').mp (mul_right_cancel₀ unit.ne' same)
    have none : ((numerator % denominator : Nat) : ℚ) = 0 := by linarith
    exact Nat.cast_eq_zero.mp none

theorem divCore_ten (normal : 2 ^ 23 ≤ significand) (small : significand < 2 ^ 24) (large : -20 ≤ exponent) :
    divCore .binary32 significand exponent 10485760 (-20) =
      (significand * 2 ^ 24 / 10485760, exponent - 4,
        accuracyOfFraction (significand * 2 ^ 24 % 10485760) 10485760) := by
  have positive : 0 < significand := by omega
  have bits : significand.log2 = 23 := (Nat.log2_eq_iff positive.ne').mpr ⟨normal, small⟩
  have bits_ten : (10485760 : Nat).log2 = 23 := rfl
  have target : min (exponent - -20) (Format.binary32.targetExponent
      (totalExponent significand exponent - totalExponent 10485760 (-20))) = exponent - 4 := by
    rw [targetExponent_eq, totalExponent, totalExponent, bits, bits_ten]
    omega
  have shift : (exponent - -20 - (exponent - 4)).toNat = 24 := by omega
  rw [divCore]
  simp only [target, shift, Nat.shiftLeft_eq]

/-- A tenth of a number that is at least ten is at least one, and at most an eighth. -/
theorem IsNumber.tenth (is : IsNumber number significand exponent) (above : 10 ≤ value significand exponent) :
    ∃ rounded power, IsNumber (number / 10.0) rounded power ∧
      1 ≤ value rounded power ∧ value rounded power ≤ value significand exponent / 8 := by
  have large := isNumber_ten.canonical.exponent_le is.canonical (value_ten.trans_le above)
  have normal : 2 ^ 23 ≤ significand := by
    have := is.canonical.full
    omega
  have small := is.canonical.small
  have positive := is.canonical.positive
  have exact_eq : ((significand * 2 ^ 24 : Nat) / (10485760 : Nat) * 2 ^ (exponent - 4) : ℚ) =
      value significand exponent / 10 := by
    rw [value, zpow_sub₀ two_ne_zero]
    push_cast
    ring
  have ten_positive : 0 < 10485760 := by norm_num
  obtain ⟨lower, upper, exactly⟩ := value_div (significand * 2 ^ 24) ten_positive (exponent - 4)
  have enough : 2 ^ 23 ≤ significand * 2 ^ 24 / 10485760 := by
    rw [Nat.le_div_iff_mul_le ten_positive]
    omega
  have one : value 8388608 (-23) ≤ value significand exponent / 10 := by
    rw [value_one]
    linarith
  have accurate : ((significand * 2 ^ 24 : Nat) / (10485760 : Nat) * 2 ^ (exponent - 4) : ℚ) =
      value (significand * 2 ^ 24 / 10485760) (exponent - 4) →
        accuracyOfFraction (significand * 2 ^ 24 % 10485760) 10485760 = .exact := by
    intro same
    rw [exactly same]
    rfl
  have exact_normal : value 1 (-149) ≤ ((significand * 2 ^ 24 : Nat) / (10485760 : Nat) * 2 ^ (exponent - 4) : ℚ) := by
    rw [exact_eq]
    exact isNumber_one.canonical.least_le.trans one
  obtain ⟨rounded, power, nonzero, faithful, ran⟩ := roundWithAccuracy_faithful .positive
    (accuracyOfFraction (significand * 2 ^ 24 % 10485760) 10485760) enough lower upper accurate exact_normal
  rw [exact_eq] at faithful
  have at_most := faithful.above is.canonical (by linarith)
  have bounded := faithful.canonical.exponent_le is.canonical at_most
  have quotient : number / 10.0 = .ofModel (.pack (.finite .positive rounded power nonzero)) := by
    rw [div_ten, is.unpacked, unpack_ten, UnpackedFloat.div, divCore_ten normal small large]
    exact congrArg (fun result => Float32.ofModel (Float32.Model.pack result)) ran
  refine ⟨rounded, power, ?_, ?_, ?_⟩
  · rw [quotient]
    exact .pack faithful.canonical (bounded.trans is.bounded)
  · rw [← value_one]
    exact faithful.below isNumber_one.canonical one
  · have eighth : value significand (exponent - 3) = value significand exponent / 8 := by
      rw [value, value, zpow_sub₀ two_ne_zero]
      norm_num
      ring
    have canonical : Canonical significand (exponent - 3) := ⟨positive, small, by omega, .inr normal⟩
    rw [← eighth]
    exact faithful.above canonical (by linarith)

end Numbers

end PocketScript.Binary32
