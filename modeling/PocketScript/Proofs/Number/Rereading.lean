import PocketScript.Proofs.Number.Decimals

/-! # Numbers read back from their texts

The text of a number that is written without an exponent stands for a multiple of 0.0001
that the number was rounded to. What is read for it is no farther from that multiple than
the number itself, so it is rounded to the same multiple and has the same text. Whether it
is the same number does not matter.
-/

namespace PocketScript

open Binary32
open Float.Model (UnpackedFloat Format)

namespace Binary32

open Float.Model.UnpackedFloat (isNaNBits unpackExponent unpackMantissa)

variable {negative : Bool} {bits other : Nat} {exact : ℚ} {number : Float32}

theorem infinityBits_eq : infinityBits = fractions * 255 := by
  decide

/-- Infinity has the largest exponent and no fraction; only what is above it is no number. -/
theorem isNaNBits_eq_false {packed : BitVec Format.binary32.numBits} (within : packed.toNat % signBit ≤ infinityBits) :
    isNaNBits packed = false := by
  refine decide_eq_false fun ⟨largest, some_bit⟩ => some_bit (BitVec.eq_of_toNat_eq ?_)
  have all : (unpackExponent packed).toNat = 255 := congrArg BitVec.toNat largest
  rw [← fields_eq, all, infinityBits_eq] at within
  change _ = 0
  omega

theorem lt_signBit (within : bits ≤ infinityBits) : bits < signBit :=
  Nat.lt_of_le_of_lt within (by decide)

theorem signed_mod (negative : Bool) (within : bits ≤ infinityBits) :
    (if negative then bits + signBit else bits) % signBit = bits := by
  have small := Nat.mod_eq_of_lt (lt_signBit within)
  split
  · rw [Nat.add_mod_right, small]
  · exact small

/-- A number from its sign and its magnitude bits has those bits. -/
theorem toBits_ofMagnitude (negative : Bool) (within : bits ≤ infinityBits) :
    (ofMagnitude negative bits).toBits.toNat = if negative then bits + signBit else bits := by
  have small : (if negative then bits + signBit else bits) < 2 ^ 32 := by
    have below := lt_signBit within
    have half : signBit + signBit = 2 ^ 32 := by decide
    split <;> omega
  have value : (UInt32.ofNat (if negative then bits + signBit else bits)).toNat =
      if negative then bits + signBit else bits :=
    Nat.mod_eq_of_lt small
  let packed : BitVec Format.binary32.numBits :=
    (UInt32.ofNat (if negative then bits + signBit else bits)).toBitVec
  have magnitude_bits : packed.toNat % signBit ≤ infinityBits := by
    rwa [show packed.toNat = _ from value, signed_mod negative within]
  have kept := Float.Model.UnpackedFloat.pack_unpack packed
  rw [isNaNBits_eq_false magnitude_bits] at kept
  exact (congrArg BitVec.toNat kept).trans value

theorem magnitudeBits_ofMagnitude (negative : Bool) (within : bits ≤ infinityBits) :
    magnitudeBits (ofMagnitude negative bits) = bits := by
  rw [magnitudeBits, toBits_ofMagnitude negative within, signed_mod negative within]

theorem isNegative_ofMagnitude (negative : Bool) (within : bits ≤ infinityBits) :
    isNegative (ofMagnitude negative bits) = negative := by
  rw [isNegative, toBits_ofMagnitude negative within]
  cases negative with
  | false => exact decide_eq_false (Nat.not_le.mpr (lt_signBit within))
  | true => exact decide_eq_true (Nat.le_add_left _ _)

/-- A number between zero and infinity is finite. -/
theorem unpack_of_bits (some_bit : 0 < magnitudeBits number) (below : magnitudeBits number < infinityBits) :
    ∃ sign significand exponent positive,
      number.toModel.unpack = .finite sign significand exponent positive := by
  let packed : BitVec Format.binary32.numBits := number.toModel.toBits.toBitVec
  have fields : _ = magnitudeBits number := fields_eq packed
  rw [← fields] at some_bit below
  rw [infinityBits_eq] at below
  have finite : unpackExponent packed ≠ -1#8 := by
    intro largest
    have all : (unpackExponent packed).toNat = 255 := congrArg BitVec.toNat largest
    rw [all] at below
    omega
  have nonzero : unpackExponent packed = 0#8 → unpackMantissa packed ≠ 0#23 := by
    intro least none
    have least : (unpackExponent packed).toNat = 0 := congrArg BitVec.toNat least
    have none : (unpackMantissa packed).toNat = 0 := congrArg BitVec.toNat none
    rw [least, none] at some_bit
    omega
  rw [Float32.Model.unpack, UnpackedFloat.unpack]
  dsimp only
  rw [if_neg finite]
  split
  · next least =>
    rw [dif_neg (nonzero least)]
    exact ⟨_, _, _, Nat.pos_of_ne_zero fun none => nonzero least (BitVec.eq_of_toNat_eq none), rfl⟩
  · exact ⟨_, _, _, Nat.lt_of_lt_of_le (Nat.two_pow_pos 23) (toNat_leading _ ▸ Nat.le_add_right _ _), rfl⟩

theorem Nearest.le_of_le (nearest : Nearest exact bits) (within : other ≤ infinityBits)
    (above : exact ≤ magnitude other) : bits ≤ other := by
  by_contra less
  have farther := strictMono_magnitude (not_le.mp less)
  have near := nearest.near other within (by omega)
  rw [abs_of_nonpos (by linarith), abs_of_nonpos (by linarith)] at near
  rcases near with near | ⟨near, -⟩ <;> linarith

/-- A number beyond the middle of two neighbours is not rounded to the lower one. -/
theorem Nearest.lt_of_lt (nearest : Nearest exact bits) (within : other + 1 ≤ infinityBits)
    (beyond : magnitude other + magnitude (other + 1) < 2 * exact) : other < bits := by
  by_contra less
  have lower : magnitude bits ≤ magnitude other := strictMono_magnitude.monotone (not_lt.mp less)
  have step := strictMono_magnitude (Nat.lt_succ_self other)
  have near := nearest.near (other + 1) within (by omega)
  rw [abs_of_pos (by linarith : 0 < exact - magnitude bits)] at near
  rcases abs_cases (exact - magnitude (other + 1)) with ⟨same, -⟩ | ⟨same, -⟩ <;>
    rcases near with near | ⟨near, -⟩ <;> rw [same] at near <;> linarith

theorem Nearest.abs_le (nearest : Nearest exact bits) (within : other ≤ infinityBits) :
    |exact - magnitude bits| ≤ |exact - magnitude other| := by
  by_cases same : other = bits
  · rw [same]
  · rcases nearest.near other within same with less | ⟨equal, -⟩
    · exact less.le
    · exact equal.le

end Binary32

/-- A number that a quotient is rounded to: it is nearer than a half, or a half away and even. -/
def IsRounded (numerator denominator rounded : Nat) : Prop :=
  2 * |(numerator : Int) - rounded * denominator| < denominator ∨
    2 * |(numerator : Int) - rounded * denominator| = denominator ∧ rounded % 2 = 0

variable {numerator denominator rounded rounded' bits : Nat} {number : Float32}

theorem isRounded_roundDiv (numerator : Nat) (positive : 0 < denominator) :
    IsRounded numerator denominator (roundDiv numerator denominator) := by
  have whole : (denominator : Int) * (numerator / denominator : Nat) + (numerator % denominator : Nat) = numerator := by
    exact_mod_cast Nat.div_add_mod numerator denominator
  have rest : numerator % denominator < denominator := Nat.mod_lt numerator positive
  set quotient := numerator / denominator with quotient_eq
  set remainder := numerator % denominator with remainder_eq
  have lower : |(numerator : Int) - quotient * denominator| = remainder := by
    rw [← whole, abs_of_nonneg] <;> linarith
  have upper : |(numerator : Int) - (quotient + 1 : Nat) * denominator| = denominator - remainder := by
    rw [← whole, abs_of_nonpos] <;> push_cast <;> linarith
  rw [roundDiv, ← quotient_eq, ← remainder_eq, IsRounded]
  rcases lt_trichotomy (2 * remainder) denominator with less | equal | greater
  · rw [if_pos less, lower]
    omega
  · rw [if_neg equal.not_lt, if_neg equal.not_gt]
    rcases Nat.mod_two_eq_zero_or_one quotient with even | odd
    · rw [even, Nat.add_zero, lower]
      omega
    · rw [odd, upper]
      omega
  · rw [if_neg (Nat.lt_asymm greater), if_pos greater, upper]
    omega

/-- A quotient is rounded by a half at most. -/
theorem IsRounded.bounds (rounds : IsRounded numerator denominator rounded) :
    2 * (rounded * denominator) ≤ 2 * numerator + denominator ∧
      2 * numerator ≤ 2 * (rounded * denominator) + denominator := by
  have above := le_abs_self ((numerator : Int) - rounded * denominator)
  have below := neg_abs_le ((numerator : Int) - rounded * denominator)
  rw [IsRounded] at rounds
  zify
  omega

/-- Two numbers that are no more than a half away are neighbours, and one of them is odd. -/
theorem IsRounded.unique (positive : 0 < denominator) (first : IsRounded numerator denominator rounded)
    (second : IsRounded numerator denominator rounded') : rounded = rounded' := by
  wlog less : rounded < rounded' generalizing rounded rounded'
  · rcases lt_trichotomy rounded rounded' with below | same | above
    · exact absurd below less
    · exact same
    · exact (this second first above).symm
  obtain ⟨gap, rfl⟩ := Nat.exists_eq_add_of_lt less
  have apart : (numerator : Int) - rounded * denominator -
      (numerator - (rounded + gap + 1 : Nat) * denominator) = gap * denominator + denominator := by
    push_cast
    ring
  have reach := abs_sub ((numerator : Int) - rounded * denominator)
    (numerator - (rounded + gap + 1 : Nat) * denominator)
  have wide : (0 : Int) ≤ gap * denominator := by positivity
  rw [apart, abs_of_nonneg (by omega)] at reach
  rw [IsRounded] at first second
  have adjacent : gap = 0 := by
    by_contra some_gap
    have : (denominator : Int) ≤ gap * denominator := le_mul_of_one_le_left (by omega) (by omega)
    omega
  subst adjacent
  omega

/-- What is no farther from a rounded number is rounded to the same. -/
theorem roundDiv_of_nearer {numerator' : Nat} (positive : 0 < denominator)
    (nearer : |(numerator' : Int) - roundDiv numerator denominator * denominator| ≤
      |(numerator : Int) - roundDiv numerator denominator * denominator|) :
    roundDiv numerator' denominator = roundDiv numerator denominator := by
  refine (isRounded_roundDiv numerator' positive).unique positive ?_
  have here := isRounded_roundDiv numerator positive
  rw [IsRounded] at here ⊢
  omega

/-- What is at least a multiple of the denominator is not rounded to less. -/
theorem le_roundDiv (positive : 0 < denominator) (least : rounded * denominator ≤ numerator) :
    rounded ≤ roundDiv numerator denominator := by
  have bounds := (isRounded_roundDiv numerator positive).bounds
  by_contra less
  have few := Nat.mul_le_mul_right denominator (Nat.succ_le_of_lt (not_le.mp less))
  rw [Nat.succ_mul] at few
  omega

/-- What is at most a multiple of the denominator is not rounded to more. -/
theorem roundDiv_le (positive : 0 < denominator) (most : numerator ≤ rounded * denominator) :
    roundDiv numerator denominator ≤ rounded := by
  have bounds := (isRounded_roundDiv numerator positive).bounds
  by_contra greater
  have many := Nat.mul_le_mul_right denominator (Nat.succ_le_of_lt (not_le.mp greater))
  rw [Nat.succ_mul] at many
  omega

/-- The magnitude bits of 0.001, or rather of the number nearest to it. -/
def leastPlainBits : Nat := 0x3a83126f

/-- The magnitude bits of 10⁷. -/
def mostPlainBits : Nat := 0x4b189680

/-- A number from 0.001 to 10⁷, whatever its sign. -/
structure IsPlain (number : Float32) : Prop where
  least : leastPlainBits ≤ magnitudeBits number
  most : magnitudeBits number ≤ mostPlainBits

theorem unpack_least : (0.001 : Float32).toModel.unpack = .finite .positive 8589935 (-33) (by decide) :=
  rfl

theorem unpack_most : (10000000.0 : Float32).toModel.unpack = .finite .positive 10000000 0 (by decide) :=
  rfl

theorem isNumber_least : IsNumber 0.001 8589935 (-33) :=
  .ofUnpacked unpack_least

theorem isNumber_most : IsNumber 10000000.0 10000000 0 :=
  .ofUnpacked unpack_most

theorem value_of_unpack {sign : UnpackedFloat.Sign} {significand : Nat} {exponent : Int} {positive : 0 < significand}
    (unpacked : number.toModel.unpack = .finite sign significand exponent positive) :
    IsNumber number.abs significand exponent ∧ value significand exponent = magnitude (magnitudeBits number) := by
  obtain ⟨canonical, bounded, units_eq⟩ := unpack_finite unpacked
  have is : IsNumber number.abs significand exponent := by
    rw [abs_eq, unpacked]
    exact .pack canonical bounded
  have same : units number = units number.abs := units_eq.trans is.units_eq.symm
  refine ⟨is, ?_⟩
  rw [magnitude, eq_div_iff (by positivity), ← is.units_value, ← same]
  rfl

theorem value_least : value 8589935 (-33) = magnitude leastPlainBits := by
  have bits : magnitudeBits 0.001 = leastPlainBits := rfl
  rw [← bits]
  exact (value_of_unpack unpack_least).2

theorem value_most : value 10000000 0 = magnitude mostPlainBits := by
  have bits : magnitudeBits 10000000.0 = mostPlainBits := rfl
  rw [← bits]
  exact (value_of_unpack unpack_most).2

theorem IsPlain.unpack (plain : IsPlain number) : ∃ sign significand exponent positive,
    number.toModel.unpack = .finite sign significand exponent positive :=
  unpack_of_bits (Nat.lt_of_lt_of_le (by decide) plain.least) (Nat.lt_of_le_of_lt plain.most (by decide))

theorem isPlain_iff : IsPlain number ↔ 0.001 ≤ number.abs ∧ number.abs ≤ 10000000.0 := by
  have finite {sign : UnpackedFloat.Sign} {significand : Nat} {exponent : Int} {positive : 0 < significand}
      (unpacked : number.toModel.unpack = .finite sign significand exponent positive) :
      IsPlain number ↔ 0.001 ≤ number.abs ∧ number.abs ≤ 10000000.0 := by
    obtain ⟨is, same⟩ := value_of_unpack unpacked
    rw [isNumber_least.le_iff is, is.le_iff isNumber_most, same, value_least, value_most,
      strictMono_magnitude.le_iff_le, strictMono_magnitude.le_iff_le]
    exact ⟨fun plain => ⟨plain.least, plain.most⟩, fun ⟨least, most⟩ => ⟨least, most⟩⟩
  constructor
  · intro plain
    obtain ⟨sign, significand, exponent, positive, unpacked⟩ := plain.unpack
    exact (finite unpacked).mp plain
  · intro within
    cases unpacked : number.toModel.unpack with
    | finite => exact (finite unpacked).mpr within
    | notANumber | infinity _ =>
        rw [abs_eq, unpacked, UnpackedFloat.abs] at within
        exact absurd within.2 (by decide)
    | zero _ =>
        rw [abs_eq, unpacked, UnpackedFloat.abs] at within
        exact absurd within.1 (by decide)

theorem isScientific_eq_false_iff {significand : Nat} {exponent : Int} (is : IsNumber number significand exponent) :
    isScientific number = false ↔ 0.001 ≤ number ∧ number ≤ 10000000.0 := by
  rw [isScientific, Bool.or_eq_false_iff, decide_eq_false_iff_not, decide_eq_false_iff_not, isNumber_most.lt_iff is,
    is.lt_iff isNumber_least, isNumber_least.le_iff is, is.le_iff isNumber_most, not_lt, not_lt, and_comm]

/-- A finite number is nothing that has a text of its own. -/
theorem ordinary_of_unpack {sign : UnpackedFloat.Sign} {significand : Nat} {exponent : Int} {positive : 0 < significand}
    (unpacked : number.toModel.unpack = .finite sign significand exponent positive) :
    number.isNaN = false ∧ number.isInf = false ∧ (number == 0.0) = false := by
  change number.toModel.unpack.isNaN = false ∧ number.toModel.unpack.isInf = false ∧
    number.toModel.unpack.beq (.zero .positive) = false
  rw [unpacked]
  cases sign <;> exact ⟨rfl, rfl, rfl⟩

/-- How such a number is written. -/
theorem writeNumber_plain (plain : IsPlain number) : writeNumber number =
    String.ofList (withSign (isNegative number) (writeTrimmed (tenThousandths (units number)))) := by
  obtain ⟨sign, significand, exponent, positive, unpacked⟩ := plain.unpack
  have small : isScientific number.abs = false :=
    (isScientific_eq_false_iff (value_of_unpack unpacked).1).mpr (isPlain_iff.mp plain)
  obtain ⟨no_nan, bounded, nonzero⟩ := ordinary_of_unpack unpacked
  rw [writeNumber, no_nan, bounded, nonzero, small]
  rfl

/-- No number of the range is rounded to a count out of it. -/
theorem IsPlain.count_bounds (plain : IsPlain number) :
    10 ≤ tenThousandths (units number) ∧ tenThousandths (units number) ≤ 100000000000 := by
  have positive : 0 < unitsPerOne := Nat.two_pow_pos 149
  have least : 10 * unitsPerOne ≤ unitsOfBits leastPlainBits * 10000 := by decide
  have most : unitsOfBits mostPlainBits * 10000 ≤ 100000000000 * unitsPerOne := by decide
  have lower : unitsOfBits leastPlainBits ≤ units number := strictMono_unitsOfBits.monotone plain.least
  have upper : units number ≤ unitsOfBits mostPlainBits := strictMono_unitsOfBits.monotone plain.most
  exact ⟨le_roundDiv positive (least.trans (Nat.mul_le_mul_right _ lower)),
    roundDiv_le positive ((Nat.mul_le_mul_right _ upper).trans most)⟩

/-- 0.001 lies nearer to the least number of the range than to the one before. -/
theorem least_middle : magnitude (leastPlainBits - 1) + magnitude (leastPlainBits - 1 + 1) < 2 * (1 / 1000) := by
  have before : unitsOfBits (leastPlainBits - 1) = 8589934 * 2 ^ 116 := by decide
  have here : unitsOfBits (leastPlainBits - 1 + 1) = 8589935 * 2 ^ 116 := by decide
  rw [magnitude, magnitude, before, here]
  norm_num

/-- The distance of a number from a count of ten-thousandths, in units of a ten-thousandth. -/
theorem distance_eq (count bits : Nat) : |(count / 10000 : ℚ) - magnitude bits| * (10000 * 2 ^ 149) =
    |((unitsOfBits bits * 10000 : Nat) : ℚ) - (count : Nat) * (unitsPerOne : Nat)| := by
  have unit : (unitsPerOne : ℚ) = 2 ^ 149 := by norm_num [unitsPerOne]
  have positive : (0 : ℚ) < 10000 * 2 ^ 149 := by positivity
  rw [abs_sub_comm, ← abs_of_pos positive, ← abs_mul, magnitude, unit]
  congr 1
  push_cast
  field_simp

/-- What is read for such a number is in the range too, and is rounded to the same count. -/
theorem IsPlain.reread (plain : IsPlain number) (negative : Bool)
    (nearest : Nearest (tenThousandths (units number) / 10000) bits) :
    IsPlain (ofMagnitude negative bits) ∧
      tenThousandths (units (ofMagnitude negative bits)) = tenThousandths (units number) := by
  obtain ⟨least, most⟩ := plain.count_bounds
  have same := magnitudeBits_ofMagnitude negative nearest.within
  have tenth : (10 : ℚ) ≤ tenThousandths (units number) := by exact_mod_cast least
  have million : (tenThousandths (units number) : ℚ) ≤ 100000000000 := by exact_mod_cast most
  refine ⟨⟨?_, ?_⟩, ?_⟩
  · rw [same]
    exact nearest.lt_of_lt (by decide) (least_middle.trans_le (by linarith))
  · rw [same]
    refine nearest.le_of_le (by decide) ?_
    rw [← value_most]
    norm_num [value]
    linarith
  · have closer := nearest.abs_le (plain.most.trans (by decide : mostPlainBits ≤ infinityBits))
    refine roundDiv_of_nearer (Nat.two_pow_pos 149) ?_
    have closer := mul_le_mul_of_nonneg_right closer (by positivity : (0 : ℚ) ≤ 10000 * 2 ^ 149)
    rw [distance_eq, distance_eq, ← same] at closer
    exact_mod_cast closer

theorem writeNumber_zero (zero : (number == 0.0) = true) : writeNumber number = "0" := by
  have unpacked : number.toModel.unpack.beq (.zero .positive) = true := zero
  have ordinary : number.isNaN = false ∧ number.isInf = false := by
    change number.toModel.unpack.isNaN = false ∧ number.toModel.unpack.isInf = false
    cases same : number.toModel.unpack with
    | zero _ | finite => exact ⟨rfl, rfl⟩
    | notANumber =>
        rw [same] at unpacked
        cases unpacked
    | infinity sign =>
        rw [same] at unpacked
        cases sign <;> cases unpacked
  rw [writeNumber, ordinary.1, ordinary.2, zero]
  rfl

theorem writeNumber_reread_zero : writeNumber (readNumber (Text.toBytes "0")) = "0" := by
  decide +kernel

/-- A number from 0.001 to 10⁷ has the same text as what is read for its text, and so has zero. -/
theorem writeNumber_readNumber (plain : (number == 0.0) = true ∨ 0.001 ≤ number.abs ∧ number.abs ≤ 10000000.0) :
    writeNumber (readNumber (Text.toBytes (writeNumber number))) = writeNumber number := by
  rcases plain with zero | plain
  · rw [writeNumber_zero zero, writeNumber_reread_zero]
  · have plain := isPlain_iff.mpr plain
    obtain ⟨bits, nearest, reads⟩ :=
      readNumber_writeTrimmed (isNegative number) (tenThousandths (units number))
    obtain ⟨plain', same⟩ := plain.reread (isNegative number) nearest
    rw [writeNumber_plain plain, reads, writeNumber_plain plain', same, isNegative_ofMagnitude _ nearest.within]

/-- -0.03125 is half way between two counts and is written as the even one. What is read for
    that is another number, with the same text. -/
theorem writeNumber_readNumber_halfway :
    let number := Float32.ofBits 0xbd000000
    (0.001 ≤ number.abs ∧ number.abs ≤ 10000000.0) ∧ writeNumber number = "-0.0312" ∧
      (readNumber (Text.toBytes "-0.0312") == number) = false ∧
      writeNumber (readNumber (Text.toBytes "-0.0312")) = "-0.0312" := by
  intro number
  have within : 0.001 ≤ number.abs ∧ number.abs ≤ 10000000.0 := by decide +kernel
  have text : writeNumber number = "-0.0312" := by decide +kernel
  have again := writeNumber_readNumber (.inr within)
  rw [text] at again
  exact ⟨within, text, by decide +kernel, again⟩

end PocketScript
