import PocketScript.Proofs.Number.Scientific

/-! # The nearest number

Rounding a quotient gives the binary32 number nearest to it, and the one with even bits
if two are equally near. The larger the bits of a magnitude, the larger the number, so
only the two neighbours of the quotient need to be compared.
-/

namespace PocketScript.Binary32

variable {bits rounded : Nat} {exact : ℚ}

/-- The number that magnitude bits stand for. Infinity counts as the power of two behind
    the largest finite number. -/
def magnitude (bits : Nat) : ℚ :=
  unitsOfBits bits / 2 ^ 149

/-- The bits of the number nearest to an exact one, or of the even one of two that are
    equally near. -/
structure Nearest (exact : ℚ) (bits : Nat) : Prop where
  within : bits ≤ infinityBits
  near : ∀ other ≤ infinityBits, other ≠ bits →
    |exact - magnitude bits| < |exact - magnitude other| ∨
      |exact - magnitude bits| = |exact - magnitude other| ∧ bits % 2 = 0

/-- A significand and a power of two as bits. A significand that has one bit too many
    carries into the power. -/
theorem unitsOfBits_scaled {power significand : Nat} (short : significand ≤ 2 * fractions)
    (full : power = 0 ∨ fractions ≤ significand) :
    unitsOfBits (power * fractions + significand) = significand * 2 ^ power := by
  have positive : 0 < fractions := by decide
  rcases Nat.lt_or_ge significand fractions with small | large
  · obtain rfl : power = 0 := full.resolve_right (Nat.not_le.mpr small)
    rw [Nat.zero_mul, Nat.zero_add, unitsOfBits_subnormal small, Nat.pow_zero, Nat.mul_one]
  · rcases Nat.lt_or_ge significand (2 * fractions) with below | equal
    · have split : power * fractions + significand = fractions * (power + 1) + (significand - fractions) := by
        rw [Nat.mul_add, Nat.mul_comm fractions power]
        omega
      rw [split, unitsOfBits_normal (by omega) (Nat.add_one_ne_zero power), Nat.add_sub_cancel,
        Nat.add_sub_cancel' large]
    · obtain rfl : significand = 2 * fractions := by omega
      have split : power * fractions + 2 * fractions = fractions * (power + 2) + 0 := by
        rw [Nat.mul_add, Nat.mul_comm fractions power]
        omega
      rw [split, unitsOfBits_normal positive (Nat.succ_ne_zero _), Nat.add_zero]
      change fractions * 2 ^ (power + 1) = _
      rw [Nat.pow_succ, Nat.mul_comm 2 fractions, Nat.mul_assoc, Nat.mul_comm 2]

/-- All bits are a significand and a power of two. -/
theorem exists_scaled (bits : Nat) :
    ∃ power significand, bits = power * fractions + significand ∧ significand < 2 * fractions ∧
      (power = 0 ∨ fractions ≤ significand) := by
  have positive : 0 < fractions := by decide
  rcases Nat.lt_or_ge bits fractions with small | large
  · exact ⟨0, bits, by omega, by omega, .inl rfl⟩
  · have split := Nat.div_add_mod' bits fractions
    have short := Nat.mod_lt bits positive
    have some_power : 1 ≤ bits / fractions := (Nat.one_le_div_iff positive).mpr large
    refine ⟨bits / fractions - 1, bits % fractions + fractions, ?_, by omega, .inr (Nat.le_add_left _ _)⟩
    rw [Nat.sub_mul, Nat.one_mul]
    have more := Nat.le_mul_of_pos_left fractions some_power
    omega

theorem strictMono_unitsOfBits : StrictMono unitsOfBits := by
  refine strictMono_nat_of_lt_succ fun bits => ?_
  obtain ⟨power, significand, rfl, short, full⟩ := exists_scaled bits
  rw [Nat.add_assoc, unitsOfBits_scaled short.le full, unitsOfBits_scaled short (full.imp_right Nat.le_succ_of_le)]
  exact Nat.mul_lt_mul_of_pos_right (Nat.lt_succ_self _) (Nat.two_pow_pos _)

theorem strictMono_magnitude : StrictMono magnitude := by
  intro bits other less
  have units : ((unitsOfBits bits : Nat) : ℚ) < unitsOfBits other := Nat.cast_lt.mpr (strictMono_unitsOfBits less)
  exact div_lt_div_of_pos_right units (by positivity)

theorem magnitude_zero : magnitude 0 = 0 := by
  have none : unitsOfBits 0 = 0 := by decide
  rw [magnitude, none, Nat.cast_zero, zero_div]

theorem magnitude_one : magnitude 1 = 1 / 2 ^ 149 := by
  have unit : unitsOfBits 1 = 1 := by decide
  rw [magnitude, unit, Nat.cast_one]

theorem magnitude_infinityBits : magnitude infinityBits = 2 ^ 128 := by
  have units : unitsOfBits infinityBits = 2 ^ 277 := by decide +kernel
  have split : (2 : ℚ) ^ 277 = 2 ^ 128 * 2 ^ 149 := (pow_add 2 128 149)
  rw [magnitude, units, Nat.cast_pow, Nat.cast_ofNat, split, mul_div_cancel_right₀ _ (by positivity)]

/-- Which of the two neighbours of an exact number it is rounded to. -/
inductive Chosen (exact : ℚ) (bits : Nat) : (rounded : Nat) → Prop where
  | lower (nearer : exact - magnitude bits < magnitude (bits + 1) - exact) : Chosen exact bits bits
  | upper (nearer : magnitude (bits + 1) - exact < exact - magnitude bits) : Chosen exact bits (bits + 1)
  | even {rounded : Nat} (equal : exact - magnitude bits = magnitude (bits + 1) - exact)
      (neighbour : rounded = bits ∨ rounded = bits + 1) (even : rounded % 2 = 0) : Chosen exact bits rounded

/-- Any other number is a neighbour or behind one. -/
theorem neighbour_or_farther (lower : magnitude bits ≤ exact) (upper : exact < magnitude (bits + 1)) (other : Nat) :
    (other = bits ∨ exact - magnitude bits < |exact - magnitude other|) ∧ other ≤ bits ∨
      (other = bits + 1 ∨ magnitude (bits + 1) - exact < |exact - magnitude other|) ∧ bits < other := by
  rcases lt_trichotomy other bits with less | rfl | greater
  · have smaller := strictMono_magnitude less
    refine .inl ⟨.inr ?_, less.le⟩
    rw [abs_of_nonneg (by linarith)]
    linarith
  · exact .inl ⟨.inl rfl, le_rfl⟩
  · rcases (Nat.add_one_le_of_lt greater).eq_or_lt with rfl | behind
    · exact .inr ⟨.inl rfl, greater⟩
    · have larger := strictMono_magnitude behind
      refine .inr ⟨.inr ?_, greater⟩
      rw [abs_sub_comm, abs_of_nonneg (by linarith)]
      linarith

/-- A number between two neighbours is nearer to them than to all others. -/
theorem Chosen.near (chosen : Chosen exact bits rounded) (lower : magnitude bits ≤ exact)
    (upper : exact < magnitude (bits + 1)) {other : Nat} (different : other ≠ rounded) :
    |exact - magnitude rounded| < |exact - magnitude other| ∨
      |exact - magnitude rounded| = |exact - magnitude other| ∧ rounded % 2 = 0 := by
  have below : |exact - magnitude bits| = exact - magnitude bits := abs_of_nonneg (sub_nonneg.mpr lower)
  have above : |exact - magnitude (bits + 1)| = magnitude (bits + 1) - exact := by
    rw [abs_sub_comm]
    exact abs_of_pos (sub_pos.mpr upper)
  have far := neighbour_or_farther lower upper other
  cases chosen with
  | lower nearer =>
      rw [below]
      rcases far with ⟨rfl | less, -⟩ | ⟨rfl | less, -⟩
      · exact absurd rfl different
      · exact .inl less
      · rw [above]
        exact .inl nearer
      · exact .inl (nearer.trans less)
  | upper nearer =>
      rw [above]
      rcases far with ⟨rfl | less, -⟩ | ⟨rfl | less, -⟩
      · rw [below]
        exact .inl nearer
      · exact .inl (nearer.trans less)
      · exact absurd rfl different
      · exact .inl less
  | even equal neighbour even =>
      have distance : |exact - magnitude rounded| = exact - magnitude bits := by
        rcases neighbour with rfl | rfl
        · exact below
        · rw [above, equal]
      rw [distance]
      rcases far with ⟨rfl | less, -⟩ | ⟨rfl | less, -⟩
      · exact .inr ⟨below.symm, even⟩
      · exact .inl less
      · exact .inr ⟨by rw [above, equal], even⟩
      · exact .inl (equal ▸ less)

/-- All numbers from infinity on are rounded to it. -/
theorem nearest_infinity (large : 2 ^ 128 ≤ exact) : Nearest exact infinityBits := by
  refine ⟨le_rfl, fun other within different => .inl ?_⟩
  have less := strictMono_magnitude (lt_of_le_of_ne within different)
  rw [← magnitude_infinityBits] at large
  rw [abs_of_nonneg (sub_nonneg.mpr large), abs_of_nonneg (by linarith)]
  linarith

/-- All numbers below half a unit vanish. -/
theorem nearest_zero (least : 0 ≤ exact) (small : exact < 1 / 2 ^ 150) : Nearest exact 0 := by
  refine ⟨Nat.zero_le _, fun other within different => .inl ?_⟩
  have unit := strictMono_magnitude.monotone (Nat.one_le_iff_ne_zero.mpr different)
  have half : (1 : ℚ) / 2 ^ 149 = 2 * (1 / 2 ^ 150) := by norm_num
  rw [magnitude_one, half] at unit
  rw [magnitude_zero, sub_zero, abs_of_nonneg least, abs_sub_comm, abs_of_nonneg (by linarith)]
  linarith

/-- The neighbour that was chosen, or infinity if that is behind it, is the nearest number. -/
theorem Chosen.nearest (chosen : Chosen exact bits rounded) (lower : magnitude bits ≤ exact)
    (upper : exact < magnitude (bits + 1)) : Nearest exact (min rounded infinityBits) := by
  rcases Nat.lt_or_ge infinityBits rounded with behind | within
  · rw [min_eq_right behind.le]
    have between : infinityBits ≤ bits := by
      cases chosen with
      | lower _ => exact behind.le
      | upper _ => exact Nat.le_of_lt_succ behind
      | even _ neighbour _ => omega
    refine nearest_infinity ?_
    rw [← magnitude_infinityBits]
    exact (strictMono_magnitude.monotone between).trans lower
  · rw [min_eq_left within]
    exact ⟨within, fun other _ different => chosen.near lower upper different⟩

/-- How far a quotient is from the two neighbours around its whole part: the remainder, and
    what the remainder lacks. -/
theorem distance_neighbours {numerator denominator power : Nat} (positive : 0 < denominator)
    (short : numerator / (denominator * 2 ^ power) < 2 * fractions)
    (full : power = 0 ∨ fractions ≤ numerator / (denominator * 2 ^ power)) :
    let exact : ℚ := numerator / (denominator * 2 ^ 149)
    let width := denominator * 2 ^ power
    let bits := power * fractions + numerator / width
    exact - magnitude bits = (numerator % width : Nat) / (denominator * 2 ^ 149) ∧
      magnitude (bits + 1) - exact = (width - numerator % width : Nat) / (denominator * 2 ^ 149) := by
  intro exact width bits
  have some_width : 0 < width := Nat.mul_pos positive (Nat.two_pow_pos power)
  have split : width * (numerator / width) + numerator % width = numerator := Nat.div_add_mod numerator width
  have remains : numerator % width < width := Nat.mod_lt numerator some_width
  have some_denominator : (0 : ℚ) < denominator := Nat.cast_pos.mpr positive
  have scaled (significand : Nat) (short : significand ≤ 2 * fractions) (full : power = 0 ∨ fractions ≤ significand) :
      magnitude (power * fractions + significand) = significand * width / (denominator * 2 ^ 149) := by
    rw [magnitude, unitsOfBits_scaled short full, show width = denominator * 2 ^ power from rfl]
    push_cast
    field_simp
  have lower_eq : magnitude bits = (numerator / width : Nat) * width / (denominator * 2 ^ 149) :=
    scaled (numerator / width) short.le full
  have next : bits + 1 = power * fractions + (numerator / width + 1) := Nat.add_assoc _ _ _
  have upper_eq : magnitude (bits + 1) = (numerator / width + 1 : Nat) * width / (denominator * 2 ^ 149) := by
    rw [next]
    exact scaled (numerator / width + 1) short (full.imp_right Nat.le_succ_of_le)
  have exact_eq : exact = (numerator / width * width + numerator % width : Nat) / (denominator * 2 ^ 149) := by
    rw [Nat.mul_comm (numerator / width), split]
  constructor
  · rw [exact_eq, lower_eq]
    push_cast
    ring
  · rw [exact_eq, upper_eq, Nat.cast_sub remains.le]
    push_cast
    ring

/-- The quotient of two numbers lies between the two neighbours around its whole part, and
    rounding the quotient chooses between them. -/
theorem chosen_roundDiv {numerator denominator power : Nat} (positive : 0 < denominator)
    (short : numerator / (denominator * 2 ^ power) < 2 * fractions)
    (full : power = 0 ∨ fractions ≤ numerator / (denominator * 2 ^ power)) :
    let exact : ℚ := numerator / (denominator * 2 ^ 149)
    let bits := power * fractions + numerator / (denominator * 2 ^ power)
    magnitude bits ≤ exact ∧ exact < magnitude (bits + 1) ∧
      Chosen exact bits (power * fractions + roundDiv numerator (denominator * 2 ^ power)) := by
  intro exact bits
  obtain ⟨below, above⟩ := distance_neighbours positive short full
  change exact - magnitude bits = _ at below
  change magnitude (bits + 1) - exact = _ at above
  set width := denominator * 2 ^ power
  set quotient := numerator / width
  set rest := numerator % width
  set unit : ℚ := denominator * 2 ^ 149
  have remains : rest < width := Nat.mod_lt numerator (Nat.mul_pos positive (Nat.two_pow_pos power))
  have some_denominator : (0 : ℚ) < denominator := Nat.cast_pos.mpr positive
  have some_unit : 0 < unit := by positivity
  have lower : magnitude bits ≤ exact := by
    rw [← sub_nonneg, below]
    positivity
  have upper : exact < magnitude (bits + 1) := by
    rw [← sub_pos, above]
    have some_rest : (0 : ℚ) < (width - rest : Nat) := Nat.cast_pos.mpr (by omega)
    positivity
  refine ⟨lower, upper, ?_⟩
  have compare {first second : Nat} : (first : ℚ) / unit < second / unit ↔ first < second := by
    rw [div_lt_div_iff_of_pos_right some_unit, Nat.cast_lt]
  rw [roundDiv]
  rcases lt_trichotomy (2 * rest) width with less | equal | greater
  · rw [if_pos less]
    refine .lower ?_
    rw [below, above, compare]
    omega
  · rw [if_neg equal.not_lt, if_neg equal.not_gt]
    refine .even ?_ ?_ ?_
    · rw [below, above, show width - rest = rest by omega]
    · rcases Nat.mod_two_eq_zero_or_one quotient with even | odd
      · exact .inl (by rw [even, Nat.add_zero])
      · exact .inr (by rw [odd, ← Nat.add_assoc])
    · have even : fractions % 2 = 0 := by decide
      rw [Nat.add_mod, Nat.mul_mod, even, Nat.mul_zero, Nat.zero_mod, Nat.zero_add]
      omega
  · rw [if_neg (Nat.lt_asymm greater), if_pos greater]
    have next : power * fractions + (quotient + 1) = bits + 1 := (Nat.add_assoc _ _ _).symm
    rw [next]
    refine .upper ?_
    rw [below, above, compare]
    omega

/-- The nearest number to a quotient. -/
theorem nearest_nearestBits (numerator : Nat) {denominator : Nat} (positive : 0 < denominator) :
    Nearest (numerator / denominator) (nearestBits numerator denominator) := by
  set scaled := numerator * unitsPerOne with scaled_eq
  set power := (scaled / denominator).log2 - 23 with power_eq
  have whole : scaled / (denominator * 2 ^ power) = scaled / denominator / 2 ^ power := by
    rw [Nat.div_div_eq_div_mul]
  have bits : fractions = 2 ^ 23 := rfl
  have short : scaled / (denominator * 2 ^ power) < 2 * fractions := by
    rw [whole, bits]
    apply Nat.div_lt_of_lt_mul
    calc scaled / denominator < 2 ^ ((scaled / denominator).log2 + 1) := Nat.lt_log2_self
      _ ≤ 2 ^ (power + 24) := Nat.pow_le_pow_right two_pos (by omega)
      _ = 2 ^ power * (2 * 2 ^ 23) := by rw [Nat.pow_add, ← Nat.pow_succ']
  have full : power = 0 ∨ fractions ≤ scaled / (denominator * 2 ^ power) := by
    rcases Nat.eq_zero_or_pos power with none | some_power
    · exact .inl none
    · have nonzero : scaled / denominator ≠ 0 := by
        intro zero
        rw [power_eq, zero] at some_power
        simp at some_power
      refine .inr ?_
      rw [whole, bits, Nat.le_div_iff_mul_le (Nat.two_pow_pos _), ← Nat.pow_add]
      exact (Nat.pow_le_pow_right two_pos (by omega)).trans (Nat.log2_self_le nonzero)
  obtain ⟨lower, upper, chosen⟩ := chosen_roundDiv positive short full
  have same : (scaled / (denominator * 2 ^ 149) : ℚ) = numerator / denominator := by
    have some_denominator : (denominator : ℚ) ≠ 0 := Nat.cast_ne_zero.mpr positive.ne'
    have units : (scaled : ℚ) = numerator * 2 ^ 149 := by
      rw [scaled_eq, Nat.cast_mul, unitsPerOne]
      norm_num
    rw [units]
    field_simp
  rw [same] at lower upper chosen
  exact chosen.nearest lower upper

end PocketScript.Binary32
