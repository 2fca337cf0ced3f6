import PocketScript.Number.Reading
import PocketScript.Proofs.Number.Nearest

/-! # Digits

What digits, a point and an exponent spell, exactly, and that it is rounded to the
nearest number: also where the digits are not looked at, since so many of them are
before the point or so many zeros behind it.
-/

namespace PocketScript.Numeral

open Binary32 (Nearest)

variable {digits digits' rest : List UInt8} {numeral : Numeral}

/-- Digits that end where other bytes start. -/
theorem splitDigits_append (all : ∀ byte ∈ digits, Symbol.isDigit byte = true)
    (stops : ∀ byte ∈ rest.head?, Symbol.isDigit byte = false) : splitDigits (digits ++ rest) = (digits, rest) := by
  rw [splitDigits, List.takeWhile_append_of_pos all, List.dropWhile_append_of_pos all]
  cases rest with
  | nil => simp
  | cons byte rest => simp [stops byte rfl]

theorem foldl_digits (start : Nat) (digits : List UInt8) :
    digits.foldl (fun value digit => value * 10 + (digit.toNat - 0x30)) start =
      start * 10 ^ digits.length + ofDigits digits := by
  induction digits generalizing start with
  | nil => simp [ofDigits]
  | cons digit digits ih =>
      have whole : ofDigits (digit :: digits) =
          (0 * 10 + (digit.toNat - 0x30)) * 10 ^ digits.length + ofDigits digits :=
        ih _
      rw [List.foldl_cons, ih, whole, List.length_cons, Nat.pow_succ]
      ring

theorem ofDigits_cons (digit : UInt8) (digits : List UInt8) :
    ofDigits (digit :: digits) = (digit.toNat - 0x30) * 10 ^ digits.length + ofDigits digits := by
  rw [ofDigits, List.foldl_cons, foldl_digits, Nat.zero_mul, Nat.zero_add]

theorem ofDigits_append (digits digits' : List UInt8) :
    ofDigits (digits ++ digits') = ofDigits digits * 10 ^ digits'.length + ofDigits digits' := by
  rw [ofDigits, List.foldl_append, foldl_digits]
  rfl

theorem isDigit_iff (byte : UInt8) : Symbol.isDigit byte = true ↔ 0x30 ≤ byte.toNat ∧ byte.toNat ≤ 0x39 := by
  simp [Symbol.isDigit, UInt8.le_iff_toNat_le]

theorem ofDigits_lt (all : ∀ byte ∈ digits, Symbol.isDigit byte = true) : ofDigits digits < 10 ^ digits.length := by
  induction digits with
  | nil => decide
  | cons digit digits ih =>
      obtain ⟨least, most⟩ := (isDigit_iff digit).mp (all digit List.mem_cons_self)
      have below := ih fun byte mem => all byte (List.mem_cons_of_mem _ mem)
      have nine : (digit.toNat - 0x30) * 10 ^ digits.length ≤ 9 * 10 ^ digits.length :=
        Nat.mul_le_mul_right _ (by omega)
      rw [ofDigits_cons, List.length_cons, Nat.pow_succ]
      omega

/-- Zeros in front count nothing. -/
theorem ofDigits_dropWhile (digits : List UInt8) : ofDigits (digits.dropWhile (· == 0x30)) = ofDigits digits := by
  induction digits with
  | nil => rfl
  | cons digit digits ih =>
      by_cases zero : digit = 0x30
      · subst zero
        rw [List.dropWhile_cons_of_pos (by simp), ih, ofDigits_cons]
        simp
      · rw [List.dropWhile_cons_of_neg (by simpa using zero)]

/-- The first of the digits that count. -/
theorem le_ofDigits (all : ∀ byte ∈ digits, Symbol.isDigit byte = true)
    (some_digit : ofDigits digits ≠ 0) :
    10 ^ (digits.dropWhile (· == 0x30)).length ≤ 10 * ofDigits digits := by
  rw [← ofDigits_dropWhile] at some_digit ⊢
  cases counting : digits.dropWhile (· == 0x30) with
  | nil =>
      rw [counting] at some_digit
      exact absurd rfl some_digit
  | cons digit rest =>
      have mem : digit ∈ digits := (List.dropWhile_sublist _).subset (by rw [counting]; exact List.mem_cons_self)
      obtain ⟨least, -⟩ := (isDigit_iff digit).mp (all digit mem)
      have nonzero : ¬ (digit == 0x30) = true := by
        have head := List.head?_dropWhile_not (· == 0x30) digits
        rw [counting] at head
        simpa using head
      have one : 1 ≤ digit.toNat - 0x30 := by
        have different : digit.toNat ≠ 0x30 := fun same => nonzero (by simpa using UInt8.toNat_inj.mp same)
        omega
      have leading := Nat.mul_le_mul_right (10 ^ rest.length) one
      rw [ofDigits_cons, List.length_cons, Nat.pow_succ]
      omega

/-- Passing over digits of an exponent leaves it large, and makes it no larger. -/
theorem ofExponentDigits_cases (digits : List UInt8) : ofExponentDigits digits = ofDigits digits ∨
    65536 ≤ ofExponentDigits digits ∧ ofExponentDigits digits ≤ ofDigits digits := by
  induction digits using List.reverseRecOn with
  | nil => exact .inl rfl
  | append_singleton digits digit ih =>
      have capped : ofExponentDigits (digits ++ [digit]) = if ofExponentDigits digits < 65536
          then ofExponentDigits digits * 10 + (digit.toNat - 0x30) else ofExponentDigits digits := by
        rw [ofExponentDigits, List.foldl_append]
        rfl
      have whole : ofDigits (digits ++ [digit]) = ofDigits digits * 10 + (digit.toNat - 0x30) := by
        rw [ofDigits, List.foldl_append]
        rfl
      rw [capped, whole]
      split
      · next small => exact .inl (by rw [ih.resolve_right fun large => absurd large.1 (Nat.not_le.mpr small)])
      · next large =>
        refine .inr ⟨Nat.le_of_not_lt large, ?_⟩
        rcases ih with same | ⟨-, le⟩ <;> omega

/-- Every byte that should be a digit is one. -/
def IsSpelled (numeral : Numeral) : Prop :=
  ∀ byte ∈ numeral.integer ++ numeral.fraction, Symbol.isDigit byte = true

/-- The number without its sign, exactly. -/
def magnitude (numeral : Numeral) : ℚ :=
  numeral.coefficient * 10 ^ numeral.scale

theorem coefficient_lt (spelled : numeral.IsSpelled) : numeral.coefficient < 10 ^ numeral.width := by
  rw [coefficient, ← ofDigits_dropWhile]
  exact ofDigits_lt fun byte mem => spelled byte ((List.dropWhile_sublist _).subset mem)

theorem magnitude_nonneg (numeral : Numeral) : 0 ≤ numeral.magnitude := by
  rw [magnitude]
  positivity

theorem magnitude_lt (spelled : numeral.IsSpelled) : numeral.magnitude < 10 ^ (numeral.width + numeral.scale) := by
  have below : (numeral.coefficient : ℚ) < 10 ^ numeral.width := by exact_mod_cast coefficient_lt spelled
  rw [magnitude, zpow_add₀ (by norm_num), zpow_natCast]
  exact mul_lt_mul_of_pos_right below (by positivity)

theorem le_magnitude (spelled : numeral.IsSpelled) (some_digit : numeral.coefficient ≠ 0) :
    10 ^ (numeral.width + numeral.scale) ≤ 10 * numeral.magnitude := by
  have above : (10 : ℚ) ^ numeral.width ≤ 10 * numeral.coefficient := by
    exact_mod_cast le_ofDigits spelled some_digit
  rw [magnitude, zpow_add₀ (by norm_num), zpow_natCast, ← mul_assoc]
  exact mul_le_mul_of_nonneg_right above (by positivity)

/-- A number with more than forty digits before the point is infinite. -/
theorem nearest_of_large (spelled : numeral.IsSpelled) (some_digit : numeral.coefficient ≠ 0)
    (large : 40 < numeral.width + numeral.scale) : Nearest numeral.magnitude Binary32.infinityBits := by
  refine Binary32.nearest_infinity ?_
  have power : (10 : ℚ) ^ (41 : Int) ≤ 10 ^ (numeral.width + numeral.scale) :=
    zpow_le_zpow_right₀ (by norm_num) (by omega)
  have enough : (2 : ℚ) ^ 128 * 10 ≤ 10 ^ (41 : Int) := by norm_num
  have := le_magnitude spelled some_digit
  linarith

/-- A number with sixty zeros behind the point vanishes. -/
theorem nearest_of_small (spelled : numeral.IsSpelled) (small : numeral.width + numeral.scale < -60) :
    Nearest numeral.magnitude 0 := by
  refine Binary32.nearest_zero numeral.magnitude_nonneg ((magnitude_lt spelled).trans_le ?_)
  calc (10 : ℚ) ^ (numeral.width + numeral.scale) ≤ 10 ^ (-61 : Int) :=
        zpow_le_zpow_right₀ (by norm_num) (by omega)
    _ ≤ 1 / 2 ^ 150 := by norm_num

theorem nearest_of_zero (none : numeral.coefficient = 0) : Nearest numeral.magnitude 0 := by
  have zero : numeral.magnitude = 0 := by rw [magnitude, none, Nat.cast_zero, zero_mul]
  exact Binary32.nearest_zero zero.ge (by rw [zero]; norm_num)

/-- What is spelled is rounded to the nearest number. -/
theorem nearest_nearestBits (spelled : numeral.IsSpelled) : Nearest numeral.magnitude numeral.nearestBits := by
  rw [nearestBits]
  by_cases none : numeral.coefficient = 0
  · simp only [if_pos none]
    exact nearest_of_zero none
  · simp only [if_neg none]
    by_cases large : 40 < numeral.width + numeral.scale
    · rw [if_pos large]
      exact nearest_of_large spelled none large
    · rw [if_neg large]
      by_cases small : numeral.width + numeral.scale < -60
      · rw [if_pos small]
        exact nearest_of_small spelled small
      · rw [if_neg small]
        by_cases whole : 0 ≤ numeral.scale
        · have exact_eq : numeral.magnitude = ((numeral.coefficient * Nat.pow 10 numeral.scale.toNat : Nat) : ℚ) /
              ((1 : Nat) : ℚ) := by
            rw [magnitude, ← Int.toNat_of_nonneg whole, zpow_natCast, Nat.cast_one, div_one, Int.toNat_natCast,
              Nat.pow_eq]
            push_cast
            rfl
          rw [if_pos whole, exact_eq]
          exact Binary32.nearest_nearestBits _ Nat.one_pos
        · have exact_eq : numeral.magnitude = (numeral.coefficient : ℚ) /
              ((Nat.pow 10 (-numeral.scale).toNat : Nat) : ℚ) := by
            have negative : numeral.scale = -((-numeral.scale).toNat : Int) := by omega
            rw [magnitude, negative, zpow_neg, zpow_natCast, ← div_eq_mul_inv, neg_neg, Int.toNat_natCast,
              Nat.pow_eq]
            push_cast
            rfl
          rw [if_neg whole, exact_eq]
          exact Binary32.nearest_nearestBits _ (Nat.pow_pos (by norm_num))

end PocketScript.Numeral
