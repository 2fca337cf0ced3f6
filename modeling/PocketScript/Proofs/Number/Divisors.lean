import PocketScript.Number.Arithmetic
import PocketScript.Proofs.Number.Finite

/-! # Divisors of zero

An update turns a divisor of zero away before its operator is applied. The operator would
turn it away itself: a quotient by the same comparison, a remainder because zero of either
sign is truncated to zero. So an update stores what the operator comes to.
-/

namespace PocketScript

open Float.Model
open Float.Model.UnpackedFloat

variable {number left right : Float32} {operator : Combination}

namespace Binary32

/-- Zero of either sign has no bits but that of its sign. -/
theorem unpack_zero {bits : BitVec Format.binary32.numBits} {sign : Sign}
    (unpacked : UnpackedFloat.unpack .binary32 bits = .zero sign) : bits.toNat % signBit = 0 := by
  unfold UnpackedFloat.unpack at unpacked
  dsimp only at unpacked
  split at unpacked
  · split at unpacked <;> cases unpacked
  · split at unpacked
    · next least =>
      split at unpacked
      · next none =>
        rw [← fields_eq, least, none]
        rfl
      · cases unpacked
    · cases unpacked

theorem units_zero (zero : (number == 0.0) = true) : units number = 0 := by
  have unpacked : number.toModel.unpack.beq (.zero .positive) = true := zero
  cases same : number.toModel.unpack with
  | zero sign =>
      have bits : magnitudeBits number = 0 := unpack_zero same
      rw [units, bits]
      rfl
  | finite sign _ _ _ | infinity sign =>
      rw [same] at unpacked
      cases sign <;> cases unpacked
  | notANumber =>
      rw [same] at unpacked
      cases unpacked

end Binary32

theorem truncate_zero (zero : (number == 0.0) = true) : truncate number = 0 := by
  rw [truncate, Binary32.units_zero zero, Nat.zero_div]
  dsimp only [Nat.zero_min]
  split
  · rfl
  · split <;> rfl

/-- An operator that divides turns a divisor of zero away itself. -/
theorem Combination.apply_zero (divides : operator = .divide ∨ operator = .remainder)
    (zero : (right == 0.0) = true) : operator.apply left right = none := by
  rcases divides with rfl | rfl
  · exact if_pos zero
  · exact if_pos (truncate_zero zero)

/-- So an update stores what its operator comes to. -/
theorem Combination.update_eq_apply (operator : Combination) (left right : Float32) :
    operator.update left right = operator.apply left right := by
  rw [update]
  split
  · next zero => exact (apply_zero zero.1 zero.2).symm
  · rfl

end PocketScript
