import PocketScript.Symbol

/-! # Program bytes

Facts about single bytes, found by looking at all of them.
-/

namespace PocketScript

/-- What holds of all numbers of a byte holds of all bytes. -/
theorem forall_byte {holds : UInt8 → Prop} (all : ∀ number : Fin 256, holds (UInt8.ofNat number)) (byte : UInt8) :
    holds byte := by
  have same : UInt8.ofNat byte.toNat = byte := UInt8.ofNat_toNat
  rw [← same]
  exact all ⟨byte.toNat, byte.toNat_lt⟩

/-- What the byte of an operator does not do. -/
theorem BinaryOperator.ofByte?_spec : ∀ byte : UInt8, (BinaryOperator.ofByte? byte).isSome = true →
    Step.ofByte? byte = none ∧ byte ≠ 0x5b ∧ ¬ (byte = 0x3a ∨ byte = 0x3b) ∧ byte ≠ 0x0a ∧ byte ≠ 0 ∧
      Symbol.continuesName byte = false ∧ Symbol.isDigit byte = false ∧ byte ≠ 0x2e ∧ byte ≠ 0x65 :=
  forall_byte (by decide +kernel)

end PocketScript
